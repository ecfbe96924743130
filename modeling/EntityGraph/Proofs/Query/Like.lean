import EntityGraph.Proofs.Pattern.Like
import EntityGraph.Proofs.Query.Derived

namespace EntityGraph

/-- A value other than null in whose text another one stands somewhere. -/
def Json.HasPart (v : Json) (part : String) : Prop :=
  v ≠ .null ∧ part.toList <:+: v.plainText.toList

namespace Text

theorem like_likePattern_iff {raw text : String} (h : ∀ c ∈ raw.toList, c ≠ '%' ∧ c ≠ '_') :
    like (Filter.likePattern raw) text = true ↔ raw.toList <:+: text.toList := by
  have hpercent : ¬raw.toList.contains '%' = true := fun hmem =>
    (h '%' (List.contains_iff_mem.mp hmem)).1 rfl
  have hlist : (Filter.likePattern raw).toList = '%' :: (raw.toList ++ ['%']) := by
    rw [Filter.likePattern, if_neg hpercent, String.toList_append, String.toList_append]
    rfl
  rw [like_iff, hlist, matches_anywhere_iff h]

end Text

namespace Pattern

/-- Where the expression of a pattern is accepted, it finds what the search finds. -/
theorem occursIn_of_likeExpression {pattern : String} {re : Pattern}
    (h : ofText? (Text.likeExpression pattern) = some re) (text : String) :
    re.occursIn text = Text.like pattern text := by
  rw [ofText?_likeExpression] at h
  obtain ⟨-, hre⟩ := Option.ite_none_right_eq_some.mp h
  obtain rfl := Option.some.inj hre
  rw [Bool.eq_iff_iff, occursIn_ofLike, Text.like_iff]

theorem exists_ofText?_likeExpression {pattern : String} (h : 2 * (pattern.length + 2) ≤ sizeLimit) :
    ∃ re, ofText? (Text.likeExpression pattern) = some re :=
  ⟨_, (ofText?_likeExpression pattern).trans (if_pos (Nat.le_trans (size_ofLike pattern.toList) h))⟩

end Pattern

section Like

variable {ts : Tables} {f : Filter} {path : AccessPath} {record : Json}

namespace Predicate

theorem eval_like_iff (hhops : path.hops = []) (pattern : String) :
    (like path pattern).eval ts record = true ↔
      record.get path.field ≠ .null ∧ Text.like pattern (record.get path.field).plainText = true := by
  simp [eval, Tables.reached_of_no_hops hhops, Json.isNull_eq_false_iff]

end Predicate

namespace Filter

theorem predicate?_like (hop : f.operator = .like) (hvalue : f.value ≠ .null) :
    f.predicate? path = some (.like path (likePattern f.value.plainText)) := by
  simp [predicate?, hop, Json.isNull_eq_false_iff.mpr hvalue]

end Filter

namespace FilterSpec

/-- A pattern accepts a text just if the pieces of the pattern stand for pieces of the text, and so does
its regular expression. A filter without wildcards on a field of the model itself has a condition, which
just the records meet whose value has the text of the filter as a part. -/
theorem like_filters_match_by_pieces :
    (∀ pattern text,
      (Text.like pattern text = true ↔ Text.Matches pattern.toList text.toList) ∧
        ∀ re, Pattern.ofText? (Text.likeExpression pattern) = some re →
          re.occursIn text = Text.like pattern text) ∧
    ∀ g m path (f : Filter) logic, g.accessPath m f.field = .ok path → path.hops = [] →
      f.operator = .like → f.value ≠ .null → (∀ c ∈ f.value.plainText.toList, c ≠ '%' ∧ c ≠ '_') →
        ∃ p, (f.alone logic).compile g m = .ok (some p) ∧ ∀ ts,
          (f.alone logic).selected g ts m = .ok ((ts.records m.path).filter (p.eval ts)) ∧
            ∀ record, p.eval ts record = true ↔ (record.get path.field).HasPart f.value.plainText := by
  refine ⟨fun pattern text => ⟨Text.like_iff, fun re hre =>
    Pattern.occursIn_of_likeExpression hre text⟩, ?_⟩
  intro g m path f logic hpath hhops hop hvalue hplain
  have hcondition := (Filter.condition?_of_path hpath).trans (Filter.predicate?_like hop hvalue)
  have hresolves : (f.alone logic).Resolves g m := resolves_of_path hpath fun f' hf => by
    obtain rfl := List.mem_singleton.mp hf
    rfl
  refine ⟨_, ?_, fun ts => ⟨selected_alone hcondition ts, fun record => ?_⟩⟩
  · rw [compile_eq hresolves, conditions, Filter.alone, List.filterMap_cons_some hcondition]
    rfl
  · rw [Predicate.eval_like_iff hhops, Text.like_likePattern_iff hplain, Json.HasPart]

open Household in
/-- A dot stands for itself and a low line also for the end of a line. The text `da` is found in one of the
two names. -/
theorem name_is_selected_by_part :
    (∃ re, Pattern.ofText? (Text.likeExpression "a.%_") = some re ∧ re.occursIn "a.b\n" = true ∧
      re.occursIn "axbc" = false ∧ Text.Matches "a.%_".toList "a.b\n".toList) ∧
    ∃ p, ((⟨"name", .like, .str "da", none⟩ : Filter).alone .and).compile service.registry person =
        .ok (some p) ∧
      ((⟨"name", .like, .str "da", none⟩ : Filter).alone .and).selected service.registry tables person =
        .ok [firstPerson] ∧ firstPerson.get "name" = .str "Ada" ∧
      p.eval tables firstPerson = true ∧ p.eval tables secondPerson = false := by
  obtain ⟨hpattern, hfilter⟩ := like_filters_match_by_pieces
  constructor
  · have hlength : 2 * ("a.%_".length + 2) ≤ Pattern.sizeLimit := by decide
    obtain ⟨re, hre⟩ := Pattern.exists_ofText?_likeExpression hlength
    have hfound : Text.like "a.%_" "a.b\n" = true := by decide +kernel
    refine ⟨re, hre, ((hpattern _ _).2 re hre).trans hfound, ((hpattern _ _).2 re hre).trans ?_,
      (hpattern _ _).1.mp hfound⟩
    decide +kernel
  · have hplain : ∀ c ∈ "da".toList, c ≠ '%' ∧ c ≠ '_' := by simp
    obtain ⟨p, hcompile, hselected⟩ := hfilter service.registry person ⟨[], "name", .string, false⟩
      ⟨"name", .like, .str "da", none⟩ .and (by rfl) rfl rfl nofun hplain
    obtain ⟨hrows, hmeets⟩ := hselected tables
    have hname : firstPerson.get "name" = .str "Ada" := by rfl
    have hfirst : p.eval tables firstPerson = true :=
      (hmeets firstPerson).mpr ⟨by rw [hname]; nofun, by rw [hname]; exact ⟨['A'], [], rfl⟩⟩
    have hsecond : p.eval tables secondPerson = false := by
      rw [← Bool.not_eq_true, hmeets]
      rintro ⟨-, hpart⟩
      exact absurd hpart (by decide +kernel)
    have hrecords : tables.records person.path = [firstPerson, secondPerson] := by rfl
    refine ⟨p, hcompile, ?_, hname, hfirst, hsecond⟩
    rw [hrows, hrecords]
    simp only [List.filter_cons, hfirst, hsecond, List.filter_nil, if_true, Bool.false_eq_true, if_false]

end FilterSpec

end Like

end EntityGraph
