import EntityGraph.Settings
import EntityGraph.Proofs.Text.Split
import Mathlib.Data.List.TakeWhile

namespace EntityGraph

/-- A database of this name, blanks around it apart, need not be created. -/
def IsProvided (name : String) : Prop :=
  Text.trim name = "" ∨ Text.trim name = "postgres"

instance (name : String) : Decidable (IsProvided name) :=
  inferInstanceAs (Decidable (_ ∨ _))

/-- It is clear without a connection that there is nothing to be created. -/
def AnsweredAtOnce (url : String) : Prop :=
  ∃ name, databaseName url = .ok name ∧ needsCreation name = false

theorem needsCreation_eq_false_iff {name : String} :
    needsCreation name = false ↔ name = "" ∨ name = "postgres" := by
  simp [needsCreation, or_iff_not_imp_left]

theorem answeredAtOnce_iff {url name : String} (h : databaseName url = .ok (Text.trim name)) :
    AnsweredAtOnce url ↔ IsProvided name := by
  rw [AnsweredAtOnce, h, IsProvided, ← needsCreation_eq_false_iff]
  exact ⟨fun ⟨_, he, hn⟩ => Except.ok.inj he ▸ hn, fun hn => ⟨_, rfl, hn⟩⟩

section Query

variable {authority d q : String} {base front rest : List Char}

theorem databaseName_of_cut {url : String} (h : url.toList = base ++ '/' :: rest) (hrest : '/' ∉ rest) :
    databaseName url = .ok (Text.trim (String.ofList (rest.takeWhile (· != '?')))) := by
  rw [databaseName, Text.cutLast_eq_some_iff.mpr ⟨h, hrest⟩]

theorem ne_mark_of_mem (hmark : '?' ∉ d.toList) : ∀ c ∈ d.toList, (c != '?') = true :=
  fun _ hc => bne_iff_ne.mpr fun he => hmark (he ▸ hc)

theorem databaseName_without_query (authority : String) (hslash : '/' ∉ d.toList) (hmark : '?' ∉ d.toList) :
    databaseName (authority ++ "/" ++ d) = .ok (Text.trim d) := by
  have hurl : (authority ++ "/" ++ d).toList = authority.toList ++ '/' :: d.toList := by simp
  rw [databaseName_of_cut hurl hslash, List.takeWhile_eq_self_iff.mpr (ne_mark_of_mem hmark),
    String.ofList_toList]

theorem toList_with_query (authority d q : String) : (authority ++ "/" ++ d ++ "?" ++ q).toList =
    authority.toList ++ '/' :: (d.toList ++ '?' :: q.toList) := by
  simp

theorem databaseName_of_slashless_query (hslash : '/' ∉ d.toList) (hmark : '?' ∉ d.toList)
    (hq : '/' ∉ q.toList) : databaseName (authority ++ "/" ++ d ++ "?" ++ q) = .ok (Text.trim d) := by
  have hrest : '/' ∉ d.toList ++ '?' :: q.toList := by simp [hslash, hq]
  rw [databaseName_of_cut (toList_with_query authority d q) hrest,
    List.takeWhile_append_of_pos (ne_mark_of_mem hmark), List.takeWhile_cons_of_neg (by decide),
    List.append_nil, String.ofList_toList]

theorem databaseName_of_query (authority d : String) (hq : q.toList = front ++ '/' :: rest)
    (hrest : '/' ∉ rest) : databaseName (authority ++ "/" ++ d ++ "?" ++ q) =
      .ok (Text.trim (String.ofList (rest.takeWhile (· != '?')))) := by
  have hurl : (authority ++ "/" ++ d ++ "?" ++ q).toList =
      (authority.toList ++ '/' :: (d.toList ++ '?' :: front)) ++ '/' :: rest := by
    rw [toList_with_query, hq]
    simp
  exact databaseName_of_cut hurl hrest

/-- Without a query the name alone decides. A query makes no difference just if it has no slash, or if what
stands between its last slash and the next question mark is provided just if the name is. -/
theorem query_has_no_influence_iff (authority : String) (hslash : '/' ∉ d.toList) (hmark : '?' ∉ d.toList)
    (q : String) : (AnsweredAtOnce (authority ++ "/" ++ d) ↔ IsProvided d) ∧
      ((AnsweredAtOnce (authority ++ "/" ++ d ++ "?" ++ q) ↔ AnsweredAtOnce (authority ++ "/" ++ d)) ↔
        '/' ∉ q.toList ∨ ∃ front rest, q.toList = front ++ '/' :: rest ∧ '/' ∉ rest ∧
          (IsProvided (String.ofList (rest.takeWhile (· != '?'))) ↔ IsProvided d)) := by
  have hwithout := answeredAtOnce_iff (databaseName_without_query authority hslash hmark)
  refine ⟨hwithout, ?_⟩
  rw [hwithout]
  cases hcut : Text.cutLast '/' q.toList with
  | none =>
    have hq := Text.cutLast_eq_none_iff.mp hcut
    rw [answeredAtOnce_iff (databaseName_of_slashless_query hslash hmark hq)]
    exact iff_of_true Iff.rfl (.inl hq)
  | some parts =>
    obtain ⟨front, rest⟩ := parts
    obtain ⟨hq, hrest⟩ := Text.cutLast_eq_some_iff.mp hcut
    rw [answeredAtOnce_iff (databaseName_of_query authority d hq hrest)]
    constructor
    · exact fun h => .inr ⟨front, rest, hq, hrest, h⟩
    · rintro (hnone | ⟨front', rest', hq', hrest', h⟩)
      · exact absurd (hq ▸ List.mem_append_right _ List.mem_cons_self) hnone
      · have hsame := hcut.symm.trans (Text.cutLast_eq_some_iff.mpr ⟨hq', hrest'⟩)
        obtain ⟨rfl, rfl⟩ := Prod.mk.inj (Option.some.inj hsame)
        exact h

end Query

/-- Where the database has to be looked for, the mode of the connection does not hide it. -/
theorem mode_has_no_influence : '/' ∉ "shop".toList ∧ '?' ∉ "shop".toList ∧
    ¬AnsweredAtOnce ("postgres://localhost" ++ "/" ++ "shop") ∧
    ¬AnsweredAtOnce ("postgres://localhost" ++ "/" ++ "shop" ++ "?" ++ "sslmode=disable") := by
  have hslash : '/' ∉ "shop".toList := by decide +kernel
  have hmark : '?' ∉ "shop".toList := by decide +kernel
  obtain ⟨hwithout, hwith⟩ :=
    query_has_no_influence_iff "postgres://localhost" hslash hmark "sslmode=disable"
  have hname : ¬AnsweredAtOnce ("postgres://localhost" ++ "/" ++ "shop") :=
    fun h => absurd (hwithout.mp h) (by decide +kernel)
  exact ⟨hslash, hmark, hname, fun h => hname ((hwith.mpr (.inl (by decide +kernel))).mp h)⟩

/-- The directory of a socket stands in the query with a slash at its end: no name is seen behind it, and the
database of the path is not looked for. -/
theorem socket_directory_hides_name : '?' ∉ "postgres://u:p@localhost:5432".toList ∧
    '/' ∉ "shop".toList ∧ '?' ∉ "shop".toList ∧ ¬IsProvided "shop" ∧
    ¬AnsweredAtOnce ("postgres://u:p@localhost:5432" ++ "/" ++ "shop") ∧
    AnsweredAtOnce ("postgres://u:p@localhost:5432" ++ "/" ++ "shop" ++ "?" ++ "host=/var/run/") := by
  have hslash : '/' ∉ "shop".toList := by decide +kernel
  have hmark : '?' ∉ "shop".toList := by decide +kernel
  have hshop : ¬IsProvided "shop" := by decide +kernel
  refine ⟨by decide +kernel, hslash, hmark, hshop, ?_, "", rfl, rfl⟩
  rwa [answeredAtOnce_iff (databaseName_without_query _ hslash hmark)]

end EntityGraph
