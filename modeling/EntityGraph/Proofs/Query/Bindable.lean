import EntityGraph.Proofs.Coercion.Range
import EntityGraph.Proofs.Coercion.Result
import EntityGraph.Proofs.Model.Coherent
import EntityGraph.Proofs.Query.Typing
import EntityGraph.Sql.Condition

namespace EntityGraph

open Double

/-- Whether values of a type may satisfy a comparison with a value that is none of the type. A number
lies above or below all values of an integral type, and at the ends of the range of 64 bits they may
round to it. A text has its place among dates, moments and UUIDs, but it is equal to none of them,
unless it is a moment that is given more finely than it is written. -/
def FieldType.mayAdmit (t : FieldType) (op : Comparison) : Json → Bool
  | .num n =>
      t.isIntegral &&
        (op.admits n.side || t == .long && n.toDouble.magnitude == endOfRange && op.admits .eq)
  | .str s =>
      (t == .date || t == .datetime || t == .uuid) &&
        (op != .eq || t == .datetime && (coerce? t (.str s)).isSome)
  | _ => false

section Values

variable {t : FieldType} {op : Comparison} {x y v raw : Json}

theorem coerce?_ne_of_not_bindable (hb : Sql.bindable v t = false) (hv : v ≠ .null) :
    coerce? t v ≠ some v := by
  intro hc
  have hnull : v.isNull = false := by
    cases v <;> first | rfl | exact absurd rfl hv
  simp only [Sql.bindable, coerce, hc, hnull, Except.toOption, Option.map_some, Option.getD_some,
    beq_self_eq_true, Bool.not_false, Bool.and_true] at hb
  cases hb

theorem satisfied_of_compare?_none (h : (coerceOrKeep t x).compare? (coerceOrKeep t v) = none) :
    op.satisfied t x v = false := by
  rw [Comparison.satisfied, compareAs, h]
  rfl

theorem satisfied_number (hx : coerce? t y = some x) (ht : t.isIntegral = true) {n : Number}
    (hn : coerce? t (.num n) = none) (hmay : t.mayAdmit op (.num n) = false) :
    op.satisfied t x (.num n) = false := by
  have hkeep : coerceOrKeep t (.num n) = .num n := by rw [coerceOrKeep, hn, Option.getD_none]
  by_cases hnull : x = .null
  · subst hnull
    refine satisfied_of_compare?_none ?_
    rw [hkeep, coerceOrKeep]
    cases t <;> rfl
  · obtain ⟨i, hi⟩ := FieldType.exists_integral?_of_coerce? ht hx hnull
    obtain ⟨hself, k, rfl, rfl⟩ := FieldType.integral?_eq_some_iff.mp hi
    have hfixed := (FieldType.isIdentity_of_integral? ht hi).2
    have hcompare : compareAs t (.num (.whole k)) (.num n) = some ((Number.whole k).compare n) := by
      rw [compareAs, hkeep, coerceOrKeep, hfixed]
      rfl
    simp only [FieldType.mayAdmit, ht, Bool.true_and, Bool.or_eq_false_iff] at hmay
    rw [Comparison.satisfied, hcompare, Option.map_some, Option.getD_some]
    rcases compare_beyond ht hself hn with h | ⟨rfl, hend, h⟩
    · rw [h]
      exact hmay.1
    · simpa [hend, h] using hmay.2

theorem satisfied_text (hx : coerce? t y = some x) {s : String} (hs : coerce? t (.str s) = none) :
    Comparison.eq.satisfied t x (.str s) = false := by
  have hkeep : coerceOrKeep t (.str s) = .str s := by rw [coerceOrKeep, hs, Option.getD_none]
  obtain ⟨x', hx'⟩ := Option.isSome_iff_exists.mp (FieldType.isSome_coerce? hx)
  have hne : x' ≠ .str s := by
    rintro rfl
    have := FieldType.isSome_coerce? hx'
    rw [hs] at this
    cases this
  have hcompare : compareAs t x (.str s) = x'.compare? (.str s) := by
    rw [compareAs, hkeep, coerceOrKeep, hx', Option.getD_some]
  rw [Bool.eq_false_iff, Ne, Comparison.satisfied_eq_iff, hcompare]
  cases x' with
  | str u =>
    intro h
    have hu : u = s := Std.LawfulEqCmp.compare_eq_iff_eq.mp (Option.some.inj h)
    exact hne (hu ▸ rfl)
  | _ =>
    intro h
    cases h

/-- A value that a filter brings along and that is not bindable has no form in its type, unless it is a
moment. -/
theorem coerce?_eq_none_of_not_bindable (hv : v = coerceOrKeep t raw) (hnull : v ≠ .null)
    (hb : Sql.bindable v t = false) (hmay : t.mayAdmit op v = false) : coerce? t v = none := by
  cases hc : coerce? t v with
  | none => rfl
  | some w =>
    -- a value that is converted but does not stay as it is comes from a moment
    have hraw : coerce? t raw = some v := by
      cases hr : coerce? t raw with
      | some u => rw [hv, coerceOrKeep, hr, Option.getD_some]
      | none =>
        rw [hv, coerceOrKeep, hr, Option.getD_none, hr] at hc
        cases hc
    have ht : t = .datetime := by
      by_contra ht
      exact coerce?_ne_of_not_bindable hb hnull (FieldType.coerce?_fixed ht hraw)
    subst ht
    rcases FieldType.exists_moment_of_coerce? hraw with rfl | ⟨u, -, rfl⟩
    · exact absurd rfl hnull
    · simp [FieldType.mayAdmit, hc] at hmay

theorem satisfied_of_kind (hx : coerce? t y = some x) (hc : coerce? t v = none)
    (hk : t.kind? = some v.kind) (hmay : t.mayAdmit op v = false) : op.satisfied t x v = false := by
  cases v with
  | num n =>
    cases t with
    | integer | long => exact satisfied_number hx rfl hc hmay
    | float | double => cases hc
    | _ => cases hk
  | str s =>
    have hop (ht : t = .date ∨ t = .datetime ∨ t = .uuid) : op = .eq := by
      rcases ht with rfl | rfl | rfl <;> simpa [FieldType.mayAdmit, hc] using hmay
    cases t with
    | string => cases hc
    | date => exact hop (.inl rfl) ▸ satisfied_text hx hc
    | datetime => exact hop (.inr (.inl rfl)) ▸ satisfied_text hx hc
    | uuid => exact hop (.inr (.inr rfl)) ▸ satisfied_text hx hc
    | _ => cases hk
  | bool b =>
    cases t with
    | boolean => cases hc
    | _ => cases hk
  | _ => cases t <;> cases hk

/-- A value that a filter brings along and that is no value of its type satisfies no comparison with one,
other than those that its place in the order of the type allows. -/
theorem satisfied_of_not_bindable (hx : coerce? t y = some x) (hv : v = coerceOrKeep t raw)
    (hb : Sql.bindable v t = false) (hmay : t.mayAdmit op v = false) :
    op.satisfied t x v = false := by
  by_cases hnull : v = .null
  · subst hnull
    refine satisfied_of_compare?_none ?_
    have hkeep : coerceOrKeep t .null = .null := by cases t <;> rfl
    rw [hkeep, Json.compare?_null]
  have hc := coerce?_eq_none_of_not_bindable hv hnull hb hmay
  cases hk : t.kind? with
  | none =>
    have ht : t = .json := by cases t <;> first | rfl | cases hk
    subst ht
    cases v <;> cases hc
  | some k =>
    by_cases hkind : v.kind = k
    · exact satisfied_of_kind hx hc (hkind ▸ hk) hmay
    · obtain ⟨x', hx'⟩ := Option.isSome_iff_exists.mp (FieldType.isSome_coerce? hx)
      have hxkeep : coerceOrKeep t x = x' := by rw [coerceOrKeep, hx', Option.getD_some]
      have hkeep : coerceOrKeep t v = v := by rw [coerceOrKeep, hc, Option.getD_none]
      refine satisfied_of_compare?_none ?_
      rw [hxkeep, hkeep]
      rcases FieldType.kind_of_coerce? hx' hk with rfl | hx'k
      · rfl
      · exact Json.compare?_eq_none fun h => hkind (h ▸ hx'k)

end Values

namespace Sql

open Token

variable {schema : String} {hops : List Hop}

theorem exists_eq_of_within {next parent : Nat} {c d : Nat → List Token}
    (h : within schema next parent c hops = within schema next parent d hops) : ∃ t, c t = d t := by
  induction hops generalizing next parent with
  | nil => exact ⟨parent, h⟩
  | cons hop rest ih =>
    have hquery := List.append_cancel_right (List.cons.inj (List.cons.inj h).2).2
    simp only [List.append_assoc] at hquery
    have hjoin := List.append_cancel_left
      (List.append_cancel_left (List.append_cancel_left (List.cons.inj hquery).2))
    exact ih (List.cons.inj hjoin).2

theorem ne_falsity {xs : List Token} (h : 2 ≤ xs.length) : xs ≠ falsity := by
  rintro rfl
  exact absurd h (by decide)

theorem not_bindable_of_compare {path : AccessPath} {op : Comparison} {v : Json} {next : Nat}
    (h : condition schema next (.compare path op v) =
      within schema next 0 (fun _ => falsity) path.hops) : bindable v path.type = false := by
  obtain ⟨t, ht⟩ := exists_eq_of_within h
  cases hb : bindable v path.type with
  | false => rfl
  | true =>
    rw [hb, if_pos rfl] at ht
    refine absurd ht (ne_falsity ?_)
    simp only [List.length_append, List.length_cons, typedParam]
    omega

theorem not_bindable_of_among {path : AccessPath} {vs : List Json} {next : Nat}
    (h : condition schema next (.among path vs) =
      within schema next 0 (fun _ => falsity) path.hops) :
    ∀ v ∈ vs, bindable v path.type = false := by
  obtain ⟨t, ht⟩ := exists_eq_of_within h
  split at ht
  · next hempty =>
    have hnone := List.filter_eq_nil_iff.mp (List.isEmpty_iff.mp hempty)
    exact fun v hv => Bool.eq_false_iff.mpr (hnone v hv)
  · refine absurd ht (ne_falsity ?_)
    simp only [List.length_append, List.length_cons, parens, List.length_nil]
    omega

theorem not_bindable_of_between {path : AccessPath} {low high : Json} {next : Nat}
    (h : condition schema next (.between path low high) =
      within schema next 0 (fun _ => falsity) path.hops) :
    bindable low path.type = false ∨ bindable high path.type = false := by
  obtain ⟨t, ht⟩ := exists_eq_of_within h
  split at ht
  · refine absurd ht (ne_falsity ?_)
    simp only [List.length_append, List.length_cons, typedParam]
    omega
  · next hb => exact Bool.and_eq_false_iff.mp (Bool.eq_false_iff.mpr hb)

end Sql

namespace Predicate

/-- Whether records may satisfy a comparison although there is a value in it that is not bindable. -/
def mayAdmit : Predicate → Bool
  | .compare path op v => path.type.mayAdmit op v
  | .among path vs => vs.any (path.type.mayAdmit .eq)
  | .between path low high =>
      (Sql.bindable low path.type || path.type.mayAdmit .gte low) &&
        (Sql.bindable high path.type || path.type.mayAdmit .lte high)
  | _ => true

def Converted (path : AccessPath) : Predicate → Prop
  | .compare q _ v => q = path ∧ ∃ raw, v = coerceOrKeep path.type raw
  | .among q vs => q = path ∧ ∀ v ∈ vs, ∃ raw, v = coerceOrKeep path.type raw
  | .between q low high => q = path ∧ (∃ raw, low = coerceOrKeep path.type raw) ∧
      ∃ raw, high = coerceOrKeep path.type raw
  | _ => True

theorem converted_of_predicate? {f : Filter} {path : AccessPath} {p : Predicate}
    (h : f.predicate? path = some p) : p.Converted path := by
  have hcomparison {op : Comparison}
      (h : Filter.comparison path op (coerceOrKeep path.type f.value) = some p) : p.Converted path := by
    unfold Filter.comparison at h
    split at h
    · cases h
    · cases h; exact ⟨rfl, _, rfl⟩
  unfold Filter.predicate? at h
  dsimp only at h
  split at h
  · split at h
    · cases h; trivial
    · cases h; exact ⟨rfl, _, rfl⟩
  · split at h
    · cases h; trivial
    · cases h; exact ⟨rfl, _, rfl⟩
  · exact hcomparison h
  · exact hcomparison h
  · exact hcomparison h
  · exact hcomparison h
  · split at h
    · cases h
    · cases h; trivial
  · split at h
    · cases h; trivial
    · cases h
      refine ⟨rfl, fun v hv => ?_⟩
      obtain ⟨raw, -, rfl⟩ := List.mem_map.mp hv
      exact ⟨raw, rfl⟩
    · cases h
  · split at h
    · cases h
    · cases h
      refine ⟨rfl, ⟨_, rfl⟩, ?_⟩
      cases f.second with
      | none => exact ⟨.null, by cases path.type <;> rfl⟩
      | some raw => exact ⟨raw, rfl⟩

variable {g : Registry} {ts : Tables} {m : Model} {f : Filter} {path : AccessPath} {p : Predicate}
  {record : Json}

theorem eval_of_not_bindable (hp : p.Converted path)
    (htyped : ∀ v ∈ ts.reached path record, ∃ raw, coerce? path.type raw = some v)
    {schema : String} {next : Nat}
    (hfalse : Sql.condition schema next p =
      Sql.within schema next 0 (fun _ => Sql.falsity) path.hops)
    (hmay : p.mayAdmit = false) : p.eval ts record = false := by
  cases p with
  | compare q op v =>
    obtain ⟨rfl, raw, hraw⟩ := hp
    have hb := Sql.not_bindable_of_compare hfalse
    refine List.any_eq_false.mpr fun x hx => ?_
    obtain ⟨y, hy⟩ := htyped x hx
    exact Bool.eq_false_iff.mp (satisfied_of_not_bindable hy hraw hb hmay)
  | among q vs =>
    obtain ⟨rfl, hraws⟩ := hp
    have hb := Sql.not_bindable_of_among hfalse
    refine List.any_eq_false.mpr fun x hx => Bool.eq_false_iff.mp (List.any_eq_false.mpr fun v hv => ?_)
    obtain ⟨y, hy⟩ := htyped x hx
    obtain ⟨raw, hraw⟩ := hraws v hv
    have hmay := Bool.eq_false_iff.mpr (List.any_eq_false.mp hmay v hv)
    exact Bool.eq_false_iff.mp (satisfied_of_not_bindable hy hraw (hb v hv) hmay)
  | between q low high =>
    obtain ⟨rfl, ⟨raw, hlow⟩, raw', hhigh⟩ := hp
    have hb := Sql.not_bindable_of_between hfalse
    simp only [mayAdmit, Bool.and_eq_false_iff, Bool.or_eq_false_iff] at hmay
    refine List.any_eq_false.mpr fun x hx => Bool.eq_false_iff.mp (Bool.and_eq_false_iff.mpr ?_)
    obtain ⟨y, hy⟩ := htyped x hx
    exact hmay.imp (fun h => satisfied_of_not_bindable hy hlow h.1 h.2)
      fun h => satisfied_of_not_bindable hy hhigh h.1 h.2
  | _ => cases hmay

end Predicate

namespace Registry

variable {g : Registry} {ts : Tables} {m : Model} {f : Filter} {path : AccessPath} {p : Predicate}

/-- A filter whose condition on tables is false, because its values are not bindable, matches no record
either, unless one of these values has a place in the order of the values at the end of the path. -/
theorem unbindable_values_match_nothing (hm : m ∈ g.models) (hts : g.Typed ts)
    (hpath : g.accessPath m f.field = .ok path) (hp : f.predicate? path = some p)
    {schema : String} {next : Nat}
    (hfalse : Sql.condition schema next p =
      Sql.within schema next 0 (fun _ => Sql.falsity) path.hops)
    (hmay : p.mayAdmit = false) : ts.matching m (some p) = [] := by
  refine List.filter_eq_nil_iff.mpr fun record hrecord => Bool.eq_false_iff.mp ?_
  exact Predicate.eval_of_not_bindable (Predicate.converted_of_predicate? hp)
    (fun v hv => hts.exists_coerce?_of_reached hm hpath hrecord hv) hfalse hmay

end Registry

namespace Lending

/-- Loans of books, each with the number of pages and the day on which it is due. -/
def definitions : List ModelDefinition :=
  [⟨"Loan", "loans", true, .standard, [⟨"pages", .integer⟩, ⟨"due", .date⟩], [], []⟩]

def loan : Model :=
  ⟨"Loan", "loans", true, "id", .long, true, [⟨"pages", .integer⟩, ⟨"due", .date⟩], [], []⟩

def registry : Registry :=
  ⟨[loan], by decide +kernel⟩

def tables : Tables :=
  Tables.empty.set "loans" (Table.empty.put (.int 1)
    (.ofPairs [("due", .str "2024-03-09"), ("id", .ofNat 1), ("pages", .ofNat 300)]))

theorem typed : registry.Typed tables := by
  intro m hm record hrecord name type htype
  obtain rfl := List.mem_singleton.mp hm
  obtain rfl := List.mem_singleton.mp hrecord
  unfold Model.fieldType? at htype
  split at htype
  · next hname =>
    obtain rfl := Option.some.inj htype
    subst hname
    exact ⟨.ofNat 1, rfl⟩
  · obtain ⟨a, ha, rfl⟩ := Option.map_eq_some_iff.mp htype
    obtain rfl : a.name = name := by simpa using List.find?_some ha
    rcases List.mem_cons.mp (List.mem_of_find?_eq_some ha) with rfl | ha
    · exact ⟨.ofNat 300, rfl⟩
    · obtain rfl := List.mem_singleton.mp ha
      exact ⟨.str "2024-03-09", rfl⟩

def pages : AccessPath :=
  ⟨[], "pages", .integer, false⟩

def due : AccessPath :=
  ⟨[], "due", .date, false⟩

end Lending

namespace Registry

/-- Neither a word nor a number that is too large is equal to a number of pages. -/
theorem unusable_page_counts_match_nothing :
    let f : Filter := ⟨"pages", .among, .arr [.str "many", .ofNat 3000000000], none⟩
    let p : Predicate := .among Lending.pages [.str "many", .ofNat 3000000000]
    Lending.registry.accessPath Lending.loan f.field = .ok Lending.pages ∧
      f.predicate? Lending.pages = some p ∧
      Sql.condition "app" 1 p = Sql.within "app" 1 0 (fun _ => Sql.falsity) Lending.pages.hops ∧
      p.mayAdmit = false ∧ Lending.tables.matching Lending.loan (some p) = [] :=
  have hfalse : Sql.condition "app" 1 (.among Lending.pages [.str "many", .ofNat 3000000000]) =
      Sql.within "app" 1 0 (fun _ => Sql.falsity) Lending.pages.hops := rfl
  ⟨rfl, rfl, hfalse, rfl,
    unbindable_values_match_nothing
      (f := ⟨"pages", .among, .arr [.str "many", .ofNat 3000000000], none⟩) (.head _) Lending.typed
      rfl rfl hfalse rfl⟩

/-- A word is no day, and the condition on tables is false; but the word comes after all days. -/
theorem days_before_a_word_are_matched :
    let f : Filter := ⟨"due", .lt, .str "soon", none⟩
    let p : Predicate := .compare Lending.due .lt (.str "soon")
    ofDefinitions Lending.definitions = .ok Lending.registry ∧
      Lending.registry.Typed Lending.tables ∧
      Lending.registry.accessPath Lending.loan f.field = .ok Lending.due ∧
      f.predicate? Lending.due = some p ∧
      Sql.condition "app" 1 p = Sql.within "app" 1 0 (fun _ => Sql.falsity) Lending.due.hops ∧
      Lending.tables.matching Lending.loan (some p) = Lending.tables.records "loans" ∧
      Lending.tables.records "loans" ≠ [] :=
  ⟨by rfl, Lending.typed, rfl, rfl, rfl, rfl, nofun⟩

end Registry

end EntityGraph
