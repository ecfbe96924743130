import EntityGraph.Proofs.Coercion.Result
import EntityGraph.Service.Listing

namespace EntityGraph

section Swapping

theorem Double.compare_swap (x y : Double) : y.compare x = (x.compare y).swap :=
  Std.OrientedOrd.eq_swap (a := y.units)

theorem Number.compare_swap (a b : Number) : b.compare a = (a.compare b).swap := by
  unfold Number.compare
  cases a.signed? with
  | none => cases b.signed? <;> exact Double.compare_swap _ _
  | some i =>
    cases b.signed? with
    | none => exact Double.compare_swap _ _
    | some j => exact Std.OrientedOrd.eq_swap (a := j)

theorem Number.same_comm (a b : Number) : a.same b = b.same a := by
  cases a with
  | whole n =>
    cases b with
    | whole k => exact Bool.beq_comm
    | double y => rfl
  | double x =>
    cases b with
    | whole k => rfl
    | double y => exact Bool.beq_comm (a := x.units)

namespace Json

mutual

theorem same_comm (a b : Json) : same a b = same b a := by
  match a with
  | .null => cases b <;> rfl
  | .bool x =>
    cases b with
    | bool y => exact Bool.beq_comm (a := x)
    | _ => rfl
  | .num x =>
    cases b with
    | num y => exact Number.same_comm x y
    | _ => rfl
  | .str x =>
    cases b with
    | str y => exact Bool.beq_comm (a := x)
    | _ => rfl
  | .arr xs =>
    cases b with
    | arr ys => exact sameItems_comm xs ys
    | _ => rfl
  | .obj xs =>
    cases b with
    | obj ys => exact sameMembers_comm xs ys
    | _ => rfl

theorem sameItems_comm (xs ys : List Json) : sameItems xs ys = sameItems ys xs := by
  match xs with
  | [] => cases ys <;> rfl
  | x :: rest =>
    cases ys with
    | nil => rfl
    | cons y others => rw [sameItems, sameItems, same_comm x y, sameItems_comm rest others]

theorem sameMembers_comm (xs ys : List (String × Json)) : sameMembers xs ys = sameMembers ys xs := by
  match xs with
  | [] => cases ys <;> rfl
  | (k, x) :: rest =>
    cases ys with
    | nil => rfl
    | cons p others =>
      rw [sameMembers, sameMembers, same_comm x p.2, sameMembers_comm rest others,
        Bool.beq_comm (a := k)]

end

theorem beq_comm (a b : Json) : (a == b) = (b == a) :=
  same_comm a b

theorem compare?_swap (a b : Json) : b.compare? a = (a.compare? b).map Ordering.swap := by
  cases a with
  | null => cases b <;> rfl
  | num x =>
    cases b with
    | num y => exact congrArg some (Number.compare_swap x y)
    | _ => rfl
  | str x =>
    cases b with
    | str y => exact congrArg some (Std.OrientedOrd.eq_swap (a := y))
    | _ => rfl
  | bool x =>
    cases b with
    | bool y => exact congrArg some (Std.OrientedOrd.eq_swap (a := y))
    | _ => rfl
  | arr xs =>
    cases b with
    | arr ys =>
      simp only [compare?, beq_comm (.arr ys)]
      split <;> rfl
    | _ => rfl
  | obj xs =>
    cases b with
    | obj ys =>
      simp only [compare?, beq_comm (.obj ys)]
      split <;> rfl
    | _ => rfl

end Json

theorem compareAs_swap (t : FieldType) (a b : Json) :
    compareAs t b a = (compareAs t a b).map Ordering.swap :=
  Json.compare?_swap _ _

end Swapping

/-- The place of a value on the scale of its type: that of a number or a truth value among the numbers, or
that of a text among the texts. -/
def Json.rank : Json → Int × String
  | .num (.whole n) => (n.value, "")
  | .num (.double x) => (x.units, "")
  | .bool b => (if b then 1 else 0, "")
  | .str s => (0, s)
  | _ => (0, "")

def compareRanks : Int × String → Int × String → Ordering :=
  compareLex (compareOn Prod.fst) (compareOn Prod.snd)

instance : Std.TransCmp compareRanks :=
  inferInstanceAs (Std.TransCmp (compareLex (compareOn Prod.fst) (compareOn Prod.snd)))

namespace FieldType

inductive Orders : FieldType → Json → Prop
  | whole {t : FieldType} (ht : t.isIntegral = true) (n : Whole)
      (hn : n.value < 0x8000000000000000) : Orders t (.num (.whole n))
  | double {t : FieldType} (ht : t = .float ∨ t = .double) (x : Double) : Orders t (.num (.double x))
  | text {t : FieldType} (ht : t.kind? = some .str) (s : String) : Orders t (.str s)
  | truth (b : Bool) : Orders .boolean (.bool b)

def Places (t : FieldType) (v : Json) : Prop :=
  v = .null ∨ t.Orders (coerceOrKeep t v)

variable {t : FieldType} {a b c v w raw id : Json}

theorem Orders.alike (ha : t.Orders a) (hb : t.Orders b) :
    (∃ n k : Whole, n.value < 0x8000000000000000 ∧ k.value < 0x8000000000000000 ∧
      a = .num (.whole n) ∧ b = .num (.whole k)) ∨
    (∃ x y, a = .num (.double x) ∧ b = .num (.double y)) ∨
    (∃ s u, a = .str s ∧ b = .str u) ∨ ∃ x y, a = .bool x ∧ b = .bool y := by
  cases ha with
  | whole ht n hn =>
    cases hb with
    | whole _ k hk => exact .inl ⟨n, k, hn, hk, rfl, rfl⟩
    | double h => rcases h with rfl | rfl <;> cases ht
    | text h => cases t <;> cases ht <;> cases h
    | truth => cases ht
  | double ht x =>
    cases hb with
    | double _ y => exact .inr (.inl ⟨x, y, rfl, rfl⟩)
    | whole h => rcases ht with rfl | rfl <;> cases h
    | text h => rcases ht with rfl | rfl <;> cases h
    | truth => rcases ht with h | h <;> cases h
  | text ht s =>
    cases hb with
    | text _ u => exact .inr (.inr (.inl ⟨s, u, rfl, rfl⟩))
    | whole h => cases t <;> cases ht <;> cases h
    | double h => rcases h with rfl | rfl <;> cases ht
    | truth => cases ht
  | truth x =>
    cases hb with
    | truth y => exact .inr (.inr (.inr ⟨x, y, rfl, rfl⟩))
    | whole h => cases h
    | double h => rcases h with h | h <;> cases h
    | text h => cases h

theorem Orders.compare?_eq (ha : t.Orders a) (hb : t.Orders b) :
    a.compare? b = some (compareRanks a.rank b.rank) := by
  rcases ha.alike hb with
    ⟨n, k, hn, hk, rfl, rfl⟩ | ⟨x, y, rfl, rfl⟩ | ⟨s, u, rfl, rfl⟩ | ⟨x, y, rfl, rfl⟩
  · simp [Json.compare?, Number.compare_whole hn hk, compareRanks, compareLex, compareOn, Json.rank]
  · have hcompare : (Number.double x).compare (.double y) = Ord.compare x.units y.units := rfl
    simp [Json.compare?, hcompare, compareRanks, compareLex, compareOn, Json.rank]
  · simp [Json.compare?, compareRanks, compareLex, compareOn, Json.rank]
  · cases x <;> cases y <;> rfl

theorem orders_of_coerce? (ht : t ≠ .json) (h : coerce? t v = some w) (hw : w ≠ .null) :
    t.Orders w := by
  have hinteger (hi : t.isIntegral = true) : t.Orders w := by
    obtain ⟨i, hi'⟩ := exists_integral?_of_coerce? hi h hw
    obtain ⟨hholds, n, rfl, rfl⟩ := integral?_eq_some_iff.mp hi'
    exact .whole hi n (lt_of_holds hholds)
  have hdouble (hd : t = .float ∨ t = .double) : t.Orders w := by
    obtain rfl | ⟨x, rfl⟩ := exists_double_of_coerce? hd h
    · exact absurd rfl hw
    · exact .double hd x
  have htext (hk : t.kind? = some .str) : t.Orders w := by
    rcases kind_of_coerce? h hk with rfl | hs
    · exact absurd rfl hw
    · cases w with
      | str s => exact .text hk s
      | _ => cases hs
  cases t with
  | integer | long => exact hinteger rfl
  | float => exact hdouble (.inl rfl)
  | double => exact hdouble (.inr rfl)
  | string | date | datetime | uuid => exact htext rfl
  | boolean =>
    obtain rfl | ⟨b, rfl⟩ := exists_bool_of_coerce? h
    · exact absurd rfl hw
    · exact .truth b
  | json => exact absurd rfl ht

/-- What a type makes of a value has a place, also for moments, which are converted to others once more. -/
theorem places_of_coerce? (ht : t ≠ .json) (h : coerce? t v = some w) : t.Places w := by
  by_cases hw : w = .null
  · exact .inl hw
  · obtain ⟨x, hx⟩ := Option.isSome_iff_exists.mp (isSome_coerce? h)
    have hnull : x ≠ .null := by
      rintro rfl
      by_cases hmoment : t = .datetime
      · subst hmoment
        obtain rfl | ⟨u, hu, rfl⟩ := exists_moment_of_coerce? h
        · exact hw rfl
        · rw [coerce?_moment hu] at hx
          cases hx
      · exact hw (Option.some.inj ((coerce?_fixed hmoment h).symm.trans hx))
    rw [Places, coerceOrKeep, hx, Option.getD_some]
    exact .inr (orders_of_coerce? ht hx hnull)

theorem IsIdentity.places (h : t.IsIdentity id) : t.Places id := by
  rw [Places, h.coerceOrKeep_eq]
  cases h with
  | whole ht n hn => exact .inr (.whole ht n hn)
  | text s => exact .inr (.text rfl s)
  | uuid hs => exact .inr (.text rfl _)

theorem Places.compareAs_eq (ha : t.Places a) (hb : t.Places b) (hna : a ≠ .null) (hnb : b ≠ .null) :
    compareAs t a b =
      some (compareRanks (coerceOrKeep t a).rank (coerceOrKeep t b).rank) :=
  (ha.resolve_left hna).compare?_eq (hb.resolve_left hnb)

end FieldType

namespace SortOrder

variable {t : FieldType} {a b c : Json} {s : SortOrder} {m : Model}

theorem compareValues_of_ne_null (ha : a ≠ .null) (hb : b ≠ .null) :
    compareValues t a b = (compareAs t a b).getD .eq := by
  rw [compareValues, Json.isNull_eq_false_iff.mpr ha, Json.isNull_eq_false_iff.mpr hb]

theorem compareValues_null (ha : a ≠ .null) : compareValues t a .null = .lt := by
  rw [compareValues, Json.isNull_eq_false_iff.mpr ha]
  rfl

theorem null_compareValues (hb : b ≠ .null) : compareValues t .null b = .gt := by
  rw [compareValues, Json.isNull_eq_false_iff.mpr hb]
  rfl

theorem compareValues_of_compareAs {o : Ordering} (h : compareAs t a b = some o) :
    compareValues t a b = o := by
  have hnull (v : Json) : compareAs t v .null = none := by
    have hkeep : coerceOrKeep t .null = .null := by cases t <;> rfl
    rw [compareAs, hkeep, Json.compare?_null]
  have ha : a ≠ .null := by
    rintro rfl
    rw [compareAs_swap t b, hnull] at h
    cases h
  have hb : b ≠ .null := by
    rintro rfl
    rw [hnull] at h
    cases h
  rw [compareValues_of_ne_null ha hb, h, Option.getD_some]

theorem compareValues_swap (t : FieldType) (a b : Json) :
    compareValues t b a = (compareValues t a b).swap := by
  by_cases ha : a = .null
  · subst ha
    by_cases hb : b = .null
    · subst hb
      rfl
    · rw [compareValues_null hb, null_compareValues hb]
      rfl
  · by_cases hb : b = .null
    · subst hb
      rw [compareValues_null ha, null_compareValues ha]
      rfl
    · rw [compareValues_of_ne_null ha hb, compareValues_of_ne_null hb ha, compareAs_swap t a b]
      cases compareAs t a b <;> rfl

theorem compareValues_trans (ha : t.Places a) (hb : t.Places b) (hc : t.Places c)
    (hab : (compareValues t a b).isLE = true) (hbc : (compareValues t b c).isLE = true) :
    (compareValues t a c).isLE = true := by
  by_cases hnc : c = .null
  · subst hnc
    by_cases hna : a = .null
    · subst hna
      rfl
    · rw [compareValues_null hna]
      rfl
  -- null stands before nothing but null
  have hnb : b ≠ .null := by
    rintro rfl
    rw [null_compareValues hnc] at hbc
    cases hbc
  have hna : a ≠ .null := by
    rintro rfl
    rw [null_compareValues hnb] at hab
    cases hab
  rw [compareValues_of_ne_null hna hnb, ha.compareAs_eq hb hna hnb] at hab
  rw [compareValues_of_ne_null hnb hnc, hb.compareAs_eq hc hnb hnc] at hbc
  rw [compareValues_of_ne_null hna hnc, ha.compareAs_eq hc hna hnc]
  exact (inferInstance : Std.TransCmp compareRanks).isLE_trans hab hbc

theorem compare_swap (s : SortOrder) (a b : Json) : s.compare b a = (s.compare a b).swap := by
  unfold compare
  rw [compareValues_swap s.type (a.get s.field)]
  cases s.direction <;> rfl

theorem compare_ascending (hd : s.direction = .asc) (a b : Json) :
    s.compare a b = compareValues s.type (a.get s.field) (b.get s.field) := by
  rw [compare, hd]

theorem compare_descending (hd : s.direction = .desc) (a b : Json) :
    s.compare a b = (compareValues s.type (a.get s.field) (b.get s.field)).swap := by
  rw [compare, hd]

theorem compare_trans (ha : s.type.Places (a.get s.field)) (hb : s.type.Places (b.get s.field))
    (hc : s.type.Places (c.get s.field)) (hab : (s.compare a b).isLE = true)
    (hbc : (s.compare b c).isLE = true) : (s.compare a c).isLE = true := by
  cases hd : s.direction with
  | asc =>
    rw [compare_ascending hd] at hab hbc ⊢
    exact compareValues_trans ha hb hc hab hbc
  | desc =>
    rw [compare_descending hd, ← compareValues_swap] at hab hbc ⊢
    exact compareValues_trans hc hb ha hbc hab

/-- Values that have places on one scale are compared without contradiction. -/
theorem totalOn_of_places {rows : List Json} (h : ∀ x ∈ rows, s.type.Places (x.get s.field)) :
    s.TotalOn rows :=
  fun a ha b hb hab c hc hbc => compare_trans (h a ha) (h b hb) (h c hc) hab hbc

end SortOrder

def Model.Typed (m : Model) (record : Json) : Prop :=
  ∀ name type, m.fieldType? name = some type → ∃ raw, coerce? type raw = some (record.get name)

namespace Service

variable {m : Model} {request : PageRequest} {s : SortOrder} {field : String}

theorem fieldType?_of_sortOrder (h : sortOrder m request = .ok (some s)) :
    m.fieldType? s.field = some s.type := by
  unfold sortOrder at h
  split at h
  · cases h
  · split at h
    · cases h
    · next type htype =>
      obtain rfl := Option.some.inj (Except.ok.inj h)
      exact htype

theorem typed_of_json (hfield : m.fieldType? field = some .json) (v : Json) :
    m.Typed ((Json.obj []).set field v) := by
  intro name type htype
  by_cases hname : name = field
  · subst hname
    obtain rfl := Option.some.inj (hfield.symm.trans htype)
    refine ⟨v, ?_⟩
    rw [Json.get_set_self (Json.isObject_obj [])]
    cases v <;> rfl
  · refine ⟨.null, ?_⟩
    rw [Json.get_set_of_ne _ (Ne.symm hname)]
    cases type <;> rfl

/-- The comparator turns around with its arguments whatever they are, and it is transitive on the records
of a model just if the field that they are sorted by is not JSON. -/
theorem comparator_is_preorder_iff (hs : sortOrder m request = .ok (some s)) :
    (∀ a b, s.compare b a = (s.compare a b).swap) ∧
      ((∀ a b c, m.Typed a → m.Typed b → m.Typed c → (s.compare a b).isLE = true →
        (s.compare b c).isLE = true → (s.compare a c).isLE = true) ↔ s.type ≠ .json) := by
  have hfield := fieldType?_of_sortOrder hs
  refine ⟨s.compare_swap, fun htrans hjson => ?_, fun hjson a b c ha hb hc => ?_⟩
  · -- a text between two numbers is equal to both of them, in whatever order they come
    have hget (v : Json) : ((Json.obj []).set s.field v).get s.field = v :=
      Json.get_set_self (Json.isObject_obj []) _ _
    have htyped := typed_of_json (hjson ▸ hfield)
    have h (first last : Json) := htrans _ _ _ (htyped first) (htyped (.str "a")) (htyped last)
    cases hd : s.direction with
    | asc =>
      simp only [SortOrder.compare_ascending hd, hget, hjson] at h
      exact absurd (h (.ofNat 2) (.ofNat 1) (by decide +kernel) (by decide +kernel)) (by decide +kernel)
    | desc =>
      simp only [SortOrder.compare_descending hd, hget, hjson] at h
      exact absurd (h (.ofNat 1) (.ofNat 2) (by decide +kernel) (by decide +kernel)) (by decide +kernel)
  · have hplaces {record : Json} (h : m.Typed record) : s.type.Places (record.get s.field) := by
      obtain ⟨raw, hraw⟩ := h _ _ hfield
      exact FieldType.places_of_coerce? hjson hraw
    exact SortOrder.compare_trans (hplaces ha) (hplaces hb) (hplaces hc)

end Service

namespace Notebook

/-- Notes, each with a title and with data of any kind. -/
def note : Model :=
  ⟨"Note", "notes", true, "id", .long, true, [⟨"title", .string⟩, ⟨"data", .json⟩], [], []⟩

def definitions : List ModelDefinition :=
  [⟨"Note", "notes", true, .standard, [⟨"title", .string⟩, ⟨"data", .json⟩], [], []⟩]

def noteOf (n : Nat) (data : Json) : Json :=
  .ofPairs [("data", data), ("id", .ofNat n), ("title", .null)]

def tables : Tables :=
  Tables.empty.set "notes" (((Table.empty.put (.int 1) (noteOf 1 (.ofNat 2))).put
    (.int 2) (noteOf 2 (.str "a"))).put (.int 3) (noteOf 3 (.ofNat 1)))

theorem typed_note {record : Json} (hid : ∃ raw, coerce? .long raw = some (record.get "id"))
    (htitle : ∃ raw, coerce? .string raw = some (record.get "title")) : note.Typed record := by
  intro name type htype
  unfold Model.fieldType? at htype
  split at htype
  · next hname =>
    obtain rfl := Option.some.inj htype
    exact hname ▸ hid
  · obtain ⟨a, ha, rfl⟩ := Option.map_eq_some_iff.mp htype
    obtain rfl : a.name = name := by simpa using List.find?_some ha
    rcases List.mem_cons.mp (List.mem_of_find?_eq_some ha) with rfl | ha
    · exact htitle
    · obtain rfl := List.mem_singleton.mp ha
      exact ⟨record.get "data", by cases record.get "data" <;> rfl⟩

def byTitle : SortOrder :=
  ⟨"title", .string, false, .desc⟩

def byData : SortOrder :=
  ⟨"data", .json, false, .asc⟩

end Notebook

namespace Service

open Notebook

/-- Notes may be sorted by their titles, also those that have none. -/
theorem titles_are_preordered :
    sortOrder note ⟨none, 20, some " title", .desc⟩ = .ok (some byTitle) ∧
      ∀ a b c, note.Typed a → note.Typed b → note.Typed c → (byTitle.compare a b).isLE = true →
        (byTitle.compare b c).isLE = true → (byTitle.compare a c).isLE = true :=
  have hs : sortOrder note ⟨none, 20, some " title", .desc⟩ = .ok (some byTitle) := by rfl
  ⟨hs, (comparator_is_preorder_iff hs).2.mpr nofun⟩

/-- Sorting by data is accepted as well, but there the note with the larger number does not come after the
text, nor that after the note with the smaller number, and so the notes stay as they are. -/
theorem numbers_around_text_stay :
    Registry.ofDefinitions definitions = .ok ⟨[note], by decide +kernel⟩ ∧
      sortOrder note ⟨none, 20, some "data", .asc⟩ = .ok (some byData) ∧
      (note.Typed (noteOf 1 (.ofNat 2)) ∧ note.Typed (noteOf 2 (.str "a")) ∧
        note.Typed (noteOf 3 (.ofNat 1))) ∧
      (byData.compare (noteOf 1 (.ofNat 2)) (noteOf 2 (.str "a"))).isLE = true ∧
      (byData.compare (noteOf 2 (.str "a")) (noteOf 3 (.ofNat 1))).isLE = true ∧
      (byData.compare (noteOf 1 (.ofNat 2)) (noteOf 3 (.ofNat 1))).isLE = false ∧
      tables.query note none (some byData) .all =
        .ok [noteOf 1 (.ofNat 2), noteOf 2 (.str "a"), noteOf 3 (.ofNat 1)] :=
  ⟨by rfl, by rfl, ⟨typed_note ⟨.ofNat 1, rfl⟩ ⟨.null, rfl⟩, typed_note ⟨.ofNat 2, rfl⟩ ⟨.null, rfl⟩,
      typed_note ⟨.ofNat 3, rfl⟩ ⟨.null, rfl⟩⟩,
    by decide +kernel, by decide +kernel, by decide +kernel, by rfl⟩

end Service

end EntityGraph
