import EntityGraph.Model.Basic
import Mathlib.Data.List.Nodup
import Mathlib.Data.List.Sort

namespace EntityGraph

namespace OrderedMap

variable {κ α : Type} [DecidableEq κ] [LT κ] [DecidableLT κ]

theorem get?_foldl_insert {pairs : List (κ × α)} (h : (pairs.map Prod.fst).Nodup)
    (m : List (κ × α)) (key : κ) (value : α) :
    get? (pairs.foldl (fun m p => insert m p.1 p.2) m) key = some value ↔
      (key, value) ∈ pairs ∨ key ∉ pairs.map Prod.fst ∧ get? m key = some value := by
  induction pairs generalizing m with
  | nil => simp
  | cons p rest ih =>
    obtain ⟨k, v⟩ := p
    obtain ⟨hk, hrest⟩ := List.nodup_cons.mp h
    rw [List.foldl_cons, ih hrest]
    by_cases he : k = key
    · subst he
      have hnot : ∀ w, (k, w) ∉ rest := fun w hw => hk (List.mem_map.mpr ⟨_, hw, rfl⟩)
      simp only [get?_insert_self, List.mem_cons, Prod.mk.injEq, true_and, List.map_cons, hnot,
        false_or, or_false, not_or, Option.some.injEq, not_true_eq_false, false_and]
      exact ⟨fun h => h.2.symm, fun h => ⟨hk, h.symm⟩⟩
    · rw [get?_insert_of_ne _ he]
      simp [Ne.symm he]

theorem get?_ofPairs {pairs : List (κ × α)} (h : (pairs.map Prod.fst).Nodup) (key : κ)
    (value : α) : get? (ofPairs pairs) key = some value ↔ (key, value) ∈ pairs := by
  simp [ofPairs, get?_foldl_insert h, get?]

theorem ofPairs_eq_nil {pairs : List (κ × α)} (h : ofPairs pairs = []) : pairs = [] := by
  have hinsert (m : List (κ × α)) (p : κ × α) : insert m p.1 p.2 ≠ [] := by
    intro hnil
    have hget := get?_insert_self m p.1 p.2
    rw [hnil] at hget
    cases hget
  have hfold (rest m : List (κ × α)) (hm : m ≠ []) :
      rest.foldl (fun m p => insert m p.1 p.2) m ≠ [] := by
    induction rest generalizing m with
    | nil => exact hm
    | cons p rest ih => exact ih _ (hinsert m p)
  cases pairs with
  | nil => rfl
  | cons p rest => exact absurd h (hfold rest _ (hinsert [] p))

theorem mem_foldl_insert {pairs m : List (κ × α)}
    {p : κ × α} (h : p ∈ pairs.foldl (fun m p => insert m p.1 p.2) m) : p ∈ m ∨ p ∈ pairs := by
  induction pairs generalizing m with
  | nil => exact .inl h
  | cons q rest ih =>
    rcases ih h with h | h
    · exact (mem_insert h).elim (fun h => .inr (h ▸ List.mem_cons_self)) .inl
    · exact .inr (List.mem_cons_of_mem _ h)

theorem mem_of_mem_ofPairs {pairs : List (κ × α)} {p : κ × α} (h : p ∈ ofPairs pairs) :
    p ∈ pairs :=
  (mem_foldl_insert h).resolve_left List.not_mem_nil

omit [LT κ] [DecidableLT κ] in
theorem mem_of_get? {m : List (κ × α)} {key : κ} {value : α} (h : get? m key = some value) :
    (key, value) ∈ m := by
  induction m with
  | nil => cases h
  | cons p rest ih =>
    obtain ⟨k, v⟩ := p
    unfold get? at h
    split at h
    · next hk => exact hk ▸ Option.some.inj h ▸ List.mem_cons_self
    · exact List.mem_cons_of_mem _ (ih h)

omit [LT κ] [DecidableLT κ] in
theorem get?_eq_some_iff_of_nodup {m : List (κ × α)} (h : (m.map Prod.fst).Nodup) {key : κ}
    {value : α} : get? m key = some value ↔ (key, value) ∈ m := by
  refine ⟨mem_of_get?, fun hm => ?_⟩
  induction m with
  | nil => cases hm
  | cons p rest ih =>
    obtain ⟨k, v⟩ := p
    obtain ⟨hk, hrest⟩ := List.nodup_cons.mp h
    unfold get?
    rcases List.mem_cons.mp hm with hm | hm
    · obtain ⟨rfl, rfl⟩ := Prod.mk.inj hm
      exact if_pos rfl
    · rw [if_neg fun he : k = key => hk (List.mem_map.mpr ⟨_, hm, he.symm⟩)]
      exact ih hrest hm

variable [KeyOrder κ]

theorem ascending_ofPairs (pairs : List (κ × α)) : Ascending (ofPairs pairs) := by
  have hfold (m : List (κ × α)) (h : Ascending m) :
      Ascending (pairs.foldl (fun m p => insert m p.1 p.2) m) := by
    induction pairs generalizing m with
    | nil => exact h
    | cons p rest ih => exact ih _ (h.insert p.1 p.2)
  exact hfold [] .nil

omit [DecidableEq κ] [DecidableLT κ] in
theorem nodup_keys {m : List (κ × α)} (h : Ascending m) : (m.map Prod.fst).Nodup := by
  refine List.pairwise_map.mpr (h.imp fun {p q} hpq he => ?_)
  rw [he] at hpq
  exact KeyOrder.irrefl q.1 hpq

omit [DecidableLT κ] in
theorem get?_eq_some_iff {m : List (κ × α)} (h : Ascending m) {key : κ} {value : α} :
    get? m key = some value ↔ (key, value) ∈ m :=
  get?_eq_some_iff_of_nodup (nodup_keys h)

omit [DecidableLT κ] in
theorem ext {m m' : List (κ × α)} (h : Ascending m) (h' : Ascending m')
    (hsame : ∀ key, get? m key = get? m' key) : m = m' := by
  have hmem (p : κ × α) : p ∈ m ↔ p ∈ m' := by
    rw [← get?_eq_some_iff h, ← get?_eq_some_iff h', hsame]
  have hperm := (List.perm_ext_iff_of_nodup (.of_map _ (nodup_keys h))
    (.of_map _ (nodup_keys h'))).mpr hmem
  refine hperm.eq_of_pairwise (fun p q _ _ hpq hqp => ?_) h h'
  exact absurd (KeyOrder.trans hpq hqp) (KeyOrder.irrefl p.1)

theorem ofPairs_eq_self {m : List (κ × α)} (h : Ascending m) : ofPairs m = m := by
  refine ext (ascending_ofPairs m) h fun key => Option.ext fun value => ?_
  rw [get?_ofPairs (nodup_keys h), get?_eq_some_iff h]

theorem ofPairs_perm {pairs : List (κ × α)} (h : (pairs.map Prod.fst).Nodup) :
    (ofPairs pairs).Perm pairs := by
  have hascending := ascending_ofPairs pairs
  refine (List.perm_ext_iff_of_nodup (.of_map _ (nodup_keys hascending)) (.of_map _ h)).mpr fun p => ?_
  rw [← get?_eq_some_iff hascending, get?_ofPairs h]

theorem insert_of_get? {m : List (κ × α)} (hm : Ascending m) {key : κ} {value : α}
    (h : get? m key = some value) : insert m key value = m := by
  induction m with
  | nil => cases h
  | cons p rest ih =>
    obtain ⟨k, v⟩ := p
    obtain ⟨hhead, hrest⟩ := List.pairwise_cons.mp hm
    unfold get? at h
    unfold insert
    split at h
    · next hk =>
      rw [if_pos hk, hk, Option.some.inj h]
    · next hk =>
      have hlt : k < key := hhead _ (mem_of_get? h)
      rw [if_neg hk, if_neg fun hgt => KeyOrder.irrefl k (KeyOrder.trans hlt hgt), ih hrest h]

theorem insert_insert_self (m : List (κ × α)) (key : κ) (first second : α) :
    insert (insert m key first) key second = insert m key second := by
  have hirrefl : ¬key < key := KeyOrder.irrefl key
  induction m with
  | nil => simp [insert]
  | cons p rest ih =>
    obtain ⟨k, v⟩ := p
    by_cases hk : k = key
    · simp [insert, hk]
    · by_cases hlt : key < k <;> simp [insert, hk, hlt, ih]

theorem insert_comm_of_lt (m : List (κ × α)) {key other : κ} (hlt : key < other) (v w : α) :
    insert (insert m key v) other w = insert (insert m other w) key v := by
  have hgt : ¬other < key := fun hgt => KeyOrder.irrefl key (KeyOrder.trans hlt hgt)
  have hne : key ≠ other := fun he => KeyOrder.irrefl key (he ▸ hlt)
  induction m with
  | nil => simp [insert, hne, hne.symm, hlt, hgt]
  | cons p rest ih =>
    obtain ⟨k, x⟩ := p
    by_cases hk : k = key
    · subst hk
      simp [insert, hne, hgt]
    by_cases hbefore : key < k
    · -- the first value goes to the front, where the second one passes it
      by_cases ho : k = other
      · subst ho
        simp [insert, hne, hk, hbefore, hgt]
      · by_cases hok : other < k <;> simp [insert, hne, hne.symm, hk, ho, hbefore, hgt, hlt, hok]
    · have hkey : k < key := KeyOrder.connected (Ne.symm hk) hbefore
      have ho : k ≠ other := fun he => hgt (he ▸ hkey)
      have hok : ¬other < k := fun hok => hgt (KeyOrder.trans hok hkey)
      simp [insert, hk, hbefore, ho, hok, ih]

theorem insert_comm (m : List (κ × α)) {key other : κ} (h : key ≠ other) (v w : α) :
    insert (insert m key v) other w = insert (insert m other w) key v := by
  by_cases hlt : key < other
  · exact insert_comm_of_lt m hlt v w
  · exact (insert_comm_of_lt m (KeyOrder.connected h hlt) w v).symm

end OrderedMap

namespace Json

def IsObject (v : Json) : Prop :=
  ∃ members, v = .obj members

theorem isObject_obj (members : List (String × Json)) : (Json.obj members).IsObject :=
  ⟨members, rfl⟩

theorem isObject_ofPairs (pairs : List (String × Json)) : (Json.ofPairs pairs).IsObject :=
  ⟨_, rfl⟩

theorem isObject_of_get? {v x : Json} {key : String} (h : v.get? key = some x) : v.IsObject := by
  cases v with
  | obj members => exact ⟨members, rfl⟩
  | _ => cases h

theorem IsObject.set {v : Json} (h : v.IsObject) (key : String) (x : Json) :
    (v.set key x).IsObject := by
  obtain ⟨members, rfl⟩ := h
  exact ⟨_, rfl⟩

theorem get?_set_self {v : Json} (h : v.IsObject) (key : String) (x : Json) :
    (v.set key x).get? key = some x := by
  obtain ⟨members, rfl⟩ := h
  exact OrderedMap.get?_insert_self _ _ _

theorem get?_set_of_ne (v : Json) {key other : String} (h : key ≠ other) (x : Json) :
    (v.set key x).get? other = v.get? other := by
  cases v with
  | obj members => exact OrderedMap.get?_insert_of_ne _ h _
  | _ => rfl

theorem set_set_self (v : Json) (key : String) (x y : Json) : (v.set key x).set key y = v.set key y := by
  cases v with
  | obj members => exact congrArg obj (OrderedMap.insert_insert_self members key x y)
  | _ => rfl

theorem set_comm (v : Json) {key other : String} (h : key ≠ other) (x y : Json) :
    (v.set key x).set other y = (v.set other y).set key x := by
  cases v with
  | obj members => exact congrArg obj (OrderedMap.insert_comm members h x y)
  | _ => rfl

theorem get_set_self {v : Json} (h : v.IsObject) (key : String) (x : Json) :
    (v.set key x).get key = x := by
  rw [get, get?_set_self h, Option.getD_some]

theorem get_set_of_ne (v : Json) {key other : String} (h : key ≠ other) (x : Json) :
    (v.set key x).get other = v.get other := by
  rw [get, get?_set_of_ne v h, ← get]

theorem get_of_get? {v x : Json} {key : String} (h : v.get? key = some x) : v.get key = x := by
  rw [get, h, Option.getD_some]

theorem get_of_get?_none {v : Json} {key : String} (h : v.get? key = none) : v.get key = .null := by
  rw [get, h, Option.getD_none]

theorem get?_of_get {v x : Json} {key : String} (h : v.get key = x) (hx : x ≠ .null) :
    v.get? key = some x := by
  cases hget : v.get? key with
  | none => exact absurd (h.symm.trans (get_of_get?_none hget)) hx
  | some y => rw [← h, get_of_get? hget]

theorem get?_ofPairs {pairs : List (String × Json)} (h : (pairs.map Prod.fst).Nodup)
    (key : String) (x : Json) : (ofPairs pairs).get? key = some x ↔ (key, x) ∈ pairs :=
  OrderedMap.get?_ofPairs h key x

theorem mem_of_get?_ofPairs {pairs : List (String × Json)} {key : String} {x : Json}
    (h : (ofPairs pairs).get? key = some x) : (key, x) ∈ pairs :=
  OrderedMap.mem_of_mem_ofPairs (OrderedMap.mem_of_get? h)

theorem set_ofPairs_of_get? {pairs : List (String × Json)} {key : String} {x : Json}
    (h : (ofPairs pairs).get? key = some x) : (ofPairs pairs).set key x = ofPairs pairs :=
  congrArg obj (OrderedMap.insert_of_get? (OrderedMap.ascending_ofPairs pairs) h)

theorem isNull_eq_false_iff {v : Json} : v.isNull = false ↔ v ≠ .null := by
  cases v <;> simp [isNull]

theorem present?_eq_some_iff {v x : Json} {key : String} :
    v.present? key = some x ↔ v.get? key = some x ∧ x ≠ .null := by
  simp [present?, Option.filter_eq_some_iff, isNull_eq_false_iff]

theorem present?_set_of_ne (v : Json) {key other : String} (h : key ≠ other) (x : Json) :
    (v.set key x).present? other = v.present? other := by
  rw [present?, get?_set_of_ne v h, ← present?]

end Json

namespace Model

variable {m : Model}

theorem identityOf_eq_some_iff {v id : Json} :
    m.identityOf v = some id ↔ v.get? m.identity = some id ∧ id ≠ .null :=
  Json.present?_eq_some_iff

theorem identityOf_set_of_ne (v : Json) {key : String} (h : key ≠ m.identity) (x : Json) :
    m.identityOf (v.set key x) = m.identityOf v :=
  Json.present?_set_of_ne v h x

theorem identityOf_congr {v w : Json} (h : v.get? m.identity = w.get? m.identity) :
    m.identityOf v = m.identityOf w := by
  rw [identityOf, Json.present?, h]
  rfl

theorem identityOf_stub {id : Json} (h : id ≠ .null) : m.identityOf (m.stub id) = some id := by
  rw [identityOf_eq_some_iff]
  exact ⟨by simp [stub, Json.get?_ofPairs], h⟩

end Model

end EntityGraph
