import EntityGraph.Entity.Reference
import EntityGraph.Proofs.Identity.Form

namespace EntityGraph

section Distinct

variable {α : Type} {same : α → α → Bool} {acc xs : List α} {x : α}

theorem mem_insertNew {y : α} (h : y ∈ insertNew same acc x) : y ∈ acc ∨ y = x := by
  unfold insertNew at h
  split at h
  · exact .inl h
  · simpa using h

theorem prefix_insertNew (same : α → α → Bool) (acc : List α) (x : α) :
    acc <+: insertNew same acc x := by
  unfold insertNew
  split
  · exact List.prefix_refl _
  · exact List.prefix_append _ _

theorem exists_same_insertNew (acc : List α) (h : same x x = true) :
    ∃ y ∈ insertNew same acc x, same y x = true := by
  unfold insertNew
  split
  · next ha => exact List.any_eq_true.mp ha
  · exact ⟨x, by simp, h⟩

theorem insertNew_insertNew (acc : List α) (h : same x x = true) :
    insertNew same (insertNew same acc x) x = insertNew same acc x :=
  if_pos (List.any_eq_true.mpr (exists_same_insertNew acc h))

theorem pairwise_insertNew (h : acc.Pairwise fun a b => same a b = false) :
    (insertNew same acc x).Pairwise fun a b => same a b = false := by
  unfold insertNew
  split
  · exact h
  · next ha =>
    refine List.pairwise_append.mpr ⟨h, List.pairwise_singleton _ _, fun a hm b hb => ?_⟩
    rw [List.mem_singleton.mp hb, ← Bool.not_eq_true]
    exact fun hs => ha (List.any_eq_true.mpr ⟨a, hm, hs⟩)

theorem mem_foldl_insertNew (h : x ∈ xs.foldl (insertNew same) acc) : x ∈ acc ∨ x ∈ xs := by
  induction xs generalizing acc with
  | nil => exact .inl h
  | cons y rest ih =>
    rcases ih h with h | h
    · rcases mem_insertNew h with h | rfl
      · exact .inl h
      · exact .inr List.mem_cons_self
    · exact .inr (List.mem_cons_of_mem _ h)

theorem prefix_foldl_insertNew (same : α → α → Bool) (xs acc : List α) :
    acc <+: xs.foldl (insertNew same) acc := by
  induction xs generalizing acc with
  | nil => exact List.prefix_refl _
  | cons y rest ih => exact (prefix_insertNew same acc y).trans (ih _)

theorem pairwise_foldl_insertNew (h : acc.Pairwise fun a b => same a b = false) :
    (xs.foldl (insertNew same) acc).Pairwise fun a b => same a b = false := by
  induction xs generalizing acc with
  | nil => exact h
  | cons y rest ih => exact ih (pairwise_insertNew h)

theorem mem_of_mem_distinctBy (h : x ∈ distinctBy same xs) : x ∈ xs :=
  (mem_foldl_insertNew h).resolve_left List.not_mem_nil

theorem exists_same_distinctBy (h : x ∈ xs) (hx : same x x = true) :
    ∃ y ∈ distinctBy same xs, same y x = true := by
  obtain ⟨before, after, rfl⟩ := List.append_of_mem h
  rw [distinctBy, List.foldl_append, List.foldl_cons]
  obtain ⟨y, hy, hs⟩ := exists_same_insertNew (before.foldl (insertNew same) []) hx
  exact ⟨y, (prefix_foldl_insertNew same after _).subset hy, hs⟩

theorem pairwise_distinctBy (same : α → α → Bool) (xs : List α) :
    (distinctBy same xs).Pairwise fun a b => same a b = false :=
  pairwise_foldl_insertNew .nil

theorem mem_distinctBy_iff (h : ∀ a ∈ xs, ∀ b ∈ xs, same a b = true ↔ a = b) :
    x ∈ distinctBy same xs ↔ x ∈ xs := by
  refine ⟨mem_of_mem_distinctBy, fun hx => ?_⟩
  obtain ⟨y, hy, hs⟩ := exists_same_distinctBy hx ((h x hx x hx).mpr rfl)
  rwa [← (h y (mem_of_mem_distinctBy hy) x hx).mp hs]

theorem nodup_distinctBy (h : ∀ a ∈ xs, same a a = true) : (distinctBy same xs).Nodup := by
  refine (pairwise_distinctBy same xs).imp_of_mem fun {a b} ha _ hab he => ?_
  rw [← he, h a (mem_of_mem_distinctBy ha)] at hab
  cases hab

theorem head?_distinctBy (same : α → α → Bool) (xs : List α) :
    (distinctBy same xs).head? = xs.head? := by
  cases xs with
  | nil => rfl
  | cons x rest =>
    obtain ⟨more, hmore⟩ := prefix_foldl_insertNew same rest [x]
    rw [distinctBy, List.foldl_cons, show insertNew same [] x = [x] from rfl, ← hmore]
    rfl

theorem foldl_insertNew_of_pairwise (h : (acc ++ xs).Pairwise fun a b => same a b = false) :
    xs.foldl (insertNew same) acc = acc ++ xs := by
  induction xs generalizing acc with
  | nil => rw [List.foldl_nil, List.append_nil]
  | cons x rest ih =>
    have hnew : insertNew same acc x = acc ++ [x] := by
      refine if_neg fun hany => ?_
      obtain ⟨a, ha, hs⟩ := List.any_eq_true.mp hany
      rw [(List.pairwise_append.mp h).2.2 a ha x List.mem_cons_self] at hs
      cases hs
    rw [List.append_cons] at h ⊢
    rw [List.foldl_cons, hnew, ih h]

theorem distinctBy_distinctBy (same : α → α → Bool) (xs : List α) :
    distinctBy same (distinctBy same xs) = distinctBy same xs :=
  foldl_insertNew_of_pairwise
    (show ([] ++ distinctBy same xs).Pairwise _ from pairwise_distinctBy same xs)

theorem filterMap_distinctBy {β : Type} {same' : β → β → Bool} {f : α → Option β}
    (hf : ∀ a ∈ xs, ∃ b, f a = some b)
    (hsame : ∀ a ∈ xs, ∀ b ∈ xs, ∀ y z, f a = some y → f b = some z → same a b = same' y z) :
    (distinctBy same xs).filterMap f = distinctBy same' (xs.filterMap f) := by
  have hfold (rest acc : List α) (hrest : rest ⊆ xs) (hacc : acc ⊆ xs) :
      (rest.foldl (insertNew same) acc).filterMap f =
        (rest.filterMap f).foldl (insertNew same') (acc.filterMap f) := by
    induction rest generalizing acc with
    | nil => rfl
    | cons x rest ih =>
      obtain ⟨hx, hrest⟩ := List.cons_subset.mp hrest
      obtain ⟨z, hz⟩ := hf x hx
      have hany : (acc.filterMap f).any (same' · z) = acc.any (same · x) := by
        rw [Bool.eq_iff_iff, List.any_eq_true, List.any_eq_true]
        simp only [List.mem_filterMap]
        constructor
        · rintro ⟨y, ⟨a, ha, hy⟩, hs⟩
          exact ⟨a, ha, (hsame a (hacc ha) x hx y z hy hz).trans hs⟩
        · rintro ⟨a, ha, hs⟩
          obtain ⟨y, hy⟩ := hf a (hacc ha)
          exact ⟨y, ⟨a, ha, hy⟩, (hsame a (hacc ha) x hx y z hy hz).symm.trans hs⟩
      have hinsert : (insertNew same acc x).filterMap f = insertNew same' (acc.filterMap f) z := by
        unfold insertNew
        rw [hany]
        split
        · rfl
        · rw [List.filterMap_append, List.filterMap_cons_some hz, List.filterMap_nil]
      have hnext : insertNew same acc x ⊆ xs := fun a ha =>
        (mem_insertNew ha).elim (fun h => hacc h) fun h => h ▸ hx
      rw [List.foldl_cons, ih _ hrest hnext, hinsert, List.filterMap_cons_some hz, List.foldl_cons]
  exact hfold xs [] (List.Subset.refl _) (List.nil_subset _)

end Distinct

namespace Json

def references : Json → List Json
  | .arr ids => ids
  | .null => []
  | id => [id]

@[simp]
theorem references_arr (ids : List Json) : (arr ids).references = ids :=
  rfl

@[simp]
theorem references_null : null.references = [] :=
  rfl

@[simp]
theorem items_arr (xs : List Json) : (arr xs).items = xs :=
  rfl

@[simp]
theorem items_null : null.items = [] :=
  rfl

/-- The record after its field has been made to refer to an identity. -/
def linked (record : Json) (field : String) (id : Json) (many : Bool) : Json :=
  (record.setReference field id many).getD record

def unlinked (record : Json) (field : String) (id : Json) (many : Bool) : Json :=
  (record.clearReference field id many).getD record

end Json

/-- What can stand in the slot of a relation to a model. A slot that is absent reads as null. -/
inductive Model.FitsSlot (target : Model) : Bool → Json → Prop
  | absent (many : Bool) : FitsSlot target many .null
  | one {id : Json} (h : target.IsIdentity id) : FitsSlot target false id
  | list {ids : List Json} (hn : ids.Nodup) (h : ∀ x ∈ ids, target.IsIdentity x) :
      FitsSlot target true (.arr ids)

namespace FieldType.IsIdentity

variable {t : FieldType} {a : Json}

theorem references_eq (h : t.IsIdentity a) : a.references = [a] := by
  cases h <;> rfl

theorem not_sameIdentity_null (a : Json) : Json.sameIdentity .null a = false := by
  cases a <;> rfl

theorem not_sameIdentity_of_null (h : t.IsIdentity a) : a.sameIdentity .null = false := by
  cases h <;> rfl

theorem any_sameIdentity_iff {ids : List Json} (h : t.IsIdentity a)
    (hids : ∀ x ∈ ids, t.IsIdentity x) : ids.any (·.sameIdentity a) = true ↔ a ∈ ids := by
  rw [List.any_eq_true]
  constructor
  · rintro ⟨x, hx, hs⟩
    rwa [← ((hids x hx).sameIdentity_iff h).mp hs]
  · exact fun hm => ⟨a, hm, h.sameIdentity_self⟩

end FieldType.IsIdentity

namespace Json

/-- A slot without one identity: a single one gives way to null, and a list loses it and keeps the order
of the others. -/
def without (slot id : Json) : Json :=
  match slot with
  | .arr ids => .arr (ids.filter fun x => !x.sameIdentity id)
  | x => if x.sameIdentity id then .null else x

theorem without_null (id : Json) : null.without id = null :=
  ite_self (c := null.sameIdentity id = true) null

theorem without_without (slot id : Json) : (slot.without id).without id = slot.without id := by
  have hnull : null.without id = null := without_null id
  have hsingle (x : Json) (hx : x.without id = if x.sameIdentity id then .null else x) :
      (x.without id).without id = x.without id := by
    by_cases hs : x.sameIdentity id = true
    · rw [hx, if_pos hs, hnull]
    · rw [hx, if_neg hs, hx, if_neg hs]
  cases slot with
  | arr ids => rw [without, without, List.filter_filter]; simp only [Bool.and_self]
  | _ => exact hsingle _ rfl

end Json

theorem FieldType.IsIdentity.without_eq {t : FieldType} {x : Json} (h : t.IsIdentity x) (id : Json) :
    x.without id = if x.sameIdentity id then .null else x := by
  cases h <;> rfl

namespace Model.FitsSlot

variable {target : Model} {many : Bool} {slot id x : Json}

theorem isIdentity (h : target.FitsSlot many slot) (hx : x ∈ slot.references) :
    target.IsIdentity x := by
  cases h with
  | absent => exact absurd hx List.not_mem_nil
  | one h =>
    rw [h.references_eq, List.mem_singleton] at hx
    rwa [hx]
  | list _ h => exact h x hx

theorem nodup (h : target.FitsSlot many slot) : slot.references.Nodup := by
  cases h with
  | absent => exact List.nodup_nil
  | one h => simp [h.references_eq]
  | list hn _ => exact hn

theorem mem_references (h : target.FitsSlot false slot) (hnull : slot ≠ .null) :
    slot ∈ slot.references := by
  cases h with
  | absent => exact absurd rfl hnull
  | one h => rw [h.references_eq]; exact List.mem_singleton_self slot

theorem eq_of_mem (h : target.FitsSlot false slot) (hx : x ∈ slot.references)
    (hid : id ∈ slot.references) : x = id := by
  cases h with
  | absent => exact absurd hx List.not_mem_nil
  | one h =>
    rw [h.references_eq, List.mem_singleton] at hx hid
    rw [hx, hid]

theorem sameIdentity_eq_false {other : Json} (h : target.FitsSlot false slot)
    (ho : target.FitsSlot false other) (hne : slot ≠ other) : slot.sameIdentity other = false := by
  cases h with
  | absent => exact FieldType.IsIdentity.not_sameIdentity_null other
  | one h =>
    cases ho with
    | absent => exact h.not_sameIdentity_of_null
    | one ho => rwa [← Bool.not_eq_true, h.sameIdentity_iff ho]

theorem without (h : target.FitsSlot many slot) (id : Json) :
    target.FitsSlot many (slot.without id) ∧
      (slot.without id).references = slot.references.filter fun x => !x.sameIdentity id := by
  cases h with
  | absent =>
    rw [Json.without_null]
    exact ⟨.absent _, rfl⟩
  | one h =>
    rw [h.without_eq, h.references_eq]
    split
    · next hsame => exact ⟨.absent _, by simp [hsame]⟩
    · next hsame => exact ⟨.one h, by simp [h.references_eq, hsame]⟩
  | list hn h => exact ⟨.list (hn.filter _) fun x hx => h x (List.mem_filter.mp hx).1, rfl⟩

end Model.FitsSlot

namespace Json

variable {target : Model} {many : Bool} {record id x : Json} {field other : String}

theorem linked_of_setReference {changed : Json} (h : record.setReference field id many = some changed) :
    record.linked field id many = changed := by
  rw [linked, h, Option.getD_some]

/-- Once a reference has been set there is nothing left to set. -/
theorem setReference_setReference {record changed id : Json} {field : String} {many : Bool}
    (hid : id.sameIdentity id = true) (h : record.setReference field id many = some changed) :
    changed.setReference field id many = none := by
  cases record with
  | obj members =>
    have hself (x : Json) : ((obj members).set field x).get field = x :=
      get_set_self (isObject_obj members) field x
    obtain ⟨written, rfl, hget⟩ : ∃ written, changed = .obj written ∧
        changed.get field = if many then .arr (((obj members).get field).items ++ [id]) else id := by
      unfold setReference at h
      dsimp only at h
      split at h <;> split at h
      · cases h
      · next hmany _ =>
        obtain rfl := Option.some.inj h
        exact ⟨_, rfl, by rw [hself, if_pos hmany]⟩
      · cases h
      · next hmany _ =>
        obtain rfl := Option.some.inj h
        exact ⟨_, rfl, by rw [hself, if_neg hmany]⟩
    unfold setReference
    dsimp only
    rw [hget]
    cases many with
    | false => rw [if_neg Bool.false_ne_true, if_neg Bool.false_ne_true, if_pos hid]
    | true =>
      rw [if_pos rfl, if_pos rfl, items_arr, if_pos]
      rw [List.any_append, List.any_cons, hid, Bool.true_or, Bool.or_true]
  | _ => cases h

theorem unlinked_of_clearReference {changed : Json}
    (h : record.clearReference field id many = some changed) :
    record.unlinked field id many = changed := by
  rw [unlinked, h, Option.getD_some]

theorem linked_eq (h : record.IsObject) : record.linked field id many =
    if many then
      if (record.get field).items.any (·.sameIdentity id) then record
      else record.set field (.arr ((record.get field).items ++ [id]))
    else if (record.get field).sameIdentity id then record else record.set field id := by
  obtain ⟨members, rfl⟩ := h
  simp only [linked, setReference, apply_ite (Option.getD · (obj members)), Option.getD_none,
    Option.getD_some]

theorem unlinked_eq (record : Json) (field : String) (id : Json) (many : Bool) :
    record.unlinked field id many =
      if many then
        if (record.get field).items.any (·.sameIdentity id) then
          record.set field (.arr ((record.get field).items.filter fun x => !x.sameIdentity id))
        else record
      else if (record.get field).sameIdentity id then record.set field .null else record := by
  simp only [unlinked, clearReference, apply_ite (Option.getD · record), Option.getD_none,
    Option.getD_some]

theorem linked_eq_or_set (h : record.IsObject) (field : String) (id : Json) (many : Bool) :
    record.linked field id many = record ∨ ∃ v, record.linked field id many = record.set field v := by
  rw [linked_eq h]
  split <;> split
  · exact .inl rfl
  · exact .inr ⟨_, rfl⟩
  · exact .inl rfl
  · exact .inr ⟨_, rfl⟩

theorem unlinked_eq_or_set (record : Json) (field : String) (id : Json) (many : Bool) :
    record.unlinked field id many = record ∨
      ∃ v, record.unlinked field id many = record.set field v := by
  rw [unlinked_eq]
  split <;> split
  · exact .inr ⟨_, rfl⟩
  · exact .inl rfl
  · exact .inr ⟨_, rfl⟩
  · exact .inl rfl

theorem IsObject.linked (h : record.IsObject) : (record.linked field id many).IsObject := by
  rcases linked_eq_or_set h field id many with he | ⟨v, he⟩
  · rwa [he]
  · rw [he]
    exact h.set field v

theorem IsObject.unlinked (h : record.IsObject) : (record.unlinked field id many).IsObject := by
  rcases unlinked_eq_or_set record field id many with he | ⟨v, he⟩
  · rwa [he]
  · rw [he]
    exact h.set field v

theorem get?_linked_of_ne (h : record.IsObject) (hne : field ≠ other) :
    (record.linked field id many).get? other = record.get? other := by
  rcases linked_eq_or_set h field id many with he | ⟨v, he⟩
  · rw [he]
  · rw [he, get?_set_of_ne record hne]

theorem get?_unlinked_of_ne (record : Json) (hne : field ≠ other) :
    (record.unlinked field id many).get? other = record.get? other := by
  rcases unlinked_eq_or_set record field id many with he | ⟨v, he⟩
  · rw [he]
  · rw [he, get?_set_of_ne record hne]

theorem get_linked_of_ne (h : record.IsObject) (hne : field ≠ other) :
    (record.linked field id many).get other = record.get other := by
  rw [get, get?_linked_of_ne h hne, ← get]

theorem get_unlinked_of_ne (record : Json) (hne : field ≠ other) :
    (record.unlinked field id many).get other = record.get other := by
  rw [get, get?_unlinked_of_ne record hne, ← get]

theorem references_linked (h : record.IsObject) (hid : target.IsIdentity id)
    (hs : target.FitsSlot many (record.get field)) :
    target.FitsSlot many ((record.linked field id many).get field) ∧
      ∀ x, x ∈ ((record.linked field id many).get field).references ↔
        x = id ∨ many = true ∧ x ∈ (record.get field).references := by
  rw [linked_eq h]
  generalize hslot : record.get field = slot at hs
  cases many with
  | false =>
    simp only [Bool.false_eq_true, if_false, false_and, or_false]
    split
    · next hsame =>
      cases hs with
      | absent => simp [FieldType.IsIdentity.not_sameIdentity_null] at hsame
      | one hone =>
        obtain rfl := (hone.sameIdentity_iff hid).mp hsame
        rw [hslot, hid.references_eq]
        exact ⟨.one hid, fun x => List.mem_singleton⟩
    · rw [get_set_self h, hid.references_eq]
      exact ⟨.one hid, fun x => List.mem_singleton⟩
  | true =>
    simp only [if_true, true_and]
    cases hs with
    | absent =>
      simp only [items_null, List.any_nil, Bool.false_eq_true, if_false, get_set_self h]
      exact ⟨.list (by simp) (by simpa using hid), fun x => by simp⟩
    | @list ids hn hall =>
      rw [items_arr, references_arr]
      split
      · next hany =>
        have hmem := (hid.any_sameIdentity_iff hall).mp hany
        rw [hslot]
        refine ⟨.list hn hall, fun x => ⟨.inr, ?_⟩⟩
        rintro (rfl | hx)
        · exact hmem
        · exact hx
      · next hany =>
        rw [hid.any_sameIdentity_iff hall] at hany
        rw [get_set_self h]
        refine ⟨.list ?_ ?_, fun x => ?_⟩
        · exact List.nodup_append.mpr ⟨hn, by simp, by grind⟩
        · simpa [or_imp, forall_and] using ⟨hall, hid⟩
        · simp [or_comm]

theorem get?_unlinked_self {target : Model} {many : Bool} {record id : Json} {field : String}
    (h : record.IsObject) (hs : target.FitsSlot many (record.get field)) :
    (record.unlinked field id many).get? field = (record.get? field).map (·.without id) := by
  have hkept (hsame : (record.get field).without id = record.get field) :
      record.get? field = (record.get? field).map (·.without id) := by
    cases hget : record.get? field with
    | none => rfl
    | some x => rw [Option.map_some, ← get_of_get? hget, hsame]
  have hset {v : Json} (hnull : record.get field ≠ .null) (hv : (record.get field).without id = v) :
      (record.set field v).get? field = (record.get? field).map (·.without id) := by
    rw [get?_set_self h]
    cases hget : record.get? field with
    | none => exact absurd (get_of_get?_none hget) hnull
    | some x => rw [Option.map_some, ← get_of_get? hget, hv]
  rw [unlinked_eq]
  generalize hslot : record.get field = slot at hs hkept hset
  cases hs with
  | absent =>
    have hnone : null.sameIdentity id = false := FieldType.IsIdentity.not_sameIdentity_null id
    simp only [items_null, List.any_nil, hnone, Bool.false_eq_true, if_false, ite_self]
    exact hkept (without_null id)
  | one hone =>
    have hwithout : slot.without id = if slot.sameIdentity id then .null else slot :=
      hone.without_eq id
    rw [if_neg Bool.false_ne_true]
    split
    · next hsame => exact hset hone.ne_null (by rw [hwithout, if_pos hsame])
    · next hsame => exact hkept (by rw [hwithout, if_neg hsame])
  | @list ids hn hall =>
    rw [if_pos rfl, items_arr]
    split
    · exact hset (fun h => nomatch h) rfl
    · next hany =>
      refine hkept (congrArg arr (List.filter_eq_self.mpr fun x hx => ?_))
      rw [Bool.not_eq_true', ← Bool.not_eq_true]
      exact fun hsame => hany (List.any_eq_true.mpr ⟨x, hx, hsame⟩)

theorem references_unlinked (h : record.IsObject) (hs : target.FitsSlot many (record.get field)) :
    target.FitsSlot many ((record.unlinked field id many).get field) ∧
      ((record.unlinked field id many).get field).references =
        (record.get field).references.filter fun x => !x.sameIdentity id := by
  have hget : (record.unlinked field id many).get field = (record.get field).without id := by
    rw [get, get?_unlinked_self h hs]
    cases hslot : record.get? field with
    | none => rw [get_of_get?_none hslot, without_null]; rfl
    | some slot => rw [get_of_get? hslot]; rfl
  rw [hget]
  exact hs.without id

theorem mem_references_unlinked (h : record.IsObject) (hid : target.IsIdentity id)
    (hs : target.FitsSlot many (record.get field)) :
    x ∈ ((record.unlinked field id many).get field).references ↔
      x ∈ (record.get field).references ∧ x ≠ id := by
  rw [(references_unlinked h hs).2, List.mem_filter]
  refine and_congr_right fun hx => ?_
  rw [Bool.not_eq_true', ← Bool.not_eq_true, (hs.isIdentity hx).sameIdentity_iff hid]

theorem unlinked_of_not_mem (hid : target.IsIdentity id)
    (hs : target.FitsSlot many (record.get field)) (hn : id ∉ (record.get field).references) :
    record.clearReference field id many = none := by
  unfold clearReference
  generalize record.get field = slot at hs hn
  cases many with
  | false =>
    cases hs with
    | absent => simp [FieldType.IsIdentity.not_sameIdentity_null]
    | one hone =>
      rw [hone.references_eq, List.mem_singleton, eq_comm, ← hone.sameIdentity_iff hid] at hn
      simp [hn]
  | true =>
    cases hs with
    | absent => simp
    | list _ hall =>
      rw [references_arr, ← hid.any_sameIdentity_iff hall] at hn
      rw [items_arr, if_pos rfl, if_neg hn]

theorem isSome_clearReference_iff (h : record.IsObject) (hid : target.IsIdentity id)
    (hs : target.FitsSlot many (record.get field)) :
    (record.clearReference field id many).isSome = true ↔ id ∈ (record.get field).references := by
  rw [← Option.ne_none_iff_isSome]
  refine ⟨fun hsome => Classical.byContradiction fun hn => hsome (unlinked_of_not_mem hid hs hn),
    fun hmem hnone => ?_⟩
  have hsame : record.unlinked field id many = record := by rw [unlinked, hnone, Option.getD_none]
  rw [← hsame, mem_references_unlinked h hid hs] at hmem
  exact hmem.2 rfl

theorem mem_of_setReference_none (h : record.IsObject) (hid : target.IsIdentity id)
    (hs : target.FitsSlot many (record.get field)) (hnone : record.setReference field id many = none) :
    id ∈ (record.get field).references := by
  have hsame : record.linked field id many = record := by rw [linked, hnone, Option.getD_none]
  have hmem := ((references_linked h hid hs).2 id).mpr (.inl rfl)
  rwa [hsame] at hmem

end Json

end EntityGraph
