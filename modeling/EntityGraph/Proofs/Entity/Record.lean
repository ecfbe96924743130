import EntityGraph.Entity.Agreement
import EntityGraph.Proofs.Entity.Slot
import EntityGraph.Proofs.Model.Coherent

namespace EntityGraph

theorem map_filterMap_sublist {α β κ : Type} {f : α → Option β} {j : β → κ} {k : α → κ}
    (h : ∀ a b, f a = some b → j b = k a) (xs : List α) :
    ((xs.filterMap f).map j).Sublist (xs.map k) := by
  induction xs with
  | nil => exact .slnil
  | cons a rest ih =>
    cases hf : f a with
    | none =>
      rw [List.filterMap_cons_none hf]
      exact ih.cons _
    | some b =>
      rw [List.filterMap_cons_some hf, List.map_cons, List.map_cons, h a b hf]
      exact ih.cons_cons _

/-- What embeds entities under a relation: nothing, an object, or a list of objects. -/
inductive Json.Embeds : Bool → Json → Prop
  | none (many : Bool) : Embeds many .null
  | one {v : Json} (h : v.IsObject) : Embeds false v
  | list {vs : List Json} (h : ∀ v ∈ vs, v.IsObject) : Embeds true (.arr vs)

namespace Model

variable {m target : Model} {r : Relation} {v x : Json}

section Parts

variable {f : Relation → Option (String × Json)} (hd : m.declaredNames.Nodup)
  (hf : ∀ r p, f r = some p → p.1 = r.name)

theorem scalars_sublist (m : Model) (v : Json) :
    ((m.scalars v).map Prod.fst).Sublist (m.identity :: m.attributes.map Attribute.name) := by
  have ha : (((m.attributes.filterMap fun a => (v.get? a.name).map (a.name, ·))).map
      Prod.fst).Sublist (m.attributes.map Attribute.name) := by
    refine map_filterMap_sublist (fun a p hp => ?_) _
    obtain ⟨x, -, rfl⟩ := Option.map_eq_some_iff.mp hp
    rfl
  rw [scalars, List.map_append]
  cases m.identityOf v with
  | none => exact ha.cons _
  | some id => exact ha.cons_cons _

include hd hf in
theorem nodup_parts (v : Json) :
    ((m.scalars v ++ m.owning.filterMap f).map Prod.fst).Nodup := by
  rw [List.map_append]
  refine List.Sublist.nodup ((scalars_sublist m v).append ?_) hd
  exact (map_filterMap_sublist hf _).trans (List.filter_sublist.map _)

include hd hf in
theorem get?_parts_identity (v : Json) :
    (Json.ofPairs (m.scalars v ++ m.owning.filterMap f)).get? m.identity = m.identityOf v := by
  apply Option.ext
  intro x
  obtain ⟨hscalars, -, hdisjoint⟩ := List.nodup_append.mp hd
  rw [Json.get?_ofPairs (nodup_parts hd hf v), scalars, List.append_assoc, List.mem_append,
    List.mem_append]
  constructor
  · rintro (h | h | h)
    · cases hi : m.identityOf v <;> simp_all
    · obtain ⟨a, ha, hx⟩ := List.mem_filterMap.mp h
      obtain ⟨y, -, hp⟩ := Option.map_eq_some_iff.mp hx
      have hmem := List.mem_map_of_mem (f := Attribute.name) ha
      rw [(Prod.mk.inj hp).1] at hmem
      exact absurd hmem (List.nodup_cons.mp hscalars).1
    · obtain ⟨r, hr, hp⟩ := List.mem_filterMap.mp h
      exact absurd (hf r _ hp) (hdisjoint m.identity List.mem_cons_self r.name
        (List.mem_map_of_mem (List.mem_filter.mp hr).1))
  · intro h
    rw [h]
    exact .inl List.mem_cons_self

include hd hf in
theorem get?_parts_relation (v : Json) (hr : r ∈ m.relations) :
    (Json.ofPairs (m.scalars v ++ m.owning.filterMap f)).get? r.name = some x ↔
      r.isOwning = true ∧ f r = some (r.name, x) := by
  obtain ⟨-, hrelations, hdisjoint⟩ := List.nodup_append.mp hd
  rw [Json.get?_ofPairs (nodup_parts hd hf v), List.mem_append]
  constructor
  · rintro (h | h)
    · have hmem := (scalars_sublist m v).subset (List.mem_map_of_mem (f := Prod.fst) h)
      exact absurd rfl (hdisjoint r.name hmem r.name (List.mem_map_of_mem hr))
    · obtain ⟨o, ho, hp⟩ := List.mem_filterMap.mp h
      obtain ⟨hom, howning⟩ := List.mem_filter.mp ho
      obtain rfl := List.inj_on_of_nodup_map hrelations hr hom (hf o _ hp)
      exact ⟨howning, hp⟩
  · rintro ⟨howning, hp⟩
    exact .inr (List.mem_filterMap.mpr ⟨r, List.mem_filter.mpr ⟨hr, howning⟩, hp⟩)

include hd hf in
theorem get?_parts_attribute (v : Json) {a : Attribute} (ha : a ∈ m.attributes) :
    (Json.ofPairs (m.scalars v ++ m.owning.filterMap f)).get? a.name = v.get? a.name := by
  apply Option.ext
  intro x
  obtain ⟨hscalars, -, hdisjoint⟩ := List.nodup_append.mp hd
  have hname := List.mem_map_of_mem (f := Attribute.name) ha
  rw [Json.get?_ofPairs (nodup_parts hd hf v), scalars, List.append_assoc, List.mem_append,
    List.mem_append]
  constructor
  · rintro (h | h | h)
    · obtain ⟨id, -, hp⟩ := Option.map_eq_some_iff.mp (Option.mem_toList.mp h)
      rw [← (Prod.mk.inj hp).1] at hname
      exact absurd hname (List.nodup_cons.mp hscalars).1
    · obtain ⟨b, -, hp⟩ := List.mem_filterMap.mp h
      obtain ⟨y, hy, hp⟩ := Option.map_eq_some_iff.mp hp
      obtain ⟨hn, rfl⟩ := Prod.mk.inj hp
      rw [← hn, hy]
    · obtain ⟨r, hr, hp⟩ := List.mem_filterMap.mp h
      exact absurd (hf r _ hp) (hdisjoint a.name (List.mem_cons_of_mem _ hname) r.name
        (List.mem_map_of_mem (List.mem_filter.mp hr).1))
  · intro h
    exact .inr (.inl (List.mem_filterMap.mpr ⟨a, ha, by rw [h]; rfl⟩))

end Parts

def FitsEntity (m : Model) (v : Json) : Prop :=
  v.IsObject ∧ ∃ id, m.identityOf v = some id ∧ m.IsIdentity id

inductive FitsValue (target : Model) : Bool → Json → Prop
  | none : FitsValue target false .null
  | one {v : Json} (h : target.FitsEntity v) : FitsValue target false v
  | list {vs : List Json} (h : ∀ v ∈ vs, target.FitsEntity v) : FitsValue target true (.arr vs)

def identitiesOf (target : Model) (v : Json) : List Json :=
  (Registry.embedded v).filterMap target.identityOf

theorem identitiesOf_of_isObject (h : v.IsObject) :
    target.identitiesOf v = (target.identityOf v).toList := by
  obtain ⟨members, rfl⟩ := h
  rw [identitiesOf, Registry.embedded]
  cases hi : target.identityOf (.obj members) with
  | none => rw [List.filterMap_cons_none hi]; rfl
  | some x => rw [List.filterMap_cons_some hi]; rfl

theorem identitiesOf_arr (vs : List Json) :
    target.identitiesOf (.arr vs) = vs.filterMap target.identityOf :=
  rfl

theorem identitiesOf_null : target.identitiesOf .null = [] :=
  rfl

theorem FitsValue.embeds {many : Bool} (h : target.FitsValue many v) : v.Embeds many := by
  cases h with
  | none => exact .none false
  | one h => exact .one h.1
  | list h => exact .list fun w hw => (h w hw).1

theorem FitsValue.isIdentity {many : Bool} (h : target.FitsValue many v)
    (hx : x ∈ target.identitiesOf v) : target.IsIdentity x := by
  have hentity {w : Json} (hw : target.FitsEntity w) (hi : target.identityOf w = some x) :
      target.IsIdentity x := by
    obtain ⟨-, id, hid, hform⟩ := hw
    rw [hi, Option.some.injEq] at hid
    rwa [hid]
  cases h with
  | none => exact absurd hx List.not_mem_nil
  | one h =>
    rw [identitiesOf_of_isObject h.1, Option.mem_toList] at hx
    exact hentity h hx
  | list h =>
    obtain ⟨w, hw, hi⟩ := List.mem_filterMap.mp hx
    exact hentity (h w hw) hi

theorem FitsValue.eq_of_mem (h : target.FitsValue false v) {y : Json}
    (hx : x ∈ target.identitiesOf v) (hy : y ∈ target.identitiesOf v) : x = y := by
  cases h with
  | none => exact absurd hx List.not_mem_nil
  | one h =>
    rw [identitiesOf_of_isObject h.1, Option.mem_toList] at hx hy
    exact Option.some.inj (hx.symm.trans hy)

theorem fitsEntity_stub (h : target.IsIdentity x) : target.FitsEntity (target.stub x) :=
  ⟨Json.isObject_ofPairs _, x, identityOf_stub h.ne_null, h⟩

section Slots

variable (ht : ModelDefinition.isIdentityType target.identityType = true)

include ht in
theorem isIdentity_of_referenceId? (h : target.referenceId? v = some x) :
    target.IsIdentity x ∧ target.identity? x = some x := by
  have hself {raw : Json} (hr : target.identity? raw = some x) :
      target.IsIdentity x ∧ target.identity? x = some x :=
    isIdentity_of_coerceIdentity ht (identity?_eq_some_iff.mp hr)
  unfold referenceId? at h
  split at h
  · obtain ⟨raw, -, hr⟩ := Option.bind_eq_some_iff.mp h
    exact hself hr
  · exact hself h

theorem referenceId?_null (target : Model) : target.referenceId? .null = none := by
  rw [referenceId?, identity?, coerceIdentity, coerce]
  · cases target.identityType <;> rfl
  · exact fun _ h => nomatch h

theorem referenceId?_of_fitsEntity (h : target.FitsEntity v) :
    target.referenceId? v = some x ↔ target.identityOf v = some x ∧ target.identity? x = some x := by
  obtain ⟨⟨members, rfl⟩, id, hid, hform⟩ := h
  rw [referenceId?, hid, Option.bind_some, Option.some.injEq]
  constructor
  · intro hx
    obtain rfl := hform.eq_of_identity? hx
    exact ⟨rfl, hx⟩
  · rintro ⟨rfl, hx⟩
    exact hx

theorem slotOf_of_collection (hr : r.isCollection = true) (v : Json) :
    target.slotOf r v =
      .arr (distinctBy Json.sameIdentity (v.items.filterMap target.referenceId?)) := by
  rw [slotOf, if_pos hr]

theorem slotOf_of_single (hr : r.isCollection = false) (v : Json) :
    target.slotOf r v = (target.referenceId? v).getD .null := by
  rw [slotOf, hr, if_neg Bool.false_ne_true]

def acceptedIn (target : Model) (v : Json) : List Json :=
  (target.identitiesOf v).filterMap target.identity?

theorem distinctBy_acceptedIn_of_single (h : v.Embeds false)
    (hself : ∀ x ∈ target.identitiesOf v, target.identity? x = some x) :
    distinctBy Json.sameIdentity (target.acceptedIn v) = target.identitiesOf v := by
  rw [acceptedIn, List.filterMap_congr hself, List.filterMap_some]
  cases h with
  | none => rfl
  | one hobject =>
    rw [identitiesOf_of_isObject hobject]
    cases target.identityOf v <;> rfl

theorem slotOf_of_embeds (h : v.Embeds r.isCollection) : target.slotOf r v =
    if r.isCollection then .arr (distinctBy Json.sameIdentity (target.acceptedIn v))
    else (target.acceptedIn v).head?.getD .null := by
  generalize hr : r.isCollection = many at h
  have hone (members : List (String × Json)) : target.referenceId? (.obj members) =
      (target.identityOf (.obj members)).bind target.identity? := rfl
  cases h with
  | none =>
    cases many with
    | false =>
      rw [slotOf_of_single hr, referenceId?_null]
      rfl
    | true =>
      rw [slotOf_of_collection hr]
      rfl
  | one hobject =>
    obtain ⟨members, rfl⟩ := hobject
    rw [slotOf_of_single hr, if_neg Bool.false_ne_true, hone, acceptedIn,
      identitiesOf_of_isObject (Json.isObject_obj members)]
    cases target.identityOf (.obj members) with
    | none => rfl
    | some x => cases hx : target.identity? x <;> simp [hx]
  | @list vs hobjects =>
    rw [slotOf_of_collection hr, if_pos rfl, Json.items_arr, acceptedIn, identitiesOf_arr,
      List.filterMap_filterMap]
    refine congrArg (fun ids => Json.arr (distinctBy Json.sameIdentity ids))
      (List.filterMap_congr fun w hw => ?_)
    obtain ⟨members, rfl⟩ := hobjects w hw
    exact hone members

theorem slotOf_eq_of_acceptedIn {w : Json} (hv : v.Embeds r.isCollection)
    (hw : w.Embeds r.isCollection)
    (h : target.acceptedIn w = distinctBy Json.sameIdentity (target.acceptedIn v)) :
    target.slotOf r w = target.slotOf r v := by
  rw [slotOf_of_embeds hv, slotOf_of_embeds hw, h, distinctBy_distinctBy, head?_distinctBy]

include ht in
theorem fitsSlot_slotOf (r : Relation) (v : Json) :
    target.FitsSlot r.isCollection (target.slotOf r v) := by
  cases hr : r.isCollection with
  | true =>
    have hform {x} (hx : x ∈ v.items.filterMap target.referenceId?) : target.IsIdentity x := by
      obtain ⟨w, -, hw⟩ := List.mem_filterMap.mp hx
      exact (isIdentity_of_referenceId? ht hw).1
    rw [slotOf_of_collection hr]
    refine .list (nodup_distinctBy fun a ha => ?_) fun x hx => hform (mem_of_mem_distinctBy hx)
    exact (hform ha).sameIdentity_self
  | false =>
    rw [slotOf_of_single hr]
    cases hv : target.referenceId? v with
    | none => exact .absent _
    | some x => exact .one (isIdentity_of_referenceId? ht hv).1

include ht in
theorem mem_references_slotOf (h : target.FitsValue r.isCollection v) :
    x ∈ (target.slotOf r v).references ↔
      x ∈ target.identitiesOf v ∧ target.identity? x = some x := by
  cases hr : r.isCollection with
  | true =>
    rw [hr] at h
    cases h with
    | @list vs h =>
      have hform {x} (hx : x ∈ vs.filterMap target.referenceId?) : target.IsIdentity x := by
        obtain ⟨w, -, hw⟩ := List.mem_filterMap.mp hx
        exact (isIdentity_of_referenceId? ht hw).1
      rw [slotOf_of_collection hr, Json.references_arr, Json.items_arr, mem_distinctBy_iff
        fun a ha b hb => (hform ha).sameIdentity_iff (hform hb), identitiesOf_arr]
      simp only [List.mem_filterMap]
      constructor
      · rintro ⟨w, hw, hx⟩
        obtain ⟨hi, hx⟩ := (referenceId?_of_fitsEntity (h w hw)).mp hx
        exact ⟨⟨w, hw, hi⟩, hx⟩
      · rintro ⟨⟨w, hw, hi⟩, hx⟩
        exact ⟨w, hw, (referenceId?_of_fitsEntity (h w hw)).mpr ⟨hi, hx⟩⟩
  | false =>
    rw [hr] at h
    rw [slotOf_of_single hr]
    cases h with
    | none => simp [referenceId?_null, identitiesOf_null]
    | one h =>
      rw [identitiesOf_of_isObject h.1, Option.mem_toList, ← referenceId?_of_fitsEntity h]
      cases hv : target.referenceId? v with
      | none => simp
      | some y =>
        rw [Option.getD_some, (isIdentity_of_referenceId? ht hv).1.references_eq,
          List.mem_singleton, Option.some.injEq, eq_comm]

theorem embed_eq_of_fitsSlot {slot : Json} (h : target.FitsSlot r.isCollection slot) :
    target.embed r slot = if r.isCollection then .arr (slot.references.map target.stub)
      else (slot.references.head?.map target.stub).getD .null := by
  generalize hr : r.isCollection = many at h
  cases h with
  | absent => cases many <;> simp [embed, hr, show Json.null.isNull = true from rfl]
  | one h => simp [embed, hr, h.references_eq, Json.isNull_eq_false_iff.mpr h.ne_null]
  | @list ids hn hall =>
    have hfilter : (ids.filter fun id => !id.isNull) = ids := by
      refine List.filter_eq_self.mpr fun x hx => ?_
      rw [Json.isNull_eq_false_iff.mpr (hall x hx).ne_null]
      rfl
    simp [embed, hr, hfilter]

/-- Embedding brings back what a slot holds. -/
theorem embed_of_fitsSlot {slot : Json} (h : target.FitsSlot r.isCollection slot) :
    target.FitsValue r.isCollection (target.embed r slot) ∧
      target.identitiesOf (target.embed r slot) = slot.references := by
  rw [embed_eq_of_fitsSlot h]
  generalize r.isCollection = many at h
  cases h with
  | absent =>
    cases many with
    | false => exact ⟨.none, rfl⟩
    | true => exact ⟨.list fun v hv => absurd hv List.not_mem_nil, rfl⟩
  | one h =>
    have hstub := fitsEntity_stub h
    rw [if_neg Bool.false_ne_true, h.references_eq]
    refine ⟨.one hstub, ?_⟩
    change target.identitiesOf (target.stub slot) = [slot]
    rw [identitiesOf_of_isObject hstub.1, identityOf_stub h.ne_null]
    rfl
  | @list ids hn hall =>
    rw [if_pos rfl, identitiesOf_arr, Json.references_arr, List.filterMap_map]
    refine ⟨.list fun v hv => ?_, ?_⟩
    · obtain ⟨x, hx, rfl⟩ := List.mem_map.mp hv
      exact fitsEntity_stub (hall x hx)
    · have hself : ∀ x ∈ ids, (target.identityOf ∘ target.stub) x = some x := fun x hx =>
        identityOf_stub (hall x hx).ne_null
      rw [List.filterMap_congr hself, List.filterMap_some]

/-- What is embedded for a slot comes back as the same slot, where all its identities are accepted; only an
absent list comes back empty. -/
theorem slotOf_embed {slot : Json} (h : target.FitsSlot r.isCollection slot)
    (hself : ∀ x ∈ slot.references, target.identity? x = some x)
    (hlist : r.isCollection = true → slot ≠ .null) :
    target.slotOf r (target.embed r slot) = slot := by
  obtain ⟨hvalue, hids⟩ := embed_of_fitsSlot h
  have haccepted : target.acceptedIn (target.embed r slot) = slot.references := by
    rw [acceptedIn, hids, List.filterMap_congr hself, List.filterMap_some]
  rw [slotOf_of_embeds hvalue.embeds, haccepted]
  generalize r.isCollection = many at h hlist
  cases h with
  | absent =>
    cases many with
    | false => rfl
    | true => exact absurd rfl (hlist rfl)
  | one h =>
    rw [h.references_eq]
    rfl
  | @list ids hn hall =>
    refine congrArg Json.arr (foldl_insertNew_of_pairwise (show ([] ++ ids).Pairwise _ from ?_))
    refine hn.imp_of_mem fun {a b} ha hb hne => ?_
    rwa [← Bool.not_eq_true, (hall a ha).sameIdentity_iff (hall b hb)]

theorem references_slotOf_embed {slot : Json} (h : target.FitsSlot r.isCollection slot)
    (hself : ∀ x ∈ slot.references, target.identity? x = some x) :
    (target.slotOf r (target.embed r slot)).references = slot.references := by
  by_cases hnull : r.isCollection = true ∧ slot = .null
  · obtain ⟨hmany, rfl⟩ := hnull
    rw [embed_eq_of_fitsSlot h, if_pos hmany, slotOf_of_collection hmany]
    rfl
  · rw [slotOf_embed h hself fun hmany hslot => hnull ⟨hmany, hslot⟩]

end Slots

theorem scalars_congr {m : Model} {v w : Json} (hid : m.identityOf v = m.identityOf w)
    (hattributes : ∀ a ∈ m.attributes, v.get? a.name = w.get? a.name) : m.scalars v = m.scalars w := by
  rw [scalars, scalars, hid]
  refine congrArg (_ ++ ·) (List.filterMap_congr fun a ha => ?_)
  rw [hattributes a ha]

end Model

namespace Registry

variable {g : Registry} {m target : Model} {r : Relation} {entity record : Json}

/-- A record of a model under a key, of the shape in which records are written. Whether numbers that
have been generated are in the range of their type is left open. -/
structure Fits (g : Registry) (m : Model) (key : RecordKey) (record : Json) : Prop where
  isObject : record.IsObject
  identity : ∃ id, m.identityOf record = some id ∧ m.IsIdentity id ∧ RecordKey.of? id = some key ∧
    (m.identityGenerated = false → m.identity? id = some id)
  slots : ∀ r ∈ m.owning, ∀ target, g.get? r.target = some target →
    target.FitsSlot r.isCollection (record.get r.name)

def recordPart (g : Registry) (entity : Json) (r : Relation) : Option (String × Json) :=
  match entity.get? r.name, g.get? r.target with
  | some v, some target => some (r.name, target.slotOf r v)
  | _, _ => none

def entityPart (g : Registry) (record : Json) (r : Relation) : Option (String × Json) :=
  (g.get? r.target).map fun target => (r.name, target.embed r (record.get r.name))

theorem fst_of_recordPart (r : Relation) (p : String × Json) (h : g.recordPart entity r = some p) :
    p.1 = r.name := by
  unfold recordPart at h
  split at h
  · rw [← Option.some.inj h]
  · cases h

theorem fst_of_entityPart (r : Relation) (p : String × Json) (h : g.entityPart record r = some p) :
    p.1 = r.name := by
  obtain ⟨target, -, rfl⟩ := Option.map_eq_some_iff.mp h
  rfl

theorem toRecord_eq (g : Registry) (m : Model) (entity : Json) :
    g.toRecord m entity =
      .ofPairs (m.scalars entity ++ m.owning.filterMap (g.recordPart entity)) :=
  rfl

theorem fromRecord_eq (g : Registry) (m : Model) (record : Json) :
    g.fromRecord m record =
      .ofPairs (m.scalars record ++ m.owning.filterMap (g.entityPart record)) :=
  rfl

theorem isObject_toRecord (g : Registry) (m : Model) (entity : Json) :
    (g.toRecord m entity).IsObject :=
  Json.isObject_ofPairs _

theorem isObject_fromRecord (g : Registry) (m : Model) (record : Json) :
    (g.fromRecord m record).IsObject :=
  Json.isObject_ofPairs _

theorem declared_of_isSome_toRecord {name : String}
    (h : ((g.toRecord m entity).get? name).isSome = true) :
    name ∈ m.identity :: m.attributes.map Attribute.name ++ m.owning.map Relation.name := by
  obtain ⟨x, hx⟩ := Option.isSome_iff_exists.mp h
  rw [toRecord_eq] at hx
  rcases List.mem_append.mp (Json.mem_of_get?_ofPairs hx) with hx | hx
  · exact List.mem_append_left _
      ((Model.scalars_sublist m entity).subset (List.mem_map_of_mem (f := Prod.fst) hx))
  · obtain ⟨r, hr, hp⟩ := List.mem_filterMap.mp hx
    rw [show name = r.name from fst_of_recordPart r _ hp]
    exact List.mem_append_right _ (List.mem_map_of_mem hr)

theorem identityOf_eq_of_get? {v w : Json} (h : v.get? m.identity = m.identityOf w) :
    m.identityOf v = m.identityOf w := by
  apply Option.ext
  intro x
  rw [Model.identityOf_eq_some_iff, h]
  exact ⟨fun hx => hx.1, fun hx => ⟨hx, (Model.identityOf_eq_some_iff.mp hx).2⟩⟩

/-- A record depends on the identity, the scalars and the slots of an entity. -/
theorem toRecord_congr {e e' : Json} (hid : m.identityOf e = m.identityOf e')
    (hattributes : ∀ a ∈ m.attributes, e.get? a.name = e'.get? a.name)
    (hslots : ∀ r ∈ m.owning, ∀ target, g.get? r.target = some target →
      (e.get? r.name).map (target.slotOf r) = (e'.get? r.name).map (target.slotOf r)) :
    g.toRecord m e = g.toRecord m e' := by
  have hparts : m.owning.filterMap (g.recordPart e) = m.owning.filterMap (g.recordPart e') := by
    refine List.filterMap_congr fun r hr => ?_
    unfold recordPart
    cases ht : g.get? r.target with
    | none => cases e.get? r.name <;> cases e'.get? r.name <;> rfl
    | some target =>
      have hslot := hslots r hr target ht
      cases he : e.get? r.name <;> cases he' : e'.get? r.name <;> simp_all
  rw [toRecord_eq, toRecord_eq, Model.scalars_congr hid hattributes, hparts]

namespace Coherent

variable (hg : g.Coherent) (hm : m ∈ g.models)

include hg hm

theorem identityOf_toRecord (entity : Json) :
    m.identityOf (g.toRecord m entity) = m.identityOf entity :=
  identityOf_eq_of_get? (Model.get?_parts_identity (hg.distinctNames m hm)
    fst_of_recordPart entity)

theorem identityOf_fromRecord (record : Json) :
    m.identityOf (g.fromRecord m record) = m.identityOf record :=
  identityOf_eq_of_get? (Model.get?_parts_identity (hg.distinctNames m hm)
    fst_of_entityPart record)

theorem get?_toRecord (entity : Json) (hr : r ∈ m.owning) (ht : g.get? r.target = some target) :
    (g.toRecord m entity).get? r.name = (entity.get? r.name).map (target.slotOf r) := by
  obtain ⟨hrm, howning⟩ := List.mem_filter.mp hr
  apply Option.ext
  intro x
  rw [toRecord_eq, Model.get?_parts_relation (hg.distinctNames m hm) fst_of_recordPart entity hrm,
    recordPart, ht]
  cases entity.get? r.name <;> simp [howning]

theorem get?_toRecord_attribute (entity : Json) {a : Attribute} (ha : a ∈ m.attributes) :
    (g.toRecord m entity).get? a.name = entity.get? a.name :=
  Model.get?_parts_attribute (hg.distinctNames m hm) fst_of_recordPart entity ha

theorem get?_fromRecord_attribute (record : Json) {a : Attribute} (ha : a ∈ m.attributes) :
    (g.fromRecord m record).get? a.name = record.get? a.name :=
  Model.get?_parts_attribute (hg.distinctNames m hm) fst_of_entityPart record ha

theorem get?_fromRecord (record : Json) (hr : r ∈ m.owning) (ht : g.get? r.target = some target) :
    (g.fromRecord m record).get? r.name = some (target.embed r (record.get r.name)) := by
  obtain ⟨hrm, howning⟩ := List.mem_filter.mp hr
  rw [fromRecord_eq, Model.get?_parts_relation (hg.distinctNames m hm) fst_of_entityPart record hrm,
    entityPart, ht]
  exact ⟨howning, rfl⟩

theorem get?_fromRecord_inverse (record : Json) (hr : r ∈ m.relations)
    (ho : r.isOwning = false) : (g.fromRecord m record).get? r.name = none := by
  rw [Option.eq_none_iff_forall_not_mem]
  intro x hx
  rw [Option.mem_def, fromRecord_eq, Model.get?_parts_relation (hg.distinctNames m hm)
    fst_of_entityPart record hr, ho] at hx
  exact nomatch hx.1

theorem fitsSlot_toRecord (entity : Json) (hr : r ∈ m.owning)
    (ht : g.get? r.target = some target) :
    target.FitsSlot r.isCollection ((g.toRecord m entity).get r.name) := by
  rw [Json.get, hg.get?_toRecord hm entity hr ht]
  cases entity.get? r.name with
  | none => exact .absent _
  | some v =>
    have htm := hg.target_path hm (List.mem_filter.mp hr).1 ht
    exact Model.fitsSlot_slotOf (hg.identityTypes target htm.1) r v

theorem fits_toRecord {id : Json} {key : RecordKey} (hi : m.identityOf entity = some id)
    (hform : m.IsIdentity id) (hk : RecordKey.of? id = some key)
    (hself : m.identityGenerated = false → m.identity? id = some id) :
    g.Fits m key (g.toRecord m entity) :=
  ⟨isObject_toRecord g m entity, ⟨id, by rw [hg.identityOf_toRecord hm, hi], hform, hk, hself⟩,
    fun _ hr _ ht => hg.fitsSlot_toRecord hm entity hr ht⟩

end Coherent

namespace Fits

variable {key : RecordKey} {id x : Json} {field : String} {many : Bool}

theorem of_slot {changed : Json} (hg : g.Coherent) (hm : m ∈ g.models) (h : g.Fits m key record)
    (hr : r ∈ m.owning) (hobject : changed.IsObject)
    (hothers : ∀ name, r.name ≠ name → changed.get? name = record.get? name)
    (hslot : ∀ target, g.get? r.target = some target →
      target.FitsSlot r.isCollection (changed.get r.name)) : g.Fits m key changed := by
  have hrm := (List.mem_filter.mp hr).1
  obtain ⟨id, hid, hform, hk, hself⟩ := h.identity
  refine ⟨hobject, ⟨id, ?_, hform, hk, hself⟩, fun o ho target ht => ?_⟩
  · rw [Model.identityOf_congr (hothers m.identity (hg.name_ne_identity hm hrm)), hid]
  · by_cases hn : r.name = o.name
    · obtain rfl := hg.eq_of_name hm hrm (List.mem_filter.mp ho).1 hn
      exact hslot target ht
    · rw [Json.get, hothers o.name hn, ← Json.get]
      exact h.slots o ho target ht

theorem linked (hg : g.Coherent) (hm : m ∈ g.models) (h : g.Fits m key record) (hr : r ∈ m.owning)
    (ht : g.get? r.target = some target) (hid : target.IsIdentity id) :
    g.Fits m key (record.linked r.name id r.isCollection) := by
  refine h.of_slot hg hm hr h.isObject.linked (fun name hn => Json.get?_linked_of_ne h.isObject hn)
    fun t ht' => ?_
  rw [ht, Option.some.injEq] at ht'
  exact ht' ▸ (Json.references_linked h.isObject hid (h.slots r hr target ht)).1

theorem unlinked (hg : g.Coherent) (hm : m ∈ g.models) (h : g.Fits m key record)
    (hr : r ∈ m.owning) (id : Json) : g.Fits m key (record.unlinked r.name id r.isCollection) :=
  h.of_slot hg hm hr h.isObject.unlinked (fun _ hn => Json.get?_unlinked_of_ne record hn)
    fun target ht => (Json.references_unlinked h.isObject (h.slots r hr target ht)).1

end Fits

end Registry

end EntityGraph
