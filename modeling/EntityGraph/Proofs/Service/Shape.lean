import EntityGraph.Proofs.Service.Preservation
import EntityGraph.Proofs.Service.Visibility

namespace EntityGraph

/-- What the slot of an owning relation refers to: at most one identity, or a list of identities of
which no two are the same. -/
inductive RefersTo (accepts : Json → Prop) : Bool → Json → Prop
  | none : RefersTo accepts false .null
  | one {id : Json} (h : accepts id) : RefersTo accepts false id
  | list {ids : List Json} (hd : ids.Pairwise fun a b => a.sameIdentity b = false)
      (h : ∀ id ∈ ids, accepts id) : RefersTo accepts true (.arr ids)

/-- The shape of a record of a model: its members are declared and none of them is an inverse relation,
and the identities in it are accepted. An owning relation may be without a slot. -/
structure Registry.Shaped (g : Registry) (accepts : Model → Json → Prop) (m : Model)
    (record : Json) : Prop where
  isObject : record.IsObject
  declared : ∀ name, (record.get? name).isSome = true →
    name ∈ m.identity :: m.attributes.map Attribute.name ++ m.owning.map Relation.name
  identity : ∃ id, record.get? m.identity = some id ∧ accepts m id
  slots : ∀ r ∈ m.owning, ∀ target, g.get? r.target = some target →
    ∀ slot, record.get? r.name = some slot → RefersTo (accepts target) r.isCollection slot

section Slots

variable {accepts accepts' : Json → Prop} {many : Bool} {record id slot : Json} {field : String}

theorem RefersTo.mono (h : RefersTo accepts many slot) (ha : ∀ id, accepts id → accepts' id) :
    RefersTo accepts' many slot := by
  cases h with
  | none => exact .none
  | one h => exact .one (ha _ h)
  | list hd h => exact .list hd fun id hid => ha id (h id hid)

/-- Whatever a relation is given, only accepted identities get into its slot, and each of them once. -/
theorem Model.refersTo_slotOf {target : Model}
    (ht : ModelDefinition.isIdentityType target.identityType = true) (r : Relation) (v : Json) :
    RefersTo (fun id => target.coerceIdentity id = .ok id) r.isCollection (target.slotOf r v) := by
  have haccepted {w id : Json} (h : target.referenceId? w = some id) :
      target.coerceIdentity id = .ok id :=
    identity?_eq_some_iff.mp (isIdentity_of_referenceId? ht h).2
  cases hr : r.isCollection with
  | true =>
    rw [slotOf_of_collection hr]
    refine .list (pairwise_distinctBy _ _) fun id hid => ?_
    obtain ⟨w, -, hw⟩ := List.mem_filterMap.mp (mem_of_mem_distinctBy hid)
    exact haccepted hw
  | false =>
    rw [slotOf_of_single hr]
    cases hv : target.referenceId? v with
    | none => exact .none
    | some id => exact .one (haccepted hv)

namespace Json

theorem items_of_refersTo (h : ∀ slot, record.get? field = some slot → RefersTo accepts true slot) :
    ((record.get field).items.Pairwise fun a b => a.sameIdentity b = false) ∧
      ∀ id ∈ (record.get field).items, accepts id := by
  cases hget : record.get? field with
  | none =>
    rw [get_of_get?_none hget]
    exact ⟨.nil, fun id hid => absurd hid List.not_mem_nil⟩
  | some slot =>
    rw [get_of_get? hget]
    cases h slot hget with
    | list hd h => exact ⟨hd, h⟩

theorem refersTo_linked (hrecord : record.IsObject) (hid : accepts id)
    (h : ∀ slot, record.get? field = some slot → RefersTo accepts many slot) :
    ∀ slot, (record.linked field id many).get? field = some slot →
      RefersTo accepts many slot := by
  rw [linked_eq hrecord]
  cases many with
  | false =>
    rw [if_neg Bool.false_ne_true]
    split
    · exact h
    · intro slot hslot
      rw [get?_set_self hrecord, Option.some.injEq] at hslot
      exact hslot ▸ .one hid
  | true =>
    rw [if_pos rfl]
    obtain ⟨hd, hall⟩ := items_of_refersTo h
    split
    · exact h
    · next hnew =>
      intro slot hslot
      rw [get?_set_self hrecord, Option.some.injEq] at hslot
      subst hslot
      refine .list (List.pairwise_append.mpr ⟨hd, List.pairwise_singleton _ _, ?_⟩) ?_
      · -- the identity was appended because none in the list is the same
        intro a ha b hb
        rw [List.mem_singleton.mp hb]
        exact Bool.eq_false_iff.mpr fun hsame => hnew (List.any_eq_true.mpr ⟨a, ha, hsame⟩)
      · intro x hx
        rcases List.mem_append.mp hx with hx | hx
        · exact hall x hx
        · exact List.mem_singleton.mp hx ▸ hid

theorem refersTo_unlinked (hrecord : record.IsObject) (id : Json)
    (h : ∀ slot, record.get? field = some slot → RefersTo accepts many slot) :
    ∀ slot, (record.unlinked field id many).get? field = some slot →
      RefersTo accepts many slot := by
  rw [unlinked_eq]
  cases many with
  | false =>
    rw [if_neg Bool.false_ne_true]
    split
    · intro slot hslot
      rw [get?_set_self hrecord, Option.some.injEq] at hslot
      exact hslot ▸ .none
    · exact h
  | true =>
    rw [if_pos rfl]
    obtain ⟨hd, hall⟩ := items_of_refersTo h
    split
    · intro slot hslot
      rw [get?_set_self hrecord, Option.some.injEq] at hslot
      subst hslot
      exact .list (hd.filter _) fun x hx => hall x (List.mem_filter.mp hx).1
    · exact h

end Json

end Slots

namespace Registry

variable {g : Registry} {accepts accepts' : Model → Json → Prop} {m target : Model} {r : Relation}
  {record id : Json}

theorem Shaped.mono (h : g.Shaped accepts m record) (hown : ∀ id, accepts m id → accepts' m id)
    (hother : ∀ target ∈ g.models, ∀ id, accepts target id → accepts' target id) :
    g.Shaped accepts' m record := by
  obtain ⟨id, hid, haccepted⟩ := h.identity
  refine ⟨h.isObject, h.declared, ⟨id, hid, hown id haccepted⟩, fun r hr target ht slot hslot => ?_⟩
  exact (h.slots r hr target ht slot hslot).mono (hother target (mem_of_get? ht).1)

theorem shaped_toRecord (hg : g.Coherent) (hm : m ∈ g.models) (e : Json) (hid : accepts m id)
    (ha : ∀ m ∈ g.models, ∀ id, m.coerceIdentity id = .ok id → accepts m id) :
    g.Shaped accepts m ((g.toRecord m e).set m.identity id) := by
  have hobject := isObject_toRecord g m e
  refine ⟨hobject.set _ _, fun name hname => ?_, ⟨id, Json.get?_set_self hobject _ _, hid⟩,
    fun r hr target ht slot hslot => ?_⟩
  · -- the identity that is set, or what the entity contributes under its name
    by_cases hn : m.identity = name
    · exact hn ▸ List.mem_cons_self
    · rw [Json.get?_set_of_ne _ hn] at hname
      exact declared_of_isSome_toRecord hname
  · have hrm := (List.mem_filter.mp hr).1
    have htm := (hg.target_path hm hrm ht).1
    rw [Json.get?_set_of_ne _ (hg.name_ne_identity hm hrm).symm, hg.get?_toRecord hm e hr ht] at hslot
    obtain ⟨v, -, rfl⟩ := Option.map_eq_some_iff.mp hslot
    exact (Model.refersTo_slotOf (hg.identityTypes target htm) r v).mono (ha target htm)

namespace Shaped

theorem of_slot {changed : Json} (hg : g.Coherent) (hm : m ∈ g.models) (h : g.Shaped accepts m record)
    (hr : r ∈ m.owning) (hobject : changed.IsObject)
    (hothers : ∀ name, r.name ≠ name → changed.get? name = record.get? name)
    (hslot : ∀ target, g.get? r.target = some target →
      ∀ slot, changed.get? r.name = some slot → RefersTo (accepts target) r.isCollection slot) :
    g.Shaped accepts m changed := by
  have hrm := (List.mem_filter.mp hr).1
  obtain ⟨id, hid, haccepted⟩ := h.identity
  refine ⟨hobject, fun name hname => ?_, ⟨id, ?_, haccepted⟩, fun o ho target ht slot hget => ?_⟩
  · by_cases hn : r.name = name
    · exact List.mem_append_right _ (hn ▸ List.mem_map_of_mem hr)
    · exact h.declared name (hothers name hn ▸ hname)
  · rw [hothers m.identity (hg.name_ne_identity hm hrm), hid]
  · by_cases hn : r.name = o.name
    · obtain rfl := hg.eq_of_name hm hrm (List.mem_filter.mp ho).1 hn
      exact hslot target ht slot hget
    · exact h.slots o ho target ht slot (hothers o.name hn ▸ hget)

theorem linked (hg : g.Coherent) (hm : m ∈ g.models) (h : g.Shaped accepts m record)
    (hr : r ∈ m.owning) (ht : g.get? r.target = some target) (hid : accepts target id) :
    g.Shaped accepts m (record.linked r.name id r.isCollection) := by
  refine h.of_slot hg hm hr h.isObject.linked (fun name hn => Json.get?_linked_of_ne h.isObject hn)
    fun t ht' => ?_
  rw [ht, Option.some.injEq] at ht'
  exact ht' ▸ Json.refersTo_linked h.isObject hid (h.slots r hr target ht)

theorem unlinked (hg : g.Coherent) (hm : m ∈ g.models) (h : g.Shaped accepts m record)
    (hr : r ∈ m.owning) (id : Json) :
    g.Shaped accepts m (record.unlinked r.name id r.isCollection) :=
  h.of_slot hg hm hr h.isObject.unlinked (fun _ hn => Json.get?_unlinked_of_ne record hn)
    fun target ht => Json.refersTo_unlinked h.isObject id (h.slots r hr target ht)

theorem get?_inverse (hg : g.Coherent) (hm : m ∈ g.models) (h : g.Shaped accepts m record)
    (hr : r ∈ m.relations) (ho : r.isOwning = false) : record.get? r.name = none := by
  by_contra hne
  rcases List.mem_append.mp (h.declared r.name (Option.isSome_iff_ne_none.mpr hne)) with hn | hn
  · rcases List.mem_cons.mp hn with hn | hn
    · exact hg.name_ne_identity hm hr hn
    · obtain ⟨a, ha, hn⟩ := List.mem_map.mp hn
      exact hg.name_ne_attribute_name hm hr ha hn.symm
  · obtain ⟨o, hom, hn⟩ := List.mem_map.mp hn
    obtain ⟨hom, howning⟩ := List.mem_filter.mp hom
    rw [hg.eq_of_name hm hom hr hn, ho] at howning
    cases howning

end Shaped

end Registry

/-- Identities that a model accepts as they are, and numbers that may have been generated for it: a
sequence gives out its next number even where that is too large for the type. -/
def Tables.Knows (ts : Tables) (m : Model) (id : Json) : Prop :=
  m.coerceIdentity id = .ok id ∨ m.identityGenerated = true ∧ m.identityType.isIntegral = true ∧
    ∃ n : Whole, id = .num (.whole n) ∧ 0 < n.value ∧ n.value ≤ (ts.table m.path).sequence

theorem Tables.Knows.grows {ts ts' : Tables} {m : Model} {id : Json} (h : ts.Knows m id)
    (hts : ts.Grows ts') : ts'.Knows m id := by
  refine h.imp_right ?_
  rintro ⟨hgen, hint, n, rfl, hpos, hle⟩
  exact ⟨hgen, hint, n, rfl, hpos, Int.le_trans hle (Int.ofNat_le.mpr (hts m.path))⟩

theorem FieldType.holds_of_le {t : FieldType} {n : Nat} {i : Int} (h : t.holds n = true) (hpos : 0 < i)
    (hle : i ≤ n) : t.holds i = true := by
  cases t <;> simp only [holds, Bool.and_eq_true, decide_eq_true_eq] at h ⊢ <;> omega

theorem Tables.Knows.coerceIdentity {ts : Tables} {m : Model} {id : Json} (h : ts.Knows m id)
    (hrange : m.identityGenerated = true → m.identityType.isIntegral = true →
      m.identityType.holds (ts.table m.path).sequence = true) : m.coerceIdentity id = .ok id := by
  rcases h with h | ⟨hgen, hint, n, rfl, hpos, hle⟩
  · exact h
  · have hn := FieldType.holds_of_le (hrange hgen hint) hpos hle
    have hform : m.IsIdentity (.num (.whole n)) := .whole hint n (FieldType.lt_of_holds hn)
    exact Model.identity?_eq_some_iff.mp (hform.identity?_eq_self fun k hk => by cases hk; exact hn)

def Requirement.shape (g : Registry) : Requirement where
  identity ts := ts.Knows
  entity m e := ∀ id, m.identityOf e = some id → m.coerceIdentity id = .ok id
  record ts := g.Shaped ts.Knows

namespace Service

open Registry UnitOfWork EntityInput

variable {s : Service} {m : Model} {record : Json}

/-- Generated identities that are no numbers have the form of their type. -/
def GivesUuids (s : Service) : Prop :=
  ∀ m ∈ s.registry.models, m.identityGenerated = true → m.identityType = .uuid →
    ∀ t, Uuid.canonical? (s.fresh t) = some (s.fresh t)

theorem knows_of_nextIdentity (hs : s.GivesUuids) {ts ts' : Tables} {id : Json}
    (hm : m ∈ s.registry.models) (h : (nextIdentity s.fresh m).run ts = (.ok id, ts')) :
    ts'.Knows m id := by
  obtain ⟨hgen, ⟨hint, hnumber⟩ | ⟨ht, rfl, rfl⟩⟩ := nextIdentity_cases h
  · obtain ⟨⟨n, rfl, hn, -⟩, rfl⟩ := run_nextNumber hnumber
    refine .inr ⟨hgen, hint, n, rfl, by omega, ?_⟩
    rw [Tables.table_set_self, hn]
    exact Int.le_refl _
  · refine .inl (Model.coerceIdentity_eq_ok_iff.mpr ⟨?_, fun h => nomatch h⟩)
    rw [ht]
    exact FieldType.coerce?_uuid_of_canonical (hs m hm hgen ht _)

theorem coerceIdentity_self (hg : s.registry.Coherent) (hm : m ∈ s.registry.models) {raw id : Json}
    (h : m.coerceIdentity raw = .ok id) : m.coerceIdentity id = .ok id :=
  Model.identity?_eq_some_iff.mp (Model.isIdentity_of_coerceIdentity (hg.identityTypes m hm) h).2

theorem upholds_shape (hg : s.registry.Coherent) (hhooks : s.hooks = .none) (hs : s.GivesUuids) :
    s.Upholds (.shape s.registry) where
  growsIdentity hts h := h.grows hts
  growsRecord hts h := h.mono (fun _ hid => hid.grows hts) fun _ _ _ hid => hid.grows hts
  accepted {m raw id} ts hm h := .inl (coerceIdentity_self hg hm h)
  generated hm h := knows_of_nextIdentity hs hm h
  described {m input e} ts hm h id hid := by
    obtain ⟨bound, agreed, hagree, hidentity, -, -⟩ := exists_agree hg hm ts input (isObject_of_toEntity h)
    rw [hagree, hidentity] at hid
    obtain ⟨-, raw, -, -, hcoerce⟩ := exists_coerceIdentity (hg.distinctNames m hm) h hid
    exact coerceIdentity_self hg hm hcoerce
  overlaid {ts m input raw id record e} hm hcoerce _ _ x hx := by
    obtain ⟨bound, agreed, hagree, hidentity, -, -⟩ :=
      exists_agree hg hm ts input (isObject_merged s m id record e)
    rw [hagree, hidentity, identityOf_merged (Model.coerceIdentity_eq_ok_iff.mp hcoerce).2,
      Option.some.injEq] at hx
    exact hx ▸ coerceIdentity_self hg hm hcoerce
  beforeCreate {m e e'} h hrun := by
    rw [hhooks] at hrun
    exact Except.ok.inj hrun ▸ h
  beforeUpdate {m raw e e'} h hrun := by
    rw [hhooks] at hrun
    exact Except.ok.inj hrun ▸ h
  identified _ _ h hid := .inl (h _ hid)
  stored {ts m e id} hm _ _ hid := shaped_toRecord hg hm e hid fun _ _ _ h => .inl h
  linked hm hr ht hid h := h.linked hg hm hr ht hid
  unlinked id hm hr h := h.unlinked hg hm hr id

/-- Whatever is called, with entities that are taken as they are no less than with fields, the records
keep their shape, as long as the numbers that are generated are in the range of their type. -/
theorem stored_records_are_shaped {definitions : List ModelDefinition} {g : Registry}
    (hresolved : Registry.ofDefinitions definitions = .ok g) {calls : List (Service × Write)}
    (hcalls : ∀ c ∈ calls, c.1.registry = g ∧ c.1.hooks = .none ∧ c.1.GivesUuids)
    (hrange : ∀ m ∈ g.models, m.identityGenerated = true → m.identityType.isIntegral = true →
      m.identityType.holds ((afterCalls calls).tables.table m.path).sequence = true)
    (hm : m ∈ g.models) (hrecord : record ∈ (afterCalls calls).tables.records m.path) :
    g.Shaped (fun m id => m.coerceIdentity id = .ok id) m record ∧
      ∀ r ∈ m.relations, r.isOwning = false → record.get? r.name = none := by
  have hg := coherent_of_ofDefinitions hresolved
  have hmeets : g.Meets (.shape g) (afterCalls calls).tables := by
    refine meets_afterCalls hg fun c hc => ?_
    obtain ⟨rfl, hhooks, huuids⟩ := hcalls c hc
    exact ⟨rfl, upholds_shape hg hhooks huuids⟩
  have haccepts : ∀ n ∈ g.models, ∀ id, (afterCalls calls).tables.Knows n id →
      n.coerceIdentity id = .ok id :=
    fun n hn id h => h.coerceIdentity (hrange n hn)
  obtain ⟨key, hrow⟩ := Tables.mem_records_iff.mp hrecord
  have hshaped := (hmeets m hm key record hrow).mono (haccepts m hm) haccepts
  exact ⟨hshaped, fun r hr ho => hshaped.get?_inverse hg hm hr ho⟩

end Service

namespace Club

def friendship : List (Service × Write) :=
  [(service, .create "members" (.fields [("name", .str "Ada")])),
    (service, .create "members" (.entity (.ofPairs [("name", .str "Bo"),
      ("friends", .arr [.ofNat 1, .ofPairs [("id", .ofNat 1), ("name", .str "Eve")]])]))),
    (service, .link "members" (.ofNat 1) "friends" (.str "2")),
    (service, .update "members" (.str "1") (.fields [("menteesIds", .arr [.ofNat 2])]))]

end Club

namespace Service

theorem member_with_friend_is_shaped :
    let record := Json.ofPairs [("friends", .arr [.ofNat 1]), ("id", .ofNat 2),
      ("mentor", .ofNat 1), ("name", .str "Bo")]
    Club.service.registry.Shaped (fun m id => m.coerceIdentity id = .ok id) Club.member record ∧
      ∀ r ∈ Club.member.relations, r.isOwning = false → record.get? r.name = none := by
  have hresolved : Registry.ofDefinitions Club.definitions = .ok Club.service.registry := by rfl
  have hcalls : ∀ c ∈ Club.friendship, c.1.registry = Club.service.registry ∧
      c.1.hooks = .none ∧ c.1.GivesUuids := by
    have huuids : Club.service.GivesUuids := by
      intro m hm _ ht
      rw [List.mem_singleton.mp hm] at ht
      cases ht
    intro c hc
    simp only [Club.friendship, List.mem_cons, List.not_mem_nil, or_false] at hc
    rcases hc with rfl | rfl | rfl | rfl <;> exact ⟨rfl, rfl, huuids⟩
  have hrange : ∀ m ∈ Club.service.registry.models, m.identityGenerated = true →
      m.identityType.isIntegral = true → m.identityType.holds
        ((afterCalls Club.friendship).tables.table m.path).sequence = true := by
    intro m hm _ _
    rw [List.mem_singleton.mp hm]
    decide +kernel
  exact stored_records_are_shaped hresolved hcalls hrange (.head _)
    (List.mem_of_getElem? (i := 1) rfl)

end Service

end EntityGraph
