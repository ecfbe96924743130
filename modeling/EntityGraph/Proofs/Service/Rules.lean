import EntityGraph.Proofs.Service.Preservation

namespace EntityGraph

/-- The scalars of a record obey their rules; a scalar that is absent counts as null. -/
def Model.Obeys (m : Model) (record : Json) : Prop :=
  ∀ p ∈ m.rules, p.1 ∈ m.attributes.map Attribute.name → p.2.check (record.get p.1) = .ok ()

/-- What is required of the identity and the scalars of records, whatever these refer to. -/
def Requirement.scalars (entity record : Model → Json → Prop) : Requirement where
  identity _ _ _ := True
  entity := entity
  record _ m v := v.IsObject ∧ record m v

def Requirement.rules : Requirement :=
  .scalars (fun _ _ => True) fun m v => m.validated = true → m.Obeys v

theorem check_of_violations {rules : List (String × Rule)} {entity : Json}
    (h : violations rules entity = []) : ∀ p ∈ rules, p.2.check (entity.get p.1) = .ok () := by
  intro p hp
  have hnone := List.filterMap_eq_nil_iff.mp h p hp
  dsimp only at hnone
  split at hnone
  · next hcheck => exact hcheck
  · cases hnone

theorem Model.Obeys.congr {m : Model} {v w : Json} (h : m.Obeys v)
    (hvw : ∀ a ∈ m.attributes, w.get? a.name = v.get? a.name) : m.Obeys w := by
  intro p hp hname
  obtain ⟨a, ha, hn⟩ := List.mem_map.mp hname
  have hget : w.get p.1 = v.get p.1 := by
    rw [Json.get, ← hn, hvw a ha, hn, ← Json.get]
  rw [hget]
  exact h p hp hname

namespace Service

open Registry

variable {s : Service} {m : Model} {e record : Json}

theorem check_of_validate (hv : s.settings.validation = true) (hm : m.validated = true)
    (h : s.validate m e = .ok ()) : ∀ p ∈ m.rules, p.2.check (e.get p.1) = .ok () := by
  have hempty : (s.faults m e).isEmpty = true := by
    unfold validate at h
    split at h
    · next he => exact he
    · cases h
  have hparts := OrderedMap.ofPairs_eq_nil (List.isEmpty_iff.mp hempty)
  have hfields := (List.append_eq_nil_iff.mp hparts).2
  rw [if_pos ⟨hv, hm⟩] at hfields
  exact check_of_violations hfields

theorem tolerates_scalars (hg : s.registry.Coherent) {entity required : Model → Json → Prop}
    (hcongr : ∀ m ∈ s.registry.models, ∀ v w, w.get? m.identity = v.get? m.identity →
      (∀ a ∈ m.attributes, w.get? a.name = v.get? a.name) → required m v → required m w) :
    s.Tolerates (.scalars entity required) where
  growsIdentity _ h := h
  growsRecord _ h := h
  linked {ts m target r record id} hm hr _ _ h := by
    have hrm := (List.mem_filter.mp hr).1
    exact ⟨h.1.linked, hcongr m hm record _ (Json.get?_linked_of_ne h.1 (hg.name_ne_identity hm hrm))
      (fun a ha => Json.get?_linked_of_ne h.1 (hg.name_ne_attribute_name hm hrm ha)) h.2⟩
  unlinked {ts m r record} id hm hr h := by
    have hrm := (List.mem_filter.mp hr).1
    exact ⟨h.1.unlinked, hcongr m hm record _
      (Json.get?_unlinked_of_ne record (hg.name_ne_identity hm hrm))
      (fun a ha => Json.get?_unlinked_of_ne record (hg.name_ne_attribute_name hm hrm ha)) h.2⟩

theorem upholds_rules (hg : s.registry.Coherent) (hv : s.settings.validation = true) :
    s.Upholds .rules where
  toTolerates := tolerates_scalars hg fun _ _ _ _ _ hscalars h hvalidated => (h hvalidated).congr hscalars
  accepted _ _ _ := trivial
  generated _ _ := trivial
  described _ _ _ := trivial
  overlaid _ _ _ _ := trivial
  beforeCreate _ _ := trivial
  beforeUpdate _ _ := trivial
  identified _ _ _ _ := trivial
  stored {ts m e id} hm hvalid _ _ := by
    refine ⟨(isObject_toRecord s.registry m e).set m.identity id, fun hvalidated => ?_⟩
    have hobeys : m.Obeys e := fun p hp _ => check_of_validate hv hvalidated hvalid p hp
    refine hobeys.congr fun a ha => ?_
    rw [Json.get?_set_of_ne _ (hg.attribute_name_ne_identity hm ha).symm,
      hg.get?_toRecord_attribute hm e ha]

/-- Whatever is called and whatever the hooks do, every stored scalar passes the check of its rule. -/
theorem stored_scalars_pass_their_rules {definitions : List ModelDefinition} {g : Registry}
    (hresolved : Registry.ofDefinitions definitions = .ok g) {calls : List (Service × Write)}
    (hcalls : ∀ c ∈ calls, c.1.registry = g ∧ c.1.settings.validation = true) (hm : m ∈ g.models)
    (hvalidated : m.validated = true) {field : String} {rule : Rule}
    (hrule : (field, rule) ∈ m.rules) (hfield : field ∈ m.attributes.map Attribute.name)
    (hrecord : record ∈ (afterCalls calls).tables.records m.path) :
    rule.check (record.get field) = .ok () := by
  have hg := coherent_of_ofDefinitions hresolved
  have hmeets : g.Meets .rules (afterCalls calls).tables :=
    meets_afterCalls hg fun c hc => ⟨(hcalls c hc).1,
      upholds_rules ((hcalls c hc).1 ▸ hg) (hcalls c hc).2⟩
  obtain ⟨key, hrow⟩ := Tables.mem_records_iff.mp hrecord
  exact (hmeets m hm key record hrow).2 hvalidated (field, rule) hrule hfield

end Service

namespace Club

/-- The service with a hook that gives a name to whoever joins. -/
def naming : Service :=
  { service with hooks := { Hooks.none with beforeCreate := fun _ e => .ok (e.set "name" (.str "Ada")) } }

def calls : List (Service × Write) :=
  [(naming, .create "members" (.fields [])), (service, .create "members" (.fields [])),
    (service, .create "members" (.fields [("menteesIds", .arr [.ofNat 1]), ("name", .str "Bo")])),
    (service, .delete "members" (.ofNat 2))]

end Club

namespace Service

theorem name_of_member_passes_its_rule :
    Club.nameRule.check ((Json.ofPairs [("id", .ofNat 1), ("mentor", .null),
      ("name", .str "Ada")]).get "name") = .ok () := by
  have hresolved : Registry.ofDefinitions Club.definitions = .ok Club.service.registry := by rfl
  have hcalls : ∀ c ∈ Club.calls, c.1.registry = Club.service.registry ∧
      c.1.settings.validation = true := by
    intro c hc
    simp only [Club.calls, List.mem_cons, List.not_mem_nil, or_false] at hc
    rcases hc with rfl | rfl | rfl | rfl <;> exact ⟨rfl, rfl⟩
  exact stored_scalars_pass_their_rules (m := Club.member) hresolved hcalls (.head _) rfl (.head _)
    (.head _) (List.mem_singleton_self _)

end Service

end EntityGraph
