import EntityGraph.Proofs.Entity.Record
import EntityGraph.Proofs.Model.Resolution

namespace EntityGraph

namespace Model

variable {m target : Model} {r : Relation} {record full : Json}

/-- A record with a slot for every owning relation, empty where another record has none, and equal to that
record otherwise. -/
structure Completes (m : Model) (record full : Json) : Prop where
  keeps : ∀ name v, record.get? name = some v → full.get? name = some v
  adds : ∀ name v, record.get? name = none →
    (full.get? name = some v ↔ ∃ r ∈ m.owning, r.name = name ∧ v = r.empty)

theorem embed_null (target : Model) (r : Relation) : target.embed r .null = r.empty := by
  unfold Relation.empty embed
  cases r.isCollection <;> rfl

theorem embed_empty (target : Model) (r : Relation) :
    target.embed r r.empty = target.embed r .null := by
  unfold Relation.empty embed
  cases r.isCollection <;> rfl

theorem slotOf_empty (target : Model) (r : Relation) : target.slotOf r r.empty = r.empty := by
  unfold Relation.empty
  cases hmany : r.isCollection with
  | true =>
    rw [if_pos rfl, slotOf_of_collection hmany]
    rfl
  | false =>
    rw [if_neg Bool.false_ne_true, slotOf_of_single hmany, referenceId?_null]
    rfl

section Slots

variable (ht : ModelDefinition.isIdentityType target.identityType = true)

include ht

theorem identity?_of_mem_slotOf {v x : Json} (hx : x ∈ (target.slotOf r v).references) :
    target.identity? x = some x := by
  cases hmany : r.isCollection with
  | true =>
    rw [slotOf_of_collection hmany, Json.references_arr] at hx
    obtain ⟨w, -, hw⟩ := List.mem_filterMap.mp (mem_of_mem_distinctBy hx)
    exact (isIdentity_of_referenceId? ht hw).2
  | false =>
    rw [slotOf_of_single hmany] at hx
    cases hv : target.referenceId? v with
    | none =>
      rw [hv] at hx
      cases hx
    | some y =>
      obtain ⟨hform, hself⟩ := isIdentity_of_referenceId? ht hv
      rw [hv, Option.getD_some, hform.references_eq, List.mem_singleton] at hx
      exact hx ▸ hself

theorem slotOf_embed_slotOf (r : Relation) (v : Json) :
    target.slotOf r (target.embed r (target.slotOf r v)) = target.slotOf r v := by
  refine slotOf_embed (fitsSlot_slotOf ht r v) (fun x hx => identity?_of_mem_slotOf ht hx) fun hmany => ?_
  rw [slotOf_of_collection hmany]
  exact fun h => nomatch h

end Slots

end Model

namespace Registry

variable {g : Registry} {m target : Model} {r : Relation} {record other : Json}

theorem fromRecord_congr (hid : m.identityOf record = m.identityOf other)
    (hattributes : ∀ a ∈ m.attributes, record.get? a.name = other.get? a.name)
    (hslots : ∀ r ∈ m.owning, ∀ target, g.get? r.target = some target →
      target.embed r (record.get r.name) = target.embed r (other.get r.name)) :
    g.fromRecord m record = g.fromRecord m other := by
  have hparts : m.owning.filterMap (g.entityPart record) = m.owning.filterMap (g.entityPart other) := by
    refine List.filterMap_congr fun r hr => ?_
    unfold entityPart
    cases ht : g.get? r.target with
    | none => rfl
    | some target => rw [Option.map_some, Option.map_some, hslots r hr target ht]
  rw [fromRecord_eq, fromRecord_eq, Model.scalars_congr hid hattributes, hparts]

namespace Coherent

variable (hg : g.Coherent) (hm : m ∈ g.models)

include hg hm

theorem get?_toRecord_identity (entity : Json) :
    (g.toRecord m entity).get? m.identity = m.identityOf entity :=
  Model.get?_parts_identity (hg.distinctNames m hm) fst_of_recordPart entity

theorem get?_toRecord_fromRecord (entity : Json) (hr : r ∈ m.owning) :
    (g.toRecord m (g.fromRecord m (g.toRecord m entity))).get? r.name =
      some (((g.toRecord m entity).get? r.name).getD r.empty) := by
  obtain ⟨target, ht⟩ := hg.exists_target hm (List.mem_filter.mp hr).1
  have htype := hg.identityTypes target (hg.target_path hm (List.mem_filter.mp hr).1 ht).1
  rw [hg.get?_toRecord hm _ hr ht, hg.get?_fromRecord hm _ hr ht, Option.map_some, Json.get,
    hg.get?_toRecord hm entity hr ht]
  cases entity.get? r.name with
  | none => exact congrArg some (by rw [Option.map_none, Option.getD_none, Option.getD_none,
      target.embed_null, target.slotOf_empty])
  | some v => exact congrArg some (Model.slotOf_embed_slotOf htype r v)

theorem get?_toRecord_fromRecord_of_mem (entity : Json) {name : String}
    (hname : name ∈ m.identity :: m.attributes.map Attribute.name) :
    (g.toRecord m (g.fromRecord m (g.toRecord m entity))).get? name = (g.toRecord m entity).get? name := by
  rcases List.mem_cons.mp hname with rfl | hname
  · rw [hg.get?_toRecord_identity hm, hg.identityOf_fromRecord hm, hg.identityOf_toRecord hm,
      hg.get?_toRecord_identity hm]
  · obtain ⟨a, ha, rfl⟩ := List.mem_map.mp hname
    rw [hg.get?_toRecord_attribute hm _ ha, hg.get?_fromRecord_attribute hm _ ha]

theorem completes_toRecord_fromRecord (entity : Json) : m.Completes (g.toRecord m entity)
    (g.toRecord m (g.fromRecord m (g.toRecord m entity))) := by
  refine ⟨fun name v hv => ?_, fun name v hnone => ⟨fun hv => ?_, ?_⟩⟩
  · have hname := declared_of_isSome_toRecord (Option.isSome_of_mem hv)
    rcases List.mem_append.mp hname with hname | hname
    · rw [hg.get?_toRecord_fromRecord_of_mem hm entity hname, hv]
    · obtain ⟨r, hr, rfl⟩ := List.mem_map.mp hname
      rw [hg.get?_toRecord_fromRecord hm entity hr, hv, Option.getD_some]
  · have hname := declared_of_isSome_toRecord (Option.isSome_of_mem hv)
    rcases List.mem_append.mp hname with hname | hname
    · rw [hg.get?_toRecord_fromRecord_of_mem hm entity hname, hnone] at hv
      cases hv
    · obtain ⟨r, hr, rfl⟩ := List.mem_map.mp hname
      rw [hg.get?_toRecord_fromRecord hm entity hr, hnone, Option.getD_none] at hv
      exact ⟨r, hr, rfl, (Option.some.inj hv).symm⟩
  · rintro ⟨r, hr, rfl, rfl⟩
    rw [hg.get?_toRecord_fromRecord hm entity hr, hnone, Option.getD_none]

theorem fromRecord_toRecord_fromRecord (entity : Json) :
    g.fromRecord m (g.toRecord m (g.fromRecord m (g.toRecord m entity))) =
      g.fromRecord m (g.toRecord m entity) := by
  refine fromRecord_congr ?_ (fun a ha => ?_) fun r hr target ht => ?_
  · rw [hg.identityOf_toRecord hm, hg.identityOf_fromRecord hm]
  · exact hg.get?_toRecord_fromRecord_of_mem hm entity
      (List.mem_cons_of_mem _ (List.mem_map_of_mem ha))
  · rw [Json.get, hg.get?_toRecord_fromRecord hm entity hr, Json.get]
    cases (g.toRecord m entity).get? r.name with
    | none => exact target.embed_empty r
    | some slot => rfl

end Coherent

/-- The entity of a record is the entity of what it comes back as, which says all that the record says,
and beyond that only that nothing is referred to where the record does not say what is. -/
theorem records_round_trip {definitions : List ModelDefinition}
    (hresolved : ofDefinitions definitions = .ok g) (hm : m ∈ g.models) (entity : Json) :
    let record := g.toRecord m entity
    let again := g.toRecord m (g.fromRecord m record)
    g.fromRecord m again = g.fromRecord m record ∧ m.Completes record again := by
  have hg := coherent_of_ofDefinitions hresolved
  exact ⟨hg.fromRecord_toRecord_fromRecord hm entity, hg.completes_toRecord_fromRecord hm entity⟩

end Registry

namespace School

/-- A student who names a course by its code, by an object and by something that is no course. -/
def ada : Json :=
  .ofPairs [("name", .str "Ada"), ("courses", .arr [.str "M1", .ofPairs [("code", .str "M1")],
    .null, .str "P2"])]

end School

namespace Registry

open School

/-- Of the courses each comes back once, and the tutor who was not named comes back as none. -/
theorem courses_of_ada_round_trip :
    let record := registry.toRecord student ada
    let again := registry.toRecord student (registry.fromRecord student record)
    registry.fromRecord student again = registry.fromRecord student record ∧
      record.get? "courses" = some (.arr [.str "M1", .str "P2"]) ∧
        again.get? "courses" = some (.arr [.str "M1", .str "P2"]) ∧
          record.get? "tutor" = none ∧ again.get? "tutor" = some .null := by
  obtain ⟨hentity, hkeeps, hadds⟩ := records_round_trip resolved (.head _) ada
  have hcourses : (registry.toRecord student ada).get? "courses" =
      some (.arr [.str "M1", .str "P2"]) := by rfl
  have htutor : (registry.toRecord student ada).get? "tutor" = none := by rfl
  exact ⟨hentity, hcourses, hkeeps "courses" _ hcourses, htutor,
    (hadds "tutor" .null htutor).mpr ⟨tutor, .head _, rfl, rfl⟩⟩

end Registry

end EntityGraph
