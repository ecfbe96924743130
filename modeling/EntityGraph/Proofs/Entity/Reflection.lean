import EntityGraph.Proofs.Entity.Agreement
import EntityGraph.Proofs.Entity.Naming
import EntityGraph.Store.UnitOfWork

namespace EntityGraph

/-- A change of embedded entities that gives them at most the field that leads back. -/
def Relation.LeadsBack (r : Relation) (f : Json → Json) : Prop :=
  ∀ other, f other = other ∨ ∃ field v, r.counterpart = some field ∧ f other = other.set field v

namespace Registry

variable {g : Registry} {ts : Tables} {m target : Model} {r : Relation} {snapshot payload e e' : Json}
  {s s' : Agreement} {f : Json → Json}

/-- The change that a relation makes of the entities that it embeds: the snapshot goes to their side of
the relation, if they have one. -/
inductive Reflects (g : Registry) (m : Model) (snapshot : Json) (r : Relation) : (Json → Json) → Prop
  | alone (hc : r.counterpart = none) : Reflects g m snapshot r id
  | paired {name : String} {target : Model} {counter : Relation} (hc : r.counterpart = some name)
      (ht : g.get? r.target = some target) (hcounter : counterRelation target name = .ok counter) :
      Reflects g m snapshot r (reflectInto m name counter.isCollection snapshot)

theorem Reflects.leadsBack (h : g.Reflects m snapshot r f) : r.LeadsBack f := by
  intro other
  cases h with
  | alone hc => exact .inl rfl
  | @paired name target counter hc ht hcounter =>
    exact (reflectInto_eq_or_set m name counter.isCollection snapshot other).imp id
      fun ⟨v, hv⟩ => ⟨name, v, hc, hv⟩

theorem counterRelation_eq_ok_iff {name : String} {counter : Relation} :
    counterRelation target name = .ok counter ↔ target.relation? name = some counter := by
  unfold counterRelation
  cases target.relation? name <;> simp

def reflection? (g : Registry) (m : Model) (snapshot : Json) (r : Relation) : Option (Json → Json) :=
  r.counterpart.bind fun name => (g.get? r.target).bind fun target =>
    (target.relation? name).map fun counter =>
      mapEmbedded (reflectInto m name counter.isCollection snapshot)

def reflected (g : Registry) (m : Model) (snapshot : Json) (r : Relation) (prior : Option Json) :
    Option Json :=
  (g.reflection? m snapshot r).bind prior.map

/-- An agreement of one relation changes what the relation embeds, and nothing else of the entity. -/
theorem entity_of_reflectRelation (h : g.reflectRelation m snapshot r s = .ok s') :
    s'.entity = s.entity.amend r.name (g.reflected m snapshot r) := by
  unfold reflectRelation at h
  unfold Json.amend reflected reflection?
  cases hc : r.counterpart with
  | none =>
    rw [hc] at h
    obtain rfl := Except.ok.inj h
    rfl
  | some name =>
    rw [hc] at h
    obtain ⟨target, ht, h⟩ := bind_eq_ok_iff.mp h
    obtain ⟨counter, hcounter, h⟩ := bind_eq_ok_iff.mp h
    rw [Option.bind_some, target_eq_ok_iff.mp ht, Option.bind_some,
      counterRelation_eq_ok_iff.mp hcounter, Option.map_some, Option.bind_some]
    cases hv : s.entity.get? r.name with
    | none =>
      rw [hv] at h
      obtain rfl := Except.ok.inj h
      rfl
    | some v =>
      rw [hv] at h
      obtain rfl := Except.ok.inj h
      rfl

theorem entity_of_foldlM {rs : List Relation}
    (h : rs.foldlM (fun s r => g.reflectRelation m snapshot r s) s = .ok s') :
    s'.entity = s.entity.amendAll rs (g.reflected m snapshot) := by
  induction rs generalizing s with
  | nil =>
    obtain rfl := pure_eq_ok_iff.mp h
    rfl
  | cons r rest ih =>
    rw [List.foldlM_cons] at h
    obtain ⟨s₁, hstep, h⟩ := bind_eq_ok_iff.mp h
    rw [ih h, entity_of_reflectRelation hstep]
    rfl

theorem exists_reflects_reflected (hg : g.Coherent) (hm : m ∈ g.models) (hr : r ∈ m.relations)
    (snapshot : Json) : ∃ f, g.Reflects m snapshot r f ∧
      ∀ prior, (g.reflected m snapshot r prior).or prior = prior.map (mapEmbedded f) := by
  unfold reflected reflection?
  cases hc : r.counterpart with
  | none =>
    refine ⟨id, .alone hc, fun prior => ?_⟩
    rw [Option.bind_none, Option.bind_none, Option.none_or, funext mapEmbedded_id]
    exact Option.map_id'.symm
  | some name =>
    obtain ⟨target, ht⟩ := hg.exists_target hm hr
    obtain ⟨counter, hcounter, -⟩ := exists_counter hg hm hr ht hc
    refine ⟨_, .paired hc ht hcounter, fun prior => ?_⟩
    rw [Option.bind_some, ht, Option.bind_some, counterRelation_eq_ok_iff.mp hcounter,
      Option.map_some, Option.bind_some]
    cases prior <;> rfl

theorem exists_reflects (hg : g.Coherent) (hm : m ∈ g.models) (e : Json) :
    ∃ s, g.reflect m e = .ok s ∧
      (∀ name, (∀ r ∈ m.relations, r.name ≠ name) → s.entity.get? name = e.get? name) ∧
      ∀ r ∈ m.relations, ∃ f, g.Reflects m (m.snapshot e) r f ∧
        s.entity.get? r.name = (e.get? r.name).map (mapEmbedded f) := by
  obtain ⟨e', hrun, -⟩ := exists_reflect hg hm e
  have hentity : e' = e.amendAll m.relations (g.reflected m (m.snapshot e)) := entity_of_foldlM hrun
  refine ⟨_, hrun, fun name hn => hentity ▸ e.get?_amendAll_of_ne hn _, fun r hr => ?_⟩
  obtain ⟨f, hf, hor⟩ := exists_reflects_reflected hg hm hr (m.snapshot e)
  refine ⟨f, hf, ?_⟩
  rw [← hor, hentity]
  by_cases he : e.IsObject
  · exact Json.get?_amendAll_self (hg.nodup_relation_names hm) hr he _
  · have hnone : e.get? r.name = none :=
      Option.eq_none_iff_forall_ne_some.mpr fun v hv => he (Json.isObject_of_get? hv)
    rw [Json.amendAll_of_not_isObject he, hnone, hor]
    rfl

structure BindsTo (g : Registry) (ts : Tables) (target : Model) (r : Relation) (payload : Json)
    (prior held : Option Json) : Prop where
  one : r.isCollection = false → g.BindsOne ts target r payload prior held
  many : r.isCollection = true → g.BindsMany ts target r payload prior held

/-- Every relation of an entity holds what the payload names, and every embedded entity is as it was bound
but for its side of the relation. Nothing fails for a reference that names no record, and the tables stay
as they are. -/
theorem relations_hold_what_is_named {definitions : List ModelDefinition}
    (hresolved : ofDefinitions definitions = .ok g) (hm : m ∈ g.models) (ts : Tables)
    (he : e.IsObject) (members : List (String × Json)) :
    ∃ s, g.agreement ts m e (.fields members) = .ok s ∧
      (UnitOfWork.read fun ts => g.agree ts m e (.fields members)).run ts = (.ok s, ts) ∧
      (∀ name, (∀ r ∈ m.relations, r.name ≠ name) → s.entity.get? name = e.get? name) ∧
      ∀ r ∈ m.relations, ∃ target, g.get? r.target = some target ∧
        ∃ held, g.BindsTo ts target r (.obj members) (e.get? r.name) held ∧
          ∃ f, r.LeadsBack f ∧ s.entity.get? r.name = held.map (mapEmbedded f) := by
  have hg := coherent_of_ofDefinitions hresolved
  obtain ⟨bound, hbind, hbound⟩ := exists_binds hg hm ts (.obj members) he
  obtain ⟨s, hreflect, hothers, hrelated⟩ := exists_reflects hg hm bound
  have hagreement : g.agreement ts m e (.fields members) = .ok s :=
    bind_eq_ok_iff.mpr ⟨bound, hbind, hreflect⟩
  refine ⟨s, hagreement, ?_, fun name hn => ?_, fun r hr => ?_⟩
  · rw [UnitOfWork.run_read, agree, hagreement]
    rfl
  · rw [hothers name hn, hbound.others name hn]
  · obtain ⟨target, ht⟩ := hg.exists_target hm hr
    obtain ⟨f, hf, hget⟩ := hrelated r hr
    exact ⟨target, ht, _, ⟨fun hone => bindsOne_bound? hone _, fun hmany => bindsMany_bound? hmany _⟩,
      f, hf.leadsBack, by rw [hget, hbound.related r hr target ht]⟩

end Registry

namespace School

def tables : Tables :=
  let students := Table.empty.put (.int 1) (.ofPairs [("id", .ofNat 1), ("name", .str "Ada")])
  let courses := (Table.empty.put (.text "M1") (.ofPairs [("code", .str "M1")])).put (.text "P2")
    (.ofPairs [("code", .str "P2")])
  (Tables.empty.set "students" students).set "courses" courses

/-- There is a tutor with the number that is given by name and none with the other one. Of the courses
one is given twice, and one does not exist. -/
def choices : List (String × Json) :=
  [("courses", .null), ("coursesIds", .arr [.str "P2", .ofPairs [("code", .str "M1")], .str "X9",
    .str "P2"]), ("tutor", .str "1"), ("tutorId", .ofNat 9)]

end School

namespace Registry

open School

/-- A new student holds the tutor who exists and the courses that exist, each of these once. -/
theorem choices_of_student_are_held :
    ∃ s, registry.agreement tables student (.ofPairs [("name", .str "Bo")]) (.fields choices) = .ok s ∧
      s.entity.get? "name" = some (.str "Bo") ∧
      (∃ held, registry.BindsOne tables student tutor (.obj choices) none held ∧
        ∃ f, tutor.LeadsBack f ∧ s.entity.get? "tutor" = held.map (mapEmbedded f)) ∧
      (s.entity.get "tutor").get "name" = .str "Ada" ∧
      (s.entity.get "courses").items.map (·.get "code") = [.str "P2", .str "M1"] := by
  obtain ⟨s, hs, -, hothers, hrelations⟩ := relations_hold_what_is_named resolved (.head _) tables
    (Json.isObject_ofPairs [("name", .str "Bo")]) choices
  obtain ⟨target, ht, held, hheld, hf⟩ := hrelations tutor (.head _)
  obtain rfl : student = target := Option.some.inj ht
  have hagreed : registry.agreement tables student (.ofPairs [("name", .str "Bo")]) (.fields choices) =
      .ok (registry.agree tables student (.ofPairs [("name", .str "Bo")]) (.fields choices)) := by rfl
  obtain rfl := Except.ok.inj (hagreed.symm.trans hs)
  refine ⟨_, hs, hothers "name" (by decide), ⟨held, hheld.one rfl, hf⟩, by rfl, by rfl⟩

end Registry

end EntityGraph
