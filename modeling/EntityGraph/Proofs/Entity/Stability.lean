import EntityGraph.Proofs.Entity.Mirroring

namespace EntityGraph

namespace Registry

variable {g : Registry} {m : Model}

theorem reflectInto_reflectInto (m : Model) (field : String) (many : Bool) (snapshot o : Json) :
    reflectInto m field many snapshot (reflectInto m field many snapshot o) =
      reflectInto m field many snapshot o := by
  have hself := sameEntity_self m snapshot
  simp only [reflectInto_eq_amend, Json.amend_amend]
  refine congrArg (o.amend field) (Json.Stable.follow_self fun prior v hv => ?_)
  cases many with
  | true =>
    rw [if_pos rfl] at hv ⊢
    obtain rfl := Option.some.inj hv
    exact congrArg (fun items => some (Json.arr items)) (insertNew_insertNew _ hself)
  | false =>
    rw [if_neg Bool.false_ne_true] at hv ⊢
    split at hv
    · cases hv
    · obtain rfl := Option.some.inj hv
      rw [Option.any_some, if_pos hself, Option.none_or]

theorem mapEmbedded_mapEmbedded {f : Json → Json} (hobject : ∀ v, v.IsObject → (f v).IsObject)
    (hf : ∀ v, f (f v) = f v) (v : Json) : mapEmbedded f (mapEmbedded f v) = mapEmbedded f v := by
  cases v with
  | obj members =>
    obtain ⟨members', h⟩ := hobject _ (Json.isObject_obj members)
    have hv : mapEmbedded f (.obj members) = f (.obj members) := rfl
    rw [hv, h]
    exact (congrArg f h).symm.trans ((hf _).trans h)
  | arr items =>
    refine congrArg Json.arr ?_
    rw [List.map_map]
    exact List.map_congr_left fun v _ => hf v
  | _ => rfl

theorem stable_reflected (g : Registry) (m : Model) (snapshot : Json) (r : Relation) :
    Json.Stable (g.reflected m snapshot r) := by
  intro prior v hv
  obtain ⟨f, hf, hv⟩ := Option.bind_eq_some_iff.mp hv
  obtain ⟨w, rfl, rfl⟩ := Option.map_eq_some_iff.mp hv
  have hagain : g.reflected m snapshot r (some (f w)) = some (f (f w)) := by rw [reflected, hf]; rfl
  obtain ⟨name, -, hf⟩ := Option.bind_eq_some_iff.mp hf
  obtain ⟨target, -, hf⟩ := Option.bind_eq_some_iff.mp hf
  obtain ⟨counter, -, rfl⟩ := Option.map_eq_some_iff.mp hf
  rw [hagain, Option.some_or, mapEmbedded_mapEmbedded
    (fun v hv => reflectInto_eq_amend m name _ snapshot v ▸ hv.amend name _)
    (reflectInto_reflectInto m name _ snapshot)]

def given? (g : Registry) (ts : Tables) (input : EntityInput) (r : Relation) : Option Json :=
  match input with
  | .fields members => g.binding? ts (.obj members) r
  | .entity _ => none

/-- What an agreement makes of a relation: it is bound and then reflected. -/
def settled (g : Registry) (ts : Tables) (m : Model) (snapshot : Json) (input : EntityInput)
    (r : Relation) : Option Json → Option Json :=
  Json.follow (fun _ => g.given? ts input r) (g.reflected m snapshot r)

theorem agreement_eq_reflect (hg : g.Coherent) (hm : m ∈ g.models) (ts : Tables) (e : Json)
    (input : EntityInput) : g.agreement ts m e input =
      g.reflect m (e.amendAll m.relations fun r _ => g.given? ts input r) := by
  cases input with
  | fields members =>
    rw [agreement, bindRelations_eq fun r hr => hg.exists_target hm hr]
    rfl
  | entity given => exact congrArg (g.reflect m) (e.amendAll_none m.relations).symm

theorem snapshot_amendAll (hg : g.Coherent) (hm : m ∈ g.models)
    (change : Relation → Option Json → Option Json) (e : Json) :
    m.snapshot (e.amendAll m.relations change) = m.snapshot e :=
  congrArg Json.ofPairs (Model.scalars_congr
    (Model.identityOf_congr (e.get?_amendAll_of_ne (fun _ hr => hg.name_ne_identity hm hr) change))
    fun _ ha => e.get?_amendAll_of_ne (fun _ hr => hg.name_ne_attribute_name hm hr ha) change)

/-- An agreement changes each relation on its own, and its links are those that the result leaves. -/
theorem exists_agreement (hg : g.Coherent) (hm : m ∈ g.models) (ts : Tables) (e : Json)
    (input : EntityInput) : ∃ s, g.agreement ts m e input = .ok s ∧
      s.entity = e.amendAll m.relations (g.settled ts m (m.snapshot e) input) ∧
      s.pending = m.relations.flatMap (g.backLinks s.entity) := by
  obtain ⟨e', hreflect, hmirrors⟩ :=
    exists_reflect hg hm (e.amendAll m.relations fun r _ => g.given? ts input r)
  refine ⟨_, (agreement_eq_reflect hg hm ts e input).trans hreflect, ?_, ?_⟩
  · refine (entity_of_foldlM hreflect).trans ?_
    -- what is bound does not show in the snapshot that is reflected
    rw [snapshot_amendAll hg hm, Json.amendAll_amendAll (hg.nodup_relation_names hm)]
    rfl
  · exact List.flatMap_congr fun r hr => (hmirrors.backLinks_eq hr).symm

/-- Agreements are stable. A second one with the same input changes nothing and leaves the same links, and
so does one with the result as it is. -/
theorem agreement_is_stable {definitions : List ModelDefinition}
    (hresolved : ofDefinitions definitions = .ok g) (hm : m ∈ g.models) (ts : Tables) (e : Json)
    (input : EntityInput) : ∃ s, g.agreement ts m e input = .ok s ∧ g.agree ts m e input = s ∧
      g.agreement ts m s.entity input = .ok s ∧ g.agree ts m s.entity input = s ∧
      g.agreement ts m s.entity (.entity s.entity) = .ok s ∧
        g.agree ts m s.entity (.entity s.entity) = s := by
  have hg := coherent_of_ofDefinitions hresolved
  obtain ⟨s, hs, hentity, hpending⟩ := exists_agreement hg hm ts e input
  have hsnapshot : m.snapshot s.entity = m.snapshot e := hentity ▸ snapshot_amendAll hg hm _ e
  -- the links of an agreement are those of its entity, so it is enough that the entity stays
  have hsame {input' : EntityInput}
      (h : ∀ r ∈ m.relations, Json.follow (g.settled ts m (m.snapshot e) input r)
        (g.settled ts m (m.snapshot e) input' r) = g.settled ts m (m.snapshot e) input r) :
      g.agreement ts m s.entity input' = .ok s := by
    obtain ⟨s', hs', hentity', hpending'⟩ := exists_agreement hg hm ts s.entity input'
    have heq : s'.entity = s.entity := by
      rw [hentity', hsnapshot, hentity, Json.amendAll_amendAll (hg.nodup_relation_names hm)]
      exact Json.amendAll_congr h e
    rw [heq, ← hpending] at hpending'
    obtain ⟨entity', pending'⟩ := s'
    obtain rfl : entity' = s.entity := heq
    obtain rfl : pending' = s.pending := hpending'
    exact hs'
  have hstable (r : Relation) := stable_reflected g m (m.snapshot e) r
  have hagain : g.agreement ts m s.entity input = .ok s :=
    hsame fun r _ => ((hstable r).follow_const _).follow_self
  have hentityAgain : g.agreement ts m s.entity (.entity s.entity) = .ok s := by
    refine hsame fun r _ => ?_
    have hreflected : g.settled ts m (m.snapshot e) (.entity s.entity) r =
        g.reflected m (m.snapshot e) r := Json.follow_const_none _
    rw [hreflected]
    exact (hstable r).follow_const_self _
  exact ⟨s, hs, agree_eq hs, hagain, agree_eq hagain, hentityAgain, agree_eq hentityAgain⟩

open School in
/-- A new student is recognised by the name alone. The pupil who is bound and the course have the student
once each, and the one link stays the only one. -/
theorem choices_of_new_student_are_stable :
    ∃ s, (s.entity.get "courses").items.map (·.get "students") =
        [.arr [.ofPairs [("name", .str "Bo")]]] ∧
      s.pending = [⟨"students", .ofNat 1, "tutor", false⟩] ∧
      registry.agreement tables student (.ofPairs [("name", .str "Bo")])
        (.fields [("pupilsIds", .ofNat 1), ("coursesIds", .str "P2")]) = .ok s ∧
      registry.agreement tables student s.entity
        (.fields [("pupilsIds", .ofNat 1), ("coursesIds", .str "P2")]) = .ok s ∧
      registry.agreement tables student s.entity (.entity s.entity) = .ok s := by
  obtain ⟨s, hs, rfl, hagain, -, hentityAgain, -⟩ := agreement_is_stable resolved (.head _) tables
    (.ofPairs [("name", .str "Bo")]) (.fields [("pupilsIds", .ofNat 1), ("coursesIds", .str "P2")])
  exact ⟨_, by rfl, by rfl, hs, hagain, hentityAgain⟩

end Registry
end EntityGraph
