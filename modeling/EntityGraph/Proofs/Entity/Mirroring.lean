import EntityGraph.Proofs.Entity.Reflection

namespace EntityGraph

namespace School

/-- A student who is enrolled in a course beside another one, and has a pupil with and one without a
number. -/
def enrolled : Json :=
  .ofPairs [("id", .ofNat 1), ("name", .str "Ada"),
    ("courses", .arr [.ofPairs [("code", .str "M1"),
      ("students", .arr [.ofPairs [("id", .ofNat 4)]])], .null]),
    ("pupils", .arr [.ofPairs [("id", .ofNat 3)], .ofPairs [("name", .str "Bo")]])]

end School

namespace Registry

variable {g : Registry} {m target : Model} {r : Relation} {snapshot e o v : Json} {f : Json → Json}
  {field : String} {many : Bool}

/-- An entity before and after the snapshot has been reflected into one of its fields. A collection has
an entity that is the same as the snapshot, a single field is one. Only where there has been none the
snapshot is added behind the others or takes their place. No other member changes. -/
structure Reflected (m : Model) (field : String) (many : Bool) (snapshot o o' : Json) : Prop where
  isObject : o'.IsObject
  others : ∀ key, field ≠ key → o'.get? key = o.get? key
  contains : many = true → ∃ items, o'.get? field = some (.arr items) ∧
    (items = (o.get field).items ∨ items = (o.get field).items ++ [snapshot] ∧
      ∀ x ∈ (o.get field).items, sameEntity m x snapshot = false) ∧
    ∃ x ∈ items, sameEntity m x snapshot = true
  pointsTo : many = false → ∃ x, o'.get? field = some x ∧
    (o.get? field = some x ∨ x = snapshot ∧
      ∀ y, o.get? field = some y → sameEntity m y snapshot = false) ∧
    sameEntity m x snapshot = true

inductive EachObject (R : Json → Json → Prop) : Json → Json → Prop
  | object {o o' : Json} (ho : o.IsObject) (h : R o o') : EachObject R o o'
  | list {items items' : List Json}
      (h : List.Forall₂ (fun w w' => w.IsObject ∧ R w w' ∨ ¬w.IsObject ∧ w' = w) items items') :
      EachObject R (.arr items) (.arr items')
  | other {v : Json} (ho : ¬v.IsObject) (hlist : ∀ items, v ≠ .arr items) : EachObject R v v

theorem reflectInto_eq_amend (m : Model) (field : String) (many : Bool) (snapshot o : Json) :
    reflectInto m field many snapshot o = o.amend field fun prior =>
      if many then some (.arr (insertNew (sameEntity m) (prior.getD .null).items snapshot))
      else if prior.any (sameEntity m · snapshot) then none else some snapshot := by
  by_cases ho : o.IsObject
  · obtain ⟨members, rfl⟩ := ho
    unfold reflectInto Json.amend
    cases many with
    | true => rfl
    | false =>
      dsimp only
      rw [if_neg Bool.false_ne_true, if_neg Bool.false_ne_true]
      cases (Json.obj members).get? field with
      | none => rfl
      | some x =>
        rw [Option.any_some]
        dsimp only
        split <;> rfl
  · rw [reflectInto_of_not_isObject ho, Json.amend_of_not_isObject ho]

theorem reflected_reflectInto (m : Model) (field : String) (many : Bool) (snapshot : Json)
    (ho : o.IsObject) : Reflected m field many snapshot o (reflectInto m field many snapshot o) := by
  have hsnapshot := sameEntity_self m snapshot
  rw [reflectInto_eq_amend]
  refine ⟨ho.amend _ _, fun key hkey => o.get?_amend_of_ne hkey _, fun hmany => ?_, fun hone => ?_⟩
  · subst hmany
    refine ⟨_, Json.get?_amend_self ho field _, ?_, exists_same_insertNew _ hsnapshot⟩
    unfold insertNew
    split
    · exact .inl rfl
    · next hany =>
      exact .inr ⟨rfl, fun x hx => Bool.eq_false_iff.mpr fun hsame =>
        hany (List.any_eq_true.mpr ⟨x, hx, hsame⟩)⟩
  · subst hone
    rw [Json.get?_amend_self ho, if_neg Bool.false_ne_true]
    cases o.get? field with
    | none => exact ⟨snapshot, rfl, .inr ⟨rfl, nofun⟩, hsnapshot⟩
    | some x =>
      rw [Option.any_some]
      split
      · next hsame => exact ⟨x, rfl, .inl rfl, hsame⟩
      · next hother =>
        refine ⟨snapshot, rfl, .inr ⟨rfl, fun y hy => ?_⟩, hsnapshot⟩
        obtain rfl := Option.some.inj hy
        exact Bool.eq_false_iff.mpr hother

theorem eachObject_mapEmbedded {R : Json → Json → Prop} (hobject : ∀ o, o.IsObject → R o (f o))
    (hother : ∀ w, ¬w.IsObject → f w = w) (v : Json) : EachObject R v (mapEmbedded f v) := by
  cases v with
  | obj members => exact .object (Json.isObject_obj members) (hobject _ (Json.isObject_obj members))
  | arr items =>
    refine .list (List.forall₂_map_right_iff.mpr (List.forall₂_same.mpr fun w _ => ?_))
    by_cases hw : w.IsObject
    · exact .inl ⟨hw, hobject w hw⟩
    · exact .inr ⟨hw, hother w hw⟩
  | _ => exact .other nofun nofun

/-- An agreement that an entity comes to by itself. -/
structure Mirrored (g : Registry) (m : Model) (e : Json) (s : Agreement) : Prop where
  isObject : e.IsObject → s.entity.IsObject
  /-- Members other than relations that have a counterpart. -/
  others : ∀ key, (∀ r ∈ m.relations, r.counterpart ≠ none → r.name ≠ key) →
    s.entity.get? key = e.get? key
  related : ∀ r ∈ m.relations, ∀ name, r.counterpart = some name → ∃ target counter,
    g.get? r.target = some target ∧ target.relation? name = some counter ∧
      Option.Rel (EachObject (Reflected m name counter.isCollection (m.snapshot e)))
        (e.get? r.name) (s.entity.get? r.name)
  /-- The links in the order of the relations and of what these embed. -/
  pending : ∃ links : Relation → List BackLink, s.pending = m.relations.flatMap links ∧
    ∀ r ∈ m.relations, (r.mappedBy = none → links r = []) ∧
      ∀ owner, r.mappedBy = some owner → ∃ target counter,
        g.get? r.target = some target ∧ target.relation? owner = some counter ∧
          links r = (embedded (e.get r.name)).filterMap fun o =>
            (target.identityOf o).map fun id => ⟨target.path, id, owner, counter.isCollection⟩

theorem exists_backLinks_eq (hg : g.Coherent) (hm : m ∈ g.models) (hr : r ∈ m.relations) (e : Json)
    {owner : String} (howner : r.mappedBy = some owner) : ∃ target counter,
      g.get? r.target = some target ∧ target.relation? owner = some counter ∧
        g.backLinks e r = (embedded (e.get r.name)).filterMap fun o =>
          (target.identityOf o).map fun id => ⟨target.path, id, owner, counter.isCollection⟩ := by
  obtain ⟨target, ht⟩ := hg.exists_target hm hr
  have hc : r.counterpart = some owner := by rw [Relation.counterpart, howner, Option.some_or]
  obtain ⟨counter, hcounter, -⟩ := exists_counter hg hm hr ht hc
  have hfound := counterRelation_eq_ok_iff.mp hcounter
  refine ⟨target, counter, ht, hfound, ?_⟩
  rw [backLinks, howner, ht]
  dsimp only
  rw [hfound, Option.map_some, Option.getD_some, Model.identitiesOf, List.map_filterMap]

/-- All entities that the root embeds reflect it, as far as their relation has another side, and everything
else is left alone. -/
theorem embedded_entities_reflect_root {definitions : List ModelDefinition}
    (hresolved : ofDefinitions definitions = .ok g) (hm : m ∈ g.models) (ts : Tables) (e given : Json) :
    ∃ s, g.agreement ts m e (.entity given) = .ok s ∧ g.agree ts m e (.entity given) = s ∧
      g.Mirrored m e s := by
  have hg := coherent_of_ofDefinitions hresolved
  obtain ⟨s, hreflect, hothers, hrelated⟩ := exists_reflects hg hm e
  obtain ⟨e', hlinks, hmirrors⟩ := exists_reflect hg hm e
  obtain rfl := Except.ok.inj (hlinks.symm.trans hreflect)
  have hagreement : g.agreement ts m e (.entity given) = .ok _ := hreflect
  refine ⟨_, hagreement, agree_eq hagreement, hmirrors.isObject, fun key hkey => ?_,
    fun r hr name hname => ?_, g.backLinks e, rfl, fun r hr => ⟨backLinks_of_owning g e, fun owner ho =>
      exists_backLinks_eq hg hm hr e ho⟩⟩
  · by_cases hrelation : ∃ r ∈ m.relations, r.name = key
    · -- a relation without another side is reflected nowhere
      obtain ⟨r, hr, rfl⟩ := hrelation
      obtain ⟨f, hf, hget⟩ := hrelated r hr
      cases hf with
      | alone hc =>
        rw [hget, funext mapEmbedded_id]
        exact Option.map_id'
      | paired hc ht hcounter => exact absurd rfl (hkey r hr (by rw [hc]; nofun))
    · exact hothers key fun r hr he => hrelation ⟨r, hr, he⟩
  · obtain ⟨f, hf, hget⟩ := hrelated r hr
    cases hf with
    | alone hc => cases hc.symm.trans hname
    | @paired other target counter hc ht hcounter =>
      obtain rfl := Option.some.inj (hc.symm.trans hname)
      refine ⟨target, counter, ht, counterRelation_eq_ok_iff.mp hcounter, ?_⟩
      rw [hget]
      cases e.get? r.name with
      | none => exact .none
      | some slot =>
        exact .some (eachObject_mapEmbedded
          (fun o ho => reflected_reflectInto m _ counter.isCollection (m.snapshot e) ho)
          (fun _ hw => reflectInto_of_not_isObject hw m _ _ _) slot)

open School in
/-- Of a student with courses and pupils each course lists the student, and each pupil has the student as
tutor. What is no course stays as it is, and there is a link for the pupil who has a number. -/
theorem courses_and_pupils_reflect_student :
    ∃ s, registry.agreement tables student enrolled (.entity .null) = .ok s ∧
      registry.Mirrored student enrolled s ∧
      s.entity.get "courses" = .arr [.ofPairs [("code", .str "M1"), ("students",
        .arr [.ofPairs [("id", .ofNat 4)], .ofPairs [("id", .ofNat 1), ("name", .str "Ada")]])], .null] ∧
      (s.entity.get "pupils").items.map (·.get "tutor") =
        [.ofPairs [("id", .ofNat 1), ("name", .str "Ada")],
          .ofPairs [("id", .ofNat 1), ("name", .str "Ada")]] ∧
      s.pending = [⟨"students", .ofNat 3, "tutor", false⟩] := by
  obtain ⟨s, hs, rfl, hmirrored⟩ :=
    embedded_entities_reflect_root resolved (.head _) tables enrolled .null
  exact ⟨_, hs, hmirrored, by rfl, by rfl, by rfl⟩

end Registry

end EntityGraph
