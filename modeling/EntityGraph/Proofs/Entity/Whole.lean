import EntityGraph.Proofs.Entity.Input
import EntityGraph.Proofs.Entity.Rebinding

namespace EntityGraph

namespace Registry

open EntityInput

variable {g : Registry} {ts : Tables} {m target : Model} {r : Relation}
  {members : List (String × Json)} {loose bound whole v w raw id : Json}

/-- The members embed stored entities only, by identities that are accepted in some form, and give no
relation under its second key. -/
structure EmbedsStored (g : Registry) (ts : Tables) (m : Model) (members : List (String × Json)) :
    Prop where
  unkeyed : ∀ r ∈ m.relations, (Json.obj members).get? r.identityKey = none
  embeds : ∀ r ∈ m.relations, ∀ v, (Json.obj members).get? r.name = some v → v.Embeds r.isCollection
  stored : ∀ r ∈ m.relations, ∀ target, g.get? r.target = some target →
    ∀ v, (Json.obj members).get? r.name = some v → ∀ w ∈ embedded v,
      ∃ raw id, target.identityOf w = some raw ∧ target.coerceIdentity raw = .ok id ∧
        ts.Stored target.path id

theorem EmbedsStored.erase (h : g.EmbedsStored ts m members) {key : String}
    (hkey : ∀ r ∈ m.relations, r.name ≠ key) :
    g.EmbedsStored ts m (OrderedMap.erase members key) := by
  have hname (r : Relation) (hr : r ∈ m.relations) :
      (Json.obj (OrderedMap.erase members key)).get? r.name = (Json.obj members).get? r.name :=
    OrderedMap.get?_erase_of_ne members (hkey r hr).symm
  refine ⟨fun r hr => ?_, fun r hr v hv => h.embeds r hr v (hname r hr ▸ hv),
    fun r hr target ht v hv => h.stored r hr target ht v (hname r hr ▸ hv)⟩
  by_cases hk : key = r.identityKey
  · exact hk ▸ OrderedMap.get?_erase_self members key
  · exact (OrderedMap.get?_erase_of_ne members hk).trans (h.unkeyed r hr)

section Found

variable (hg : g.Coherent) (hts : g.AllFit ts) (htm : target ∈ g.models)

theorem Found.acceptedIn_eq {many : Bool} (h : Found ts target many w) :
    target.acceptedIn w = target.identitiesOf w := by
  rw [Model.acceptedIn, List.filterMap_congr h.accepted, List.filterMap_some]

include hg hts htm

theorem exists_fetch? (hw : w.IsObject) (hstored : ∃ raw id, target.identityOf w = some raw ∧
    target.coerceIdentity raw = .ok id ∧ ts.Stored target.path id) :
    ∃ found id, g.fetch? ts target w = some found ∧ found.IsObject ∧
      target.identityOf found = some id ∧ (target.identityOf w).bind target.identity? = some id := by
  obtain ⟨raw, id, hraw, hcoerce, hst⟩ := hstored
  obtain ⟨members, rfl⟩ := hw
  obtain ⟨record, hfind⟩ := Option.isSome_iff_exists.mp hst
  have hform := (Model.isIdentity_of_coerceIdentity (hg.identityTypes target htm) hcoerce).1
  have haccepted : (target.identityOf (.obj members)).bind target.identity? = some id := by
    rw [hraw, Option.bind_some, Model.identity?_eq_some_iff.mpr hcoerce]
  refine ⟨g.fromRecord target record, id, ?_, isObject_fromRecord g target record, ?_, haccepted⟩
  · rw [fetch?, Model.referenceId?, haccepted, Option.bind_some, hfind, Option.map_some]
  · rw [hg.identityOf_fromRecord htm, hts.identityOf_of_find? htm hform hfind]

theorem identitiesOf_fetchAll {vs : List Json} (hobjects : ∀ v ∈ vs, v.IsObject)
    (hstored : ∀ v ∈ vs, ∃ raw id, target.identityOf v = some raw ∧
      target.coerceIdentity raw = .ok id ∧ ts.Stored target.path id) :
    target.identitiesOf (g.fetchAll ts target vs) =
      distinctBy Json.sameIdentity (target.acceptedIn (.arr vs)) := by
  rw [identitiesOf_fetchAll_eq hg hts htm, Model.acceptedIn, Model.identitiesOf_arr,
    List.filterMap_filterMap]
  refine congrArg _ (List.filterMap_congr fun u hu => ?_)
  obtain ⟨found, id, hfound, -, hid, haccepted⟩ :=
    exists_fetch? hg hts htm (hobjects u hu) (hstored u hu)
  rw [hfound, Option.bind_some, hid, haccepted]

theorem exists_bound? (hr : r ∈ m.relations) (ht : g.get? r.target = some target)
    (h : g.EmbedsStored ts m members) (hv : (Json.obj members).get? r.name = some v) :
    ∃ w, g.bound? ts target r (.obj members) = some w ∧
      target.identitiesOf w = distinctBy Json.sameIdentity (target.acceptedIn v) := by
  have hbound : g.bound? ts target r (.obj members) = g.boundByName ts target r v := by
    rw [bound?, h.unkeyed r hr, Option.bind_none, Option.none_or, hv, Option.bind_some]
  have hembeds := h.embeds r hr v hv
  have hstored := h.stored r hr target ht v hv
  rw [hbound]
  unfold boundByName
  generalize hmany : r.isCollection = many at hembeds
  cases hembeds with
  | none =>
    refine ⟨r.empty, by cases many <;> rfl, ?_⟩
    unfold Relation.empty
    split <;> rfl
  | one hobject =>
    obtain ⟨ms, rfl⟩ := hobject
    have hobject : (Json.obj ms).IsObject := ⟨ms, rfl⟩
    obtain ⟨found, id, hfound, hfoundObject, hid, haccepted⟩ :=
      exists_fetch? hg hts htm hobject (hstored _ (List.mem_singleton_self _))
    refine ⟨found, hfound, ?_⟩
    rw [Model.acceptedIn, Model.identitiesOf_of_isObject hobject,
      Model.identitiesOf_of_isObject hfoundObject, hid]
    obtain ⟨x, hx, hxid⟩ := Option.bind_eq_some_iff.mp haccepted
    simp only [hx, Option.toList_some, List.filterMap_cons_some hxid]
    rfl
  | @list vs hobjects => exact ⟨_, rfl, identitiesOf_fetchAll hg hts htm hobjects hstored⟩

end Found

section Overlaid

variable (hg : g.Coherent) (hts : g.AllFit ts) (hm : m ∈ g.models)
  (hgiven : g.EmbedsStored ts m members) (hbinds : g.Binds ts m (.obj members) loose bound)
  (hover : Overlays m (.obj members) loose whole)

include hg hts hm hgiven hbinds hover

theorem overlaid_cases (hr : r ∈ m.relations) (ht : g.get? r.target = some target) :
    (bound.get? r.name = loose.get? r.name ∧ whole.get? r.name = loose.get? r.name) ∨
      ∃ v w, whole.get? r.name = some v ∧ bound.get? r.name = some w ∧ v.Embeds r.isCollection ∧
        Found ts target r.isCollection w ∧
          target.identitiesOf w = distinctBy Json.sameIdentity (target.acceptedIn v) := by
  have htm := (hg.target_path hm hr ht).1
  rw [hbinds.related r hr target ht, hover.related r hr]
  cases hv : (Json.obj members).get? r.name with
  | none =>
    rw [bound?, hgiven.unkeyed r hr, hv]
    exact .inl ⟨rfl, rfl⟩
  | some v =>
    obtain ⟨w, hw, hids⟩ := exists_bound? hg hts htm hr ht hgiven hv
    rw [hw]
    exact .inr ⟨v, w, rfl, rfl, hgiven.embeds r hr v hv, found_of_bound? hg hts htm hw, hids⟩

theorem toRecord_eq_of_overlays : g.toRecord m bound = g.toRecord m whole := by
  have hsame (name : String) (hn : ∀ r ∈ m.relations, r.name ≠ name) :
      bound.get? name = whole.get? name :=
    (hbinds.others name hn).trans (hover.others name hn).symm
  refine toRecord_congr (Model.identityOf_congr (hsame _ fun r hr => hg.name_ne_identity hm hr))
    (fun a ha => hsame _ fun r hr => hg.name_ne_attribute_name hm hr ha) fun r hr target ht => ?_
  rcases overlaid_cases hg hts hm hgiven hbinds hover (List.mem_filter.mp hr).1 ht with
    ⟨hbound, hwhole⟩ | ⟨v, w, hv, hw, hembeds, hfound, hids⟩
  · rw [hbound, hwhole]
  · rw [hv, hw, Option.map_some, Option.map_some,
      Model.slotOf_eq_of_acceptedIn hembeds hfound.fits.embeds (hfound.acceptedIn_eq.trans hids)]

/-- An inverse relation, under which there was nothing before, embeds the same identities. -/
theorem identitiesOf_eq_of_overlays (hr : r ∈ m.relations) (ht : g.get? r.target = some target)
    (hnone : loose.get? r.name = none) : target.identitiesOf (bound.get r.name) =
      distinctBy Json.sameIdentity (target.acceptedIn (whole.get r.name)) := by
  rcases overlaid_cases hg hts hm hgiven hbinds hover hr ht with
    ⟨hbound, hwhole⟩ | ⟨v, w, hv, hw, -, -, hids⟩
  · rw [Json.get_of_get?_none (hbound.trans hnone), Json.get_of_get?_none (hwhole.trans hnone)]
    rfl
  · rw [Json.get_of_get? hv, Json.get_of_get? hw, hids]

omit hbinds in
/-- Agreement of the two sides of all relations comes to the same record. -/
theorem exists_agreements (hloose : loose.IsObject)
    (hembeds : ∀ r ∈ m.relations, ∀ v, loose.get? r.name = some v → v.Embeds r.isCollection)
    (given : Json) : ∃ bound e e',
      g.agree ts m loose (.fields members) = ⟨e, m.relations.flatMap (g.backLinks bound)⟩ ∧
      g.agree ts m whole (.entity given) = ⟨e', m.relations.flatMap (g.backLinks whole)⟩ ∧
      g.Binds ts m (.obj members) loose bound ∧ m.identityOf e = m.identityOf loose ∧
        g.toRecord m e' = g.toRecord m e := by
  obtain ⟨bound, e, hagree, hbinds, hmirrors⟩ := exists_agree_fields hg hm ts members hloose
  obtain ⟨e', hagree', hmirrors'⟩ := exists_agree_entity hg hm ts whole given
  have hothers : ∀ r ∈ m.relations, r.name ≠ m.identity := fun r hr => hg.name_ne_identity hm hr
  have hboth (r : Relation) (hr : r ∈ m.owning) :
      (∀ v, bound.get? r.name = some v → v.Embeds r.isCollection) ∧
        ∀ v, whole.get? r.name = some v → v.Embeds r.isCollection := by
    have hrm := (List.mem_filter.mp hr).1
    obtain ⟨target, ht⟩ := hg.exists_target hm hrm
    rcases overlaid_cases hg hts hm hgiven hbinds hover hrm ht with
      ⟨hbound, hwhole⟩ | ⟨v, w, hv, hw, hembeds, hfound, -⟩
    · exact ⟨fun v hv => hembeds r hrm v (hbound ▸ hv), fun v hv => hembeds r hrm v (hwhole ▸ hv)⟩
    · exact ⟨fun u hu => Option.some.inj (hw.symm.trans hu) ▸ hfound.fits.embeds,
        fun u hu => Option.some.inj (hv.symm.trans hu) ▸ hembeds⟩
  refine ⟨bound, e, e', hagree, hagree', hbinds, ?_, ?_⟩
  · rw [Model.identityOf_congr (hmirrors.others m.identity hothers),
      Model.identityOf_congr (hbinds.others m.identity hothers)]
  · rw [hmirrors.toRecord_eq hg hm fun r hr => (hboth r hr).1,
      hmirrors'.toRecord_eq hg hm fun r hr => (hboth r hr).2,
      toRecord_eq_of_overlays hg hts hm hgiven hbinds hover]

end Overlaid

end Registry

end EntityGraph
