import EntityGraph.Proofs.Entity.Agreement

namespace EntityGraph

namespace Registry

variable {g : Registry} {ts ts' : Tables} {target : Model} {r : Relation} {reference raw v x : Json}
  (hg : g.Coherent) (hts : g.AllFit ts) (htm : target ∈ g.models)

include hg hts htm

theorem identityOf_fetch?_eq_some_iff : (g.fetch? ts target reference).bind target.identityOf = some x ↔
    target.referenceId? reference = some x ∧ ts.Stored target.path x := by
  have hidentity {y record : Json} (hy : target.referenceId? reference = some y)
      (hfind : ts.find? target.path y = some record) :
      target.identityOf (g.fromRecord target record) = some y := by
    have hform := (Model.isIdentity_of_referenceId? (hg.identityTypes target htm) hy).1
    rw [hg.identityOf_fromRecord htm, hts.identityOf_of_find? htm hform hfind]
  unfold fetch?
  constructor
  · intro h
    obtain ⟨found, hfound, hx⟩ := Option.bind_eq_some_iff.mp h
    obtain ⟨record, hrecord, rfl⟩ := Option.map_eq_some_iff.mp hfound
    obtain ⟨y, hy, hfind⟩ := Option.bind_eq_some_iff.mp hrecord
    obtain rfl := Option.some.inj ((hidentity hy hfind).symm.trans hx)
    exact ⟨hy, Tables.stored_of_find? hfind⟩
  · rintro ⟨hx, hst⟩
    obtain ⟨record, hfind⟩ := Option.isSome_iff_exists.mp hst
    rw [hx, Option.bind_some, hfind, Option.map_some, Option.bind_some, hidentity hx hfind]

theorem identitiesOf_fetchAll_eq (references : List Json) :
    target.identitiesOf (g.fetchAll ts target references) = distinctBy Json.sameIdentity
      (references.filterMap fun reference => (g.fetch? ts target reference).bind target.identityOf) := by
  rw [fetchAll, Model.identitiesOf_arr, ← List.filterMap_filterMap]
  refine filterMap_distinctBy (fun found hfound => ?_) fun a _ b _ y z hy hz => by
    rw [sameEntity, hy, hz]
  obtain ⟨reference, -, hfound⟩ := List.mem_filterMap.mp hfound
  obtain ⟨x, -, hx, -⟩ := found_of_fetch? hg hts htm hfound
  exact ⟨x, hx⟩

theorem map_identitiesOf_fetch? : (g.fetch? ts target reference).map target.identitiesOf =
    ((g.fetch? ts target reference).bind target.identityOf).map ([·]) := by
  cases hfound : g.fetch? ts target reference with
  | none => rfl
  | some found =>
    obtain ⟨x, hfits, hx, -⟩ := found_of_fetch? hg hts htm hfound
    rw [Option.map_some, Option.bind_some, Model.identitiesOf_of_isObject hfits.1, hx]
    rfl

variable (hts' : g.AllFit ts') (hst : ∀ x, ts'.Stored target.path x ↔ ts.Stored target.path x)

include hts' hst

theorem identityOf_fetch?_eq (reference : Json) : (g.fetch? ts' target reference).bind target.identityOf =
    (g.fetch? ts target reference).bind target.identityOf := by
  apply Option.ext
  intro x
  rw [identityOf_fetch?_eq_some_iff hg hts' htm, identityOf_fetch?_eq_some_iff hg hts htm, hst]

theorem map_identitiesOf_bound? (r : Relation) (raw : Json) :
    (g.bound? ts' target r raw).map target.identitiesOf =
      (g.bound? ts target r raw).map target.identitiesOf := by
  have hone (reference : Json) : (g.fetch? ts' target reference).map target.identitiesOf =
      (g.fetch? ts target reference).map target.identitiesOf := by
    rw [map_identitiesOf_fetch? hg hts' htm, map_identitiesOf_fetch? hg hts htm,
      identityOf_fetch?_eq hg hts htm hts' hst]
  have hall (references : List Json) : target.identitiesOf (g.fetchAll ts' target references) =
      target.identitiesOf (g.fetchAll ts target references) := by
    rw [identitiesOf_fetchAll_eq hg hts' htm, identitiesOf_fetchAll_eq hg hts htm]
    refine congrArg _ (List.filterMap_congr fun reference _ => ?_)
    exact identityOf_fetch?_eq hg hts htm hts' hst reference
  have hidentity (v : Json) : (g.boundByIdentity ts' target r v).map target.identitiesOf =
      (g.boundByIdentity ts target r v).map target.identitiesOf := by
    unfold boundByIdentity
    split
    · rfl
    · exact congrArg some (hall _)
    · exact congrArg some (hall _)
    · exact hone _
  have hname (v : Json) : (g.boundByName ts' target r v).map target.identitiesOf =
      (g.boundByName ts target r v).map target.identitiesOf := by
    unfold boundByName
    split
    · rfl
    · exact congrArg some (hall _)
    · rfl
    · exact hone _
  unfold bound?
  rw [Option.map_or, Option.map_or, Option.map_bind, Option.map_bind, Option.map_bind, Option.map_bind]
  simp only [Function.comp_def, hidentity, hname]

end Registry

end EntityGraph
