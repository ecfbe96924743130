import EntityGraph.Coercion
import EntityGraph.Proofs.Query.Holders

namespace EntityGraph

namespace Tables

variable {ts : Tables} {hop : Hop} {record row : Json}

theorem mem_records_of_mem_follow (h : row ∈ ts.follow hop record) :
    row ∈ ts.records hop.target := by
  have hfound {id : Json} (h : ts.find? hop.target id = some row) : row ∈ ts.records hop.target := by
    obtain ⟨key, -, hrow⟩ := Option.bind_eq_some_iff.mp h
    exact mem_records_iff.mpr ⟨key, hrow⟩
  cases hlink : hop.link with
  | owned many =>
    rw [ts.follow_owned hop hlink] at h
    obtain ⟨id, -, hid⟩ := List.mem_filterMap.mp h
    exact hfound hid
  | mapped owner many =>
    rw [follow, hlink] at h
    dsimp only at h
    split at h
    · cases h
    · exact (List.mem_filter.mp h).1

end Tables

namespace Registry

variable {g : Registry} {ts : Tables} {m target : Model} {path : AccessPath} {dotted : String}
  {segments : List String} {record v : Json}

def Typed (g : Registry) (ts : Tables) : Prop :=
  ∀ m ∈ g.models, ∀ record ∈ ts.records m.path, ∀ name type, m.fieldType? name = some type →
    ∃ raw, coerce? type raw = some (record.get name)

/-- A path leads from the records of one model to those of another, which has the field at its end. -/
structure LeadsTo (m : Model) (path : AccessPath) (target : Model) : Prop where
  fieldType? : target.fieldType? path.field = some path.type
  rows : ∀ (ts : Tables) (front : List Json), (∀ row ∈ front, row ∈ ts.records m.path) →
    ∀ row ∈ path.hops.foldl (fun front hop => front.flatMap (ts.follow hop)) front,
      row ∈ ts.records target.path

theorem LeadsTo.cons {next : Model} {hop : Hop} (h : LeadsTo next path target)
    (hhop : hop.target = next.path) : LeadsTo m (path.cons hop) target := by
  refine ⟨h.fieldType?, fun ts front _ => h.rows ts _ fun row hrow => ?_⟩
  obtain ⟨record, -, hrow⟩ := List.mem_flatMap.mp hrow
  exact hhop ▸ Tables.mem_records_of_mem_follow hrow

theorem leadsTo_toIdentity (m : Model) : LeadsTo m (.toIdentity m) m :=
  ⟨if_pos rfl, fun _ _ h => h⟩

theorem exists_leadsTo (hm : m ∈ g.models) (h : g.pathOfSegments dotted m segments = .ok path) :
    ∃ target ∈ g.models, LeadsTo m path target := by
  induction segments generalizing m path with
  | nil => cases h
  | cons segment rest ih =>
    cases rest with
    | nil =>
      unfold pathOfSegments at h
      split at h
      · next type htype =>
        cases h
        exact ⟨m, hm, htype, fun _ _ h => h⟩
      · obtain ⟨⟨hop, target⟩, hcross, h⟩ := bind_eq_ok_iff.mp h
        obtain ⟨r, -, -, ht, rfl⟩ := cross_eq_ok hcross
        obtain rfl := pure_eq_ok_iff.mp h
        exact ⟨target, (mem_of_get? ht).1, (leadsTo_toIdentity target).cons rfl⟩
    | cons next rest =>
      unfold pathOfSegments at h
      obtain ⟨⟨hop, middle⟩, hcross, h⟩ := bind_eq_ok_iff.mp h
      obtain ⟨r, -, -, ht, rfl⟩ := cross_eq_ok hcross
      obtain ⟨tail, htail, h⟩ := bind_eq_ok_iff.mp h
      obtain rfl := pure_eq_ok_iff.mp h
      obtain ⟨target, htarget, hleads⟩ := ih (mem_of_get? ht).1 htail
      exact ⟨target, htarget, hleads.cons rfl⟩

/-- What a path reaches is null or a result of the type at its end. -/
theorem Typed.exists_coerce?_of_reached (hts : g.Typed ts) (hm : m ∈ g.models)
    (hpath : g.accessPath m dotted = .ok path) (hrecord : record ∈ ts.records m.path)
    (hv : v ∈ ts.reached path record) : ∃ raw, coerce? path.type raw = some v := by
  obtain ⟨target, htarget, htype, hrows⟩ := exists_leadsTo hm hpath
  obtain ⟨row, hrow, rfl⟩ := List.mem_map.mp hv
  have hfront : ∀ row ∈ [record], row ∈ ts.records m.path := fun row h =>
    List.mem_singleton.mp h ▸ hrecord
  exact hts target htarget row (hrows ts [record] hfront row hrow) path.field path.type htype

end Registry

end EntityGraph
