import EntityGraph.Proofs.Query.Path
import EntityGraph.Proofs.Store.Rows
import EntityGraph.Query.Compile
import EntityGraph.Store.Evaluation

namespace EntityGraph

/-- A name that a dotted path consists of by itself. -/
def Relation.IsPlain (r : Relation) : Prop :=
  '.' ∉ r.name.toList ∧ Text.trim r.name = r.name

instance (r : Relation) : Decidable r.IsPlain :=
  inferInstanceAs (Decidable (_ ∧ _))

theorem Relation.isPlain_iff {r : Relation} : r.IsPlain ↔ Text.IsSegment r.name :=
  Iff.rfl

namespace Tables

def Stored (ts : Tables) (path : String) (id : Json) : Prop :=
  (ts.find? path id).isSome = true

theorem stored_of_find? {ts : Tables} {path : String} {id record : Json}
    (h : ts.find? path id = some record) : ts.Stored path id := by
  rw [Stored, h]
  rfl

theorem stored_iff {ts : Tables} {path : String} {id : Json} {key : RecordKey}
    (h : RecordKey.of? id = some key) : ts.Stored path id ↔ (ts.row? path key).isSome = true := by
  rw [Stored, find?_eq_row? h]

theorem stored_congr {ts ts' : Tables} {path : String}
    (h : ∀ key, (ts'.row? path key).isSome = (ts.row? path key).isSome) (id : Json) :
    ts'.Stored path id ↔ ts.Stored path id := by
  unfold Stored find?
  cases RecordKey.of? id with
  | none => exact Iff.rfl
  | some key => exact iff_of_eq (congrArg (· = true) (h key))

theorem Rewrites.stored_iff {ts ts' : Tables} {f : String → RecordKey → Json → Json}
    (h : ts.Rewrites ts' f) (path : String) (id : Json) :
    ts'.Stored path id ↔ ts.Stored path id :=
  stored_congr (h.isSome_row? path) id

def identities (ts : Tables) (m : Model) : List Json :=
  (ts.records m.path).filterMap m.identityOf

theorem filterMap_singleton {α β : Type} (f : α → Option β) (a : α) :
    [a].filterMap f = (f a).toList := by
  cases h : f a with
  | none => rw [List.filterMap_cons_none h]; rfl
  | some b => rw [List.filterMap_cons_some h]; rfl

theorem follow_owned (ts : Tables) (hop : Hop) {many : Bool} (h : hop.link = .owned many)
    (record : Json) :
    ts.follow hop record = (record.get hop.relation).references.filterMap (ts.find? hop.target) := by
  rw [follow, h]
  cases record.get hop.relation with
  | null | arr => rfl
  | _ => exact (filterMap_singleton _ _).symm

end Tables

theorem Comparison.satisfied_eq_iff {t : FieldType} {v w : Json} :
    Comparison.eq.satisfied t v w = true ↔ compareAs t v w = some .eq := by
  rw [satisfied]
  cases compareAs t v w with
  | none => simp
  | some o => cases o <;> simp [admits]

namespace Registry

variable {g : Registry} {ts : Tables} {m target : Model} {r : Relation} {id record row : Json}
  {key : RecordKey}

/-- The relations that store references have plain names. -/
def PlainReferences (g : Registry) : Prop :=
  ∀ m ∈ g.models, ∀ r ∈ m.owning, r.IsPlain

instance (g : Registry) : Decidable g.PlainReferences :=
  inferInstanceAs (Decidable (∀ m ∈ g.models, ∀ r ∈ m.owning, r.IsPlain))

def AllFit (g : Registry) (ts : Tables) : Prop :=
  ∀ m ∈ g.models, ∀ key record, ts.row? m.path key = some record → g.Fits m key record

/-- The records that refer to an identity, in the order of their keys. -/
def holders (ts : Tables) (m : Model) (field : String) (id : Json) : List Json :=
  (ts.records m.path).filter fun record => (record.get field).references.any (·.sameIdentity id)

def referencePath (m target : Model) (r : Relation) : AccessPath :=
  (AccessPath.toIdentity target).cons
    ⟨r.name, m.identity, target.path, target.identity, .owned r.isCollection⟩

theorem references_eq (hg : g.Coherent) (hplain : r.IsPlain) (hm : m ∈ g.models)
    (hr : r ∈ m.owning) (ht : g.get? r.target = some target) (id : Json) :
    references g m r.name id = .ok (.compare (referencePath m target r) .eq id) := by
  obtain ⟨hrm, hmapped⟩ := Model.mem_owning_iff.mp hr
  have hlink : r.link = .owned r.isCollection := by rw [Relation.link, hmapped]
  rw [references, accessPath_eq, (Relation.isPlain_iff.mp hplain).segments_eq,
    hg.pathOfSegments_of_relation hm hrm ht, Relation.hop, hlink]
  rfl

theorem reached_reference (ts : Tables) (m target : Model) (r : Relation) (record : Json) :
    ts.reached (referencePath m target r) record =
      ((record.get r.name).references.filterMap (ts.find? target.path)).map
        (Json.get · target.identity) := by
  have hf := ts.follow_owned ⟨r.name, m.identity, target.path, target.identity,
    .owned r.isCollection⟩ rfl record
  change List.map _ (ts.follow _ record ++ []) = _
  rw [List.append_nil, hf]
  rfl

/-- A record that is found has the identity by which it is found. -/
theorem AllFit.identityOf_of_find? (hts : g.AllFit ts) (hm : m ∈ g.models) (hid : m.IsIdentity id)
    (h : ts.find? m.path id = some row) : m.identityOf row = some id := by
  obtain ⟨key, hk⟩ := hid.exists_key
  rw [Tables.find?_eq_row? hk] at h
  obtain ⟨y, hy, hform, hyk, -⟩ := (hts m hm key row h).identity
  rw [hy, hform.eq_of_key hid (by rw [hyk, hk])]

theorem AllFit.mem_identities_iff (hts : g.AllFit ts) (hm : m ∈ g.models) (hid : m.IsIdentity id) :
    id ∈ ts.identities m ↔ ts.Stored m.path id := by
  obtain ⟨key, hk⟩ := hid.exists_key
  rw [Tables.stored_iff hk, Option.isSome_iff_exists, Tables.identities, List.mem_filterMap]
  constructor
  · rintro ⟨record, hrecord, hx⟩
    obtain ⟨k, hrow⟩ := Tables.mem_records_iff.mp hrecord
    obtain ⟨y, hy, -, hyk, -⟩ := (hts m hm k record hrow).identity
    obtain rfl := Option.some.inj (hx.symm.trans hy)
    exact ⟨record, (Option.some.inj (hk.symm.trans hyk)) ▸ hrow⟩
  · rintro ⟨record, hrow⟩
    have hfind := (Tables.find?_eq_row? hk ts m.path).trans hrow
    exact ⟨record, Tables.mem_records_iff.mpr ⟨key, hrow⟩, hts.identityOf_of_find? hm hid hfind⟩

theorem AllFit.isIdentity_of_mem_identities (hts : g.AllFit ts) (hm : m ∈ g.models)
    (h : id ∈ ts.identities m) : m.IsIdentity id := by
  obtain ⟨record, hrecord, hid⟩ := List.mem_filterMap.mp h
  obtain ⟨key, hrow⟩ := Tables.mem_records_iff.mp hrecord
  obtain ⟨x, hx, hform, -⟩ := (hts m hm key record hrow).identity
  exact Option.some.inj (hx.symm.trans hid) ▸ hform

/-- The reference predicate holds of the records whose slot holds the identity. -/
theorem AllFit.eval_reference_iff (hts : g.AllFit ts) (hg : g.Coherent) (hm : m ∈ g.models)
    (hr : r ∈ m.owning) (ht : g.get? r.target = some target) (hid : target.IsIdentity id)
    (hst : ts.Stored target.path id) (hrow : ts.row? m.path key = some record) :
    (Predicate.compare (referencePath m target r) .eq id).eval ts record = true ↔
      id ∈ (record.get r.name).references := by
  have hslot := (hts m hm key record hrow).slots r hr target ht
  have htm := (hg.target_path hm (List.mem_filter.mp hr).1 ht).1
  have hvalue {x row} (hx : target.IsIdentity x) (hf : ts.find? target.path x = some row) :
      Comparison.eq.satisfied target.identityType (row.get target.identity) id = true ↔ x = id := by
    have hi := Model.identityOf_eq_some_iff.mp (hts.identityOf_of_find? htm hx hf)
    rw [Json.get_of_get? hi.1, Comparison.satisfied_eq_iff, hx.compareAs_iff hid]
  rw [Predicate.eval, reached_reference, List.any_map, List.any_eq_true]
  simp only [List.mem_filterMap]
  constructor
  · rintro ⟨row, ⟨x, hx, hf⟩, hs⟩
    rwa [← (hvalue (hslot.isIdentity hx) hf).mp hs]
  · intro hx
    obtain ⟨row, hf⟩ := Option.isSome_iff_exists.mp hst
    exact ⟨row, ⟨id, hx, hf⟩, (hvalue hid hf).mpr rfl⟩

theorem AllFit.mem_references_iff (hts : g.AllFit ts) (hm : m ∈ g.models) (hr : r ∈ m.owning)
    (ht : g.get? r.target = some target) (hid : target.IsIdentity id)
    (hrow : ts.row? m.path key = some record) :
    (record.get r.name).references.any (·.sameIdentity id) = true ↔
      id ∈ (record.get r.name).references :=
  hid.any_sameIdentity_iff fun _ hx =>
    ((hts m hm key record hrow).slots r hr target ht).isIdentity hx

theorem AllFit.query_reference (hts : g.AllFit ts) (hg : g.Coherent) (hm : m ∈ g.models)
    (hr : r ∈ m.owning) (ht : g.get? r.target = some target) (hid : target.IsIdentity id)
    (hst : ts.Stored target.path id) :
    ts.query m (some (.compare (referencePath m target r) .eq id)) none .all =
      .ok (holders ts m r.name id) := by
  refine congrArg Except.ok (List.filter_congr fun record hrecord => ?_)
  obtain ⟨key, hrow⟩ := Tables.mem_records_iff.mp hrecord
  rw [Bool.eq_iff_iff, hts.eval_reference_iff hg hm hr ht hid hst hrow,
    hts.mem_references_iff hm hr ht hid hrow]

theorem AllFit.mem_holders_iff (hts : g.AllFit ts) (hm : m ∈ g.models) (hr : r ∈ m.owning)
    (ht : g.get? r.target = some target) (hid : target.IsIdentity id) :
    record ∈ holders ts m r.name id ↔
      ∃ key, ts.row? m.path key = some record ∧ id ∈ (record.get r.name).references := by
  rw [holders, List.mem_filter, Tables.mem_records_iff]
  constructor
  · rintro ⟨⟨key, hrow⟩, hany⟩
    exact ⟨key, hrow, (hts.mem_references_iff hm hr ht hid hrow).mp hany⟩
  · rintro ⟨key, hrow, hmem⟩
    exact ⟨⟨key, hrow⟩, (hts.mem_references_iff hm hr ht hid hrow).mpr hmem⟩

end Registry

end EntityGraph
