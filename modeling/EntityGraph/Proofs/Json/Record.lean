import EntityGraph.Json.Form
import EntityGraph.Proofs.Json.Reading
import EntityGraph.Proofs.Outcome

namespace EntityGraph

namespace Json

section Members

variable {δ α : Type} {record : List (String × δ)} {name : String} {absent : Option α}
  {read : δ → Option α} {d : δ}

theorem member?_of_mem (hkeys : (record.map Prod.fst).Nodup) (h : (name, d) ∈ record) :
    member? record name absent read = read d := by
  rw [member?, (OrderedMap.get?_eq_some_iff_of_nodup hkeys).mpr h]

theorem member?_of_not_mem (h : name ∉ record.map Prod.fst) : member? record name absent read = absent := by
  rw [member?]
  split
  · next hget => exact absurd (List.mem_map_of_mem (OrderedMap.mem_of_get? hget)) h
  · rfl

theorem exists_of_member?_eq_some {a : α} (h : member? record name absent read = some a) :
    absent = some a ∨ ∃ d, (name, d) ∈ record ∧ read d = some a := by
  rw [member?] at h
  split at h
  · next d hget => exact .inr ⟨d, OrderedMap.mem_of_get? hget, h⟩
  · exact .inl h

end Members

namespace Reader

variable {n : Nat} {v : Json} {members : List (String × Json)} {items : List Json}
  {fields : List (List String)}

/-- The value stands in the place of some document of limited depth. -/
def Fits (n : Nat) (v : Json) : Prop :=
  ∃ d : Document, d.depth ≤ n ∧ v.Replaces d

theorem fits_of_value? {d : Document} (h : (ofDocuments n).value? d = some v) : Fits n v := by
  obtain ⟨hdepth, hd⟩ := Option.ite_none_right_eq_some.mp h
  exact ⟨d, hdepth, replaces_of_toJson? d v hd⟩

theorem fits_null : Fits n .null :=
  ⟨.null, Nat.zero_le n, replaces_of_toJson? .null .null rfl⟩

theorem value?_document (hv : Fits n v) (h : ∀ x ∈ v.doubles, x.ReadsBack) :
    (ofDocuments n).value? v.document = some v := by
  obtain ⟨d, hdepth, hreplaces⟩ := hv
  exact (if_pos (Nat.le_trans hreplaces.depth_le hdepth)).trans (hreplaces.toJson?_eq h)

theorem present?_document (hv : Fits n v) (hnull : v ≠ .null) (h : ∀ x ∈ v.doubles, x.ReadsBack) :
    (ofDocuments n).present? v.document = some (some v) := by
  rw [present?, value?_document hv h, Option.map_some, isNull_eq_false_iff.mpr hnull]
  rfl

theorem string?_document (s : String) : (ofDocuments n).string? (document (.str s)) = some s :=
  rfl

theorem list?_document {α : Type} {read : Document → Option α} {xs : List α}
    (h : List.Forall₂ (fun v x => read v.document = some x) items xs) :
    (ofDocuments n).list? read (document (.arr items)) = some xs := by
  change (documents items).mapM read = some xs
  rw [documents_eq_map, mapM_eq_some_iff, List.forall₂_map_left_iff]
  exact h

theorem exists_of_mem_list? {δ α : Type} {r : Reader δ} {read : δ → Option α} {d : δ} {xs : List α}
    (h : r.list? read d = some xs) {x : α} (hx : x ∈ xs) : ∃ item, read item = some x := by
  unfold list? at h
  split at h
  · obtain ⟨item, -, hitem⟩ := exists_left_of_forall₂ (mapM_eq_some_iff.mp h) hx
    exact ⟨item, hitem⟩
  · cases h

theorem record?_document (hkeys : (members.map Prod.fst).Nodup)
    (hown : ∀ p ∈ members, (fields.find? fun names => names.contains p.1).bind List.head? = some p.1) :
    (ofDocuments n).record? fields (document (.obj members)) =
      some (members.map fun p => (p.1, p.2.document)) := by
  let own (k : String) : Option String := (fields.find? fun names => names.contains k).bind List.head?
  let keyed (p : Option String × Document) : Option (String × Document) := p.1.map fun k => (k, p.2)
  let named (p : String × Document) : Option (String × Document) := (own p.1).map fun k => (k, p.2)
  let known := members.map fun p => (p.1, p.2.document)
  have hkeyed : (memberDocuments members).mapM keyed = some known := by
    rw [memberDocuments_eq_map, mapM_eq_some_iff, List.forall₂_map_left_iff, List.forall₂_map_right_iff]
    exact List.forall₂_same.mpr fun p _ => rfl
  have hknown : known.filterMap named = known := by
    rw [List.filterMap_map]
    refine List.filterMap_eq_map_iff_forall_eq_some.mpr fun p hp => ?_
    exact congrArg (Option.map _) (hown p hp)
  have hnodup : (known.map Prod.fst).Nodup := by
    rwa [List.map_map]
  change ((memberDocuments members).mapM keyed).bind (fun ps =>
    if ((ps.filterMap named).map Prod.fst).Nodup then some (ps.filterMap named) else none) = some known
  rw [hkeyed, Option.bind_some, hknown, if_pos hnodup]

/-- What is read of a record is read of the documents of the given members, each by its name. -/
structure IsRecordOf (members : List (String × Json)) (record : List (String × Document)) : Prop where
  present {α : Type} {name : String} {v : Json} (h : (name, v) ∈ members) (absent : Option α)
    (read : Document → Option α) : member? record name absent read = read v.document
  missing {α : Type} {name : String} (h : name ∉ members.map Prod.fst) (absent : Option α)
    (read : Document → Option α) : member? record name absent read = absent

/-- The order in which members are written does not matter. -/
theorem exists_record_of_perm {written : List (String × Json)} (hperm : written.Perm members)
    (hkeys : (members.map Prod.fst).Nodup)
    (hown : ∀ p ∈ members, (fields.find? fun names => names.contains p.1).bind List.head? = some p.1) :
    ∃ record, (ofDocuments n).record? fields (document (.obj written)) = some record ∧
      IsRecordOf members record := by
  have hnodup := (hperm.map Prod.fst).nodup_iff.mpr hkeys
  have hnames : (written.map fun p => (p.1, p.2.document)).map Prod.fst = written.map Prod.fst := by
    rw [List.map_map]
    rfl
  refine ⟨_, record?_document hnodup fun p hp => hown p (hperm.mem_iff.mp hp), ?_, ?_⟩
  · intro α name v h absent read
    exact member?_of_mem (hnames ▸ hnodup) (List.mem_map.mpr ⟨(name, v), hperm.mem_iff.mpr h, rfl⟩)
  · intro α name h absent read
    refine member?_of_not_mem ?_
    rwa [hnames, (hperm.map Prod.fst).mem_iff]

end Reader

end Json

end EntityGraph
