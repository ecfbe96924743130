import EntityGraph.Proofs.Query.Combination

namespace EntityGraph

def Filter.through (r : Relation) (f : Filter) : Filter :=
  { f with field := r.name ++ "." ++ f.field }

theorem Filter.predicate?_through (r : Relation) (f : Filter) (path : AccessPath) :
    (f.through r).predicate? path = f.predicate? path :=
  rfl

namespace Tables

theorem foldl_follow (ts : Tables) (hops : List Hop) (front : List Json) :
    hops.foldl (fun front hop => front.flatMap (ts.follow hop)) front =
      front.flatMap fun record =>
        hops.foldl (fun front hop => front.flatMap (ts.follow hop)) [record] := by
  induction hops generalizing front with
  | nil => exact (List.flatMap_singleton' front).symm
  | cons hop rest ih =>
    rw [List.foldl_cons, ih, List.flatMap_assoc]
    refine List.flatMap_congr fun record _ => ?_
    rw [List.foldl_cons, List.flatMap_singleton, ← ih]

theorem reached_cons (ts : Tables) (hop : Hop) (path : AccessPath) (record : Json) :
    ts.reached (path.cons hop) record = (ts.follow hop record).flatMap (ts.reached path) := by
  rw [reached, AccessPath.cons, List.foldl_cons, List.flatMap_singleton, foldl_follow, List.map_flatMap]
  rfl

theorem holds_eq (slot id : Json) : holds slot id = slot.references.any (·.sameIdentity id) := by
  cases slot with
  | null => cases id <;> rfl
  | arr ids => rfl
  | _ => exact (Bool.or_false _).symm

theorem follow_mapped (ts : Tables) (hop : Hop) {owner : String} {many : Bool}
    (h : hop.link = .mapped owner many) (record : Json) :
    ts.follow hop record =
      ((record.present? hop.sourceIdentity).map fun id =>
        (ts.records hop.target).filter fun row =>
          (row.get owner).references.any (·.sameIdentity id)).getD [] := by
  rw [follow, h]
  dsimp only
  cases record.present? hop.sourceIdentity with
  | none => rfl
  | some id => simp only [holds_eq, Option.map_some, Option.getD_some]

end Tables

/-- A predicate holds of the records from which a path reaches a value that passes a test. -/
def Predicate.Tests (p : Predicate) (path : AccessPath) (test : Json → Bool) : Prop :=
  ∀ ts record, p.eval ts record = (ts.reached path record).any test

namespace Filter

variable {f : Filter} {path : AccessPath} {p : Predicate}

theorem exists_test (h : f.predicate? path = some p) :
    ∃ test, ∀ path' : AccessPath, path'.type = path.type →
      ∃ q, f.predicate? path' = some q ∧ q.Tests path' test := by
  have hcomparison {op : Comparison}
      (h : comparison path op (coerceOrKeep path.type f.value) = some p) :
      ∃ test, ∀ path' : AccessPath, path'.type = path.type →
        ∃ q, comparison path' op (coerceOrKeep path'.type f.value) = some q ∧ q.Tests path' test := by
    unfold comparison at h
    split at h
    · cases h
    · next hnull =>
      exact ⟨(op.satisfied path.type · _), fun path' ht =>
        ⟨.compare path' op _, if_neg (ht ▸ hnull), fun _ _ => by rw [Predicate.eval, ht]⟩⟩
  unfold predicate? at h ⊢
  revert h
  cases f.operator with
  | eq =>
    intro h
    dsimp only at h ⊢
    split at h
    · next hnull =>
      exact ⟨Json.isNull, fun path' ht => ⟨.isNull path', if_pos (ht ▸ hnull), fun _ _ => rfl⟩⟩
    · next hnull =>
      exact ⟨(Comparison.eq.satisfied path.type · _), fun path' ht =>
        ⟨.compare path' .eq _, if_neg (ht ▸ hnull), fun _ _ => by rw [Predicate.eval, ht]⟩⟩
  | neq =>
    intro h
    dsimp only at h ⊢
    split at h
    · next hnull =>
      exact ⟨fun v => !v.isNull, fun path' ht =>
        ⟨.isNotNull path', if_pos (ht ▸ hnull), fun _ _ => rfl⟩⟩
    · next hnull =>
      exact ⟨(Comparison.neq.satisfied path.type · _), fun path' ht =>
        ⟨.compare path' .neq _, if_neg (ht ▸ hnull), fun _ _ => by rw [Predicate.eval, ht]⟩⟩
  | gt => exact hcomparison
  | gte => exact hcomparison
  | lt => exact hcomparison
  | lte => exact hcomparison
  | like =>
    intro h
    dsimp only at h ⊢
    split at h
    · cases h
    · next hnull => exact ⟨_, fun path' _ => ⟨.like path' _, if_neg hnull, fun _ _ => rfl⟩⟩
  | among =>
    intro h
    dsimp only at h ⊢
    split at h
    · -- the choice among nothing does not look at the path, and no value passes its test
      exact ⟨fun _ => false, fun path' _ => ⟨.never, rfl, fun ts record => by simp [Predicate.eval]⟩⟩
    · exact ⟨_, fun path' ht => ⟨.among path' _, rfl, fun _ _ => by rw [Predicate.eval, ht]⟩⟩
    · cases h
  | between =>
    intro h
    dsimp only at h ⊢
    split at h
    · cases h
    · next hnull =>
      exact ⟨_, fun path' ht =>
        ⟨.between path' _ _, if_neg (ht ▸ hnull), fun _ _ => by rw [Predicate.eval, ht]⟩⟩

end Filter

namespace Registry

variable {g : Registry} {m n : Model} {i : Relation} {path : AccessPath} {x : String}

theorem accessPath_through (hg : g.Coherent) (hn : n ∈ g.models) (hi : i ∈ n.relations)
    (hplain : i.IsPlain) (ht : g.get? i.target = some m) (h : g.accessPath m x = .ok path) :
    g.accessPath n (i.name ++ "." ++ x) = .ok (path.cons (i.hop n m)) := by
  rw [accessPath_eq] at h
  rw [accessPath_eq, Text.segments_dotted, (Relation.isPlain_iff.mp hplain).segments_eq,
    List.singleton_append, pathOfSegments_cons g _ n i.name (Text.segments_ne_nil x),
    hg.cross_name hn hi ht, ok_bind]
  dsimp only
  rw [pathOfSegments_eq_ok hg (hg.target_path hn hi ht).1 h]
  rfl

variable {ts : Tables} {o : Relation} {f : Filter} {p : Predicate} {row record : Json}

theorem exists_condition_through (hg : g.Coherent) (hn : n ∈ g.models) (hi : i ∈ n.relations)
    (hplain : i.IsPlain) (ht : g.get? i.target = some m) (hp : f.condition? g m = some p) :
    ∃ q, (f.through i).condition? g n = some q ∧ ∀ ts row,
      q.eval ts row = true ↔ ∃ record ∈ ts.follow (i.hop n m) row, p.eval ts record = true := by
  obtain ⟨path, hpath, hp⟩ := Filter.condition?_eq_some_iff.mp hp
  -- one test of values at the end of both paths
  obtain ⟨test, htest⟩ := Filter.exists_test hp
  obtain ⟨p', hp', heval⟩ := htest path rfl
  obtain rfl := Option.some.inj (hp.symm.trans hp')
  obtain ⟨q, hq, heval'⟩ := htest (path.cons (i.hop n m)) rfl
  rw [← Filter.predicate?_through i] at hq
  have hpath' := accessPath_through hg hn hi hplain ht hpath
  refine ⟨q, Filter.condition?_eq_some_iff.mpr ⟨_, hpath', hq⟩, fun ts row => ?_⟩
  simp only [heval' ts row, Tables.reached_cons, List.any_flatMap, List.any_eq_true, heval ts]

theorem Coherent.get?_target_of_owner (hg : g.Coherent) (hn : n ∈ g.models) (hi : i ∈ n.relations)
    (hmapped : i.mappedBy = some o.name) (ht : g.get? i.target = some m) (ho : o ∈ m.owning) :
    g.get? o.target = some n := by
  obtain ⟨hm, hpath⟩ := hg.target_path hn hi ht
  obtain ⟨owner, howner, hname, hback, -⟩ := hg.owners n hn i hi o.name hmapped m hm hpath
  obtain rfl := hg.eq_of_name hm (List.mem_filter.mp howner).1 (List.mem_filter.mp ho).1 hname
  exact hback ▸ get?_path hn

/-- Crossing an inverse relation leads from a record to the records that hold its identity. -/
theorem AllFit.mem_follow_inverse_iff (hts : g.AllFit ts) (hg : g.Coherent) (hn : n ∈ g.models)
    (hi : i ∈ n.relations) (hmapped : i.mappedBy = some o.name) (ht : g.get? i.target = some m)
    (ho : o ∈ m.owning) (hrow : row ∈ ts.records n.path) :
    record ∈ ts.follow (i.hop n m) row ↔
      record ∈ ts.records m.path ∧
        ∃ id, n.identityOf row = some id ∧ id ∈ (record.get o.name).references := by
  obtain ⟨hm, -⟩ := hg.target_path hn hi ht
  obtain ⟨key, hkey⟩ := Tables.mem_records_iff.mp hrow
  obtain ⟨id, hid, hform, -⟩ := (hts n hn key row hkey).identity
  have hlink : (i.hop n m).link = .mapped o.name (i.kind == .manyToMany) := by
    rw [Relation.hop, Relation.link, hmapped]
  have hfollow : ts.follow (i.hop n m) row = holders ts m o.name id := by
    rw [ts.follow_mapped _ hlink, show row.present? (i.hop n m).sourceIdentity = some id from hid]
    rfl
  have hback := hg.get?_target_of_owner hn hi hmapped ht ho
  rw [hfollow, hts.mem_holders_iff hm ho hback hform, hid, Tables.mem_records_iff]
  simp only [Option.some.injEq, exists_eq_left', exists_and_right]

/-- The filter across an inverse relation selects the records whose identity is in the slot of a record
that the filter selects on the other side. -/
theorem filter_across_inverse_selects_what_is_held {definitions : List ModelDefinition}
    (hg : ofDefinitions definitions = .ok g) (hts : g.AllFit ts) (hn : n ∈ g.models)
    (hi : i ∈ n.relations) (hplain : i.IsPlain) (hmapped : i.mappedBy = some o.name)
    (ht : g.get? i.target = some m) (ho : o ∈ m.owning) (hf : f.IsEffective g m)
    (logic : FilterLogic) :
    ∃ rows rows', (f.alone logic).selected g ts m = .ok rows ∧
      (f.through i).IsEffective g n ∧
      ((f.through i).alone logic).selected g ts n = .ok rows' ∧
      rows'.Sublist (ts.records n.path) ∧
      ∀ row ∈ ts.records n.path, row ∈ rows' ↔ ∃ id, n.identityOf row = some id ∧
        ∃ record ∈ rows, id ∈ (record.get o.name).references := by
  have hg := coherent_of_ofDefinitions hg
  obtain ⟨p, hp⟩ := Filter.isEffective_iff.mp hf
  obtain ⟨q, hq, heval⟩ := exists_condition_through hg hn hi hplain ht hp
  refine ⟨_, _, FilterSpec.selected_alone hp ts, Filter.isEffective_iff.mpr ⟨q, hq⟩,
    FilterSpec.selected_alone hq ts, List.filter_sublist, fun row hrow => ?_⟩
  rw [List.mem_filter, and_iff_right hrow, heval ts row]
  simp only [hts.mem_follow_inverse_iff hg hn hi hmapped ht ho hrow, List.mem_filter]
  constructor
  · rintro ⟨record, ⟨hrecord, id, hid, hmem⟩, hp⟩
    exact ⟨id, hid, record, ⟨hrecord, hp⟩, hmem⟩
  · rintro ⟨id, hid, record, ⟨hrecord, hp⟩, hmem⟩
    exact ⟨record, ⟨hrecord, id, hid, hmem⟩, hp⟩

end Registry

namespace Household

theorem tables_after_writes : (service.after writes).tables = tables := by rfl

def ofTheFirst : Filter :=
  ⟨"owner.id", .lte, .ofNat 1, none⟩

end Household

namespace Registry

open Household

/-- The people with such a pet are the first person, who is the owner of it. -/
theorem first_person_has_the_pet_of_the_first :
    (ofTheFirst.through pets).field = "pets.owner.id" ∧
      ((ofTheFirst.through pets).alone .and).selected service.registry tables person =
        .ok [firstPerson] ∧
      ∀ row ∈ tables.records "people", row ∈ [firstPerson] ↔
        ∃ id, person.identityOf row = some id ∧
          ∃ record ∈ tables.records "pets", id ∈ (record.get "owner").references := by
  have hg : ofDefinitions definitions = .ok service.registry := by rfl
  have hts : service.registry.AllFit tables :=
    tables_after_writes ▸ (Service.consistent_after isPlain writes_isLoose).fits
  have hf : ofTheFirst.IsEffective service.registry pet := ⟨_, _, rfl, rfl⟩
  obtain ⟨rows, rows', hrows, -, hrows', -, hiff⟩ :=
    filter_across_inverse_selects_what_is_held (n := person) (i := pets) (o := owner) (m := pet)
      hg hts (.head _) (.tail _ (.head _)) (by decide +kernel) rfl rfl (.head _) hf .and
  have hpets : (ofTheFirst.alone .and).selected service.registry tables pet =
      .ok (tables.records "pets") :=
    (FilterSpec.selected_alone rfl tables).trans
      (congrArg _ (List.filter_eq_self.mpr (by decide +kernel)))
  have hpeople : ((ofTheFirst.through pets).alone .and).selected service.registry tables person =
      .ok [firstPerson] := by
    obtain ⟨q, hq⟩ : ∃ q, (ofTheFirst.through pets).condition? service.registry person = some q :=
      ⟨_, rfl⟩
    have hrecords : tables.records person.path = [firstPerson, secondPerson] := by rfl
    have hfirst : ((ofTheFirst.through pets).condition? service.registry person).any
        (·.eval tables firstPerson) = true := by decide +kernel
    have hsecond : ((ofTheFirst.through pets).condition? service.registry person).any
        (·.eval tables secondPerson) = false := by decide +kernel
    rw [hq, Option.any_some] at hfirst hsecond
    rw [FilterSpec.selected_alone hq, hrecords]
    simp only [List.filter_cons, hfirst, hsecond, List.filter_nil, if_true, Bool.false_eq_true, if_false]
  cases hrows.symm.trans hpets
  cases hrows'.symm.trans hpeople
  exact ⟨rfl, hpeople, hiff⟩

end Registry

end EntityGraph
