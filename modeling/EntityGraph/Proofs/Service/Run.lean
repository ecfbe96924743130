import EntityGraph.Proofs.Service.Related
import EntityGraph.Proofs.Store.Session

namespace EntityGraph

inductive Write
  | create (path : String) (input : EntityInput)
  | update (path : String) (id : Json) (input : EntityInput)
  | delete (path : String) (id : Json)
  | link (path : String) (id : Json) (relation : String) (related : Json)
  | unlink (path : String) (id : Json) (relation : String) (related : Json)

/-- What is written is given by loose fields. -/
def Write.IsLoose : Write → Prop
  | .create _ (.entity _) => False
  | .update _ _ (.entity _) => False
  | _ => True

namespace Household

def definitions : List ModelDefinition :=
  [⟨"Person", "people", true, .standard, [⟨"name", .string⟩],
    [⟨"passport", .oneToOne, "Passport", none⟩, ⟨"pets", .oneToMany, "Pet", some "owner"⟩], []⟩,
  ⟨"Passport", "passports", true, ⟨"number", .string, false⟩, [],
    [⟨"holder", .oneToOne, "Person", some "passport"⟩], []⟩,
  ⟨"Pet", "pets", true, .standard, [], [⟨"owner", .manyToOne, "Person", none⟩], []⟩]

def passport : Relation :=
  ⟨"passport", .oneToOne, "passports", none, some "holder"⟩

def pets : Relation :=
  ⟨"pets", .oneToMany, "pets", some "owner", none⟩

def holder : Relation :=
  ⟨"holder", .oneToOne, "people", some "passport", none⟩

def owner : Relation :=
  ⟨"owner", .manyToOne, "people", none, some "pets"⟩

def person : Model :=
  ⟨"Person", "people", true, "id", .long, true, [⟨"name", .string⟩], [passport, pets], []⟩

def document : Model :=
  ⟨"Passport", "passports", true, "number", .string, false, [], [holder], []⟩

def pet : Model :=
  ⟨"Pet", "pets", true, "id", .long, true, [], [owner], []⟩

def service : Service :=
  ⟨⟨[person, document, pet], by decide +kernel⟩, .standard, .none, fun _ => ""⟩

theorem isPlain : service.IsPlain :=
  ⟨⟨definitions, by rfl⟩, by decide +kernel, rfl, Service.fresh_of_no_uuids (by decide)⟩

/-- A pet of the first of two people, and a passport that goes from the first to the second. -/
def writes : List Write :=
  [.create "people" (.fields [("name", .str "Ada")]), .create "people" (.fields [("name", .str "Bo")]),
    .create "passports" (.fields [("number", .str "P1"), ("holderId", .ofNat 1)]),
    .create "pets" (.fields [("ownerId", .ofNat 1)]),
    .update "people" (.ofNat 2) (.fields [("passportId", .str "P1")])]

theorem writes_isLoose : ∀ w ∈ writes, w.IsLoose := by
  simp [writes, Write.IsLoose]

end Household

namespace Tables

theorem pairwise_records {ts : Tables} {path : String} {R : Json → Json → Prop}
    (h : ∀ key other a b, key ≠ other → ts.row? path key = some a → ts.row? path other = some b →
      R a b) : (ts.records path).Pairwise R := by
  have hascending := (ts.table path).ascending
  refine List.pairwise_map.mpr (hascending.imp_of_mem fun {p q} hp hq hlt => ?_)
  refine h p.1 q.1 p.2 q.2 (fun he => ?_) ((OrderedMap.get?_eq_some_iff hascending).mpr hp)
    ((OrderedMap.get?_eq_some_iff hascending).mpr hq)
  rw [he] at hlt
  exact OrderedMap.KeyOrder.irrefl q.1 hlt

end Tables

namespace Store

variable {α : Type} {store : Store} {plan : Except Error (UnitOfWork α)}

/-- A call fails and leaves the store as it was, or its unit of work succeeds and is committed. -/
theorem run_cases (store : Store) (plan : Except Error (UnitOfWork α)) :
    (∃ e, store.run (committing plan) = (.error e, store)) ∨
      ∃ u a ts, plan = .ok u ∧ store.outage = none ∧ u.run store.tables = (.ok a, ts) ∧
        store.run (committing plan) = (.ok a, ⟨ts, none⟩) := by
  obtain ⟨ts, outage⟩ := store
  cases plan with
  | error e => exact .inl ⟨e, rfl⟩
  | ok u =>
    cases outage with
    | some e => exact .inl ⟨e, rfl⟩
    | none =>
      rw [run_committing]
      rcases hu : u.run ts with ⟨e | a, ts'⟩
      · exact .inl ⟨e, rfl⟩
      · exact .inr ⟨u, a, ts', rfl, rfl, hu, rfl⟩

theorem outage_run (store : Store) (plan : Except Error (UnitOfWork α)) :
    (store.run (committing plan)).2.outage = store.outage := by
  rcases run_cases store plan with ⟨e, h⟩ | ⟨u, a, ts, -, hout, -, h⟩
  · rw [h]
  · rw [h, hout]

theorem run_of_ok {u : UnitOfWork α} {a : α} {ts : Tables} (hout : store.outage = none)
    (hplan : plan = .ok u) (hrun : u.run store.tables = (.ok a, ts)) :
    store.run (committing plan) = (.ok a, ⟨ts, none⟩) := by
  obtain ⟨ts₀, outage⟩ := store
  subst hplan hout
  rw [run_committing, hrun]
  rfl

theorem run_of_error {u : UnitOfWork α} {e : Error} {ts ts' : Tables} (hplan : plan = .ok u)
    (hrun : u.run ts = (.error e, ts')) :
    (⟨ts, none⟩ : Store).run (committing plan) = (.error e, ⟨ts, none⟩) := by
  rw [hplan, run_committing, hrun]
  rfl

theorem exists_of_run_eq_ok {a : α} (h : (store.run (committing plan)).1 = .ok a) :
    ∃ u ts, plan = .ok u ∧ u.run store.tables = (.ok a, ts) ∧
      (store.run (committing plan)).2 = ⟨ts, none⟩ := by
  rcases run_cases store plan with ⟨e, he⟩ | ⟨u, b, ts, hplan, -, hrun, hok⟩
  · rw [he] at h
    cases h
  · rw [hok] at h ⊢
    obtain rfl := Except.ok.inj h
    exact ⟨u, ts, hplan, hrun, rfl⟩

theorem exists_of_isOk_run (h : (store.run (committing plan)).1.isOk = true) :
    ∃ u a, plan = .ok u ∧
      u.run store.tables = (.ok a, (store.run (committing plan)).2.tables) := by
  rcases run_cases store plan with ⟨e, he⟩ | ⟨u, a, ts, hplan, -, hrun, hok⟩
  · rw [he] at h
    cases h
  · exact ⟨u, a, hplan, by rw [hok, hrun]⟩

theorem tables_run (store : Store) (plan : Except Error (UnitOfWork α)) :
    (store.run (committing plan)).2.tables = store.tables ∨ ∃ u a, plan = .ok u ∧
      u.run store.tables = (.ok a, (store.run (committing plan)).2.tables) := by
  rcases run_cases store plan with ⟨e, he⟩ | ⟨u, a, ts, hplan, -, hrun, hok⟩
  · exact .inl (by rw [he])
  · exact .inr ⟨u, a, hplan, by rw [hok, hrun]⟩

theorem run_keeps {P : Tables → Prop} (hstore : P store.tables)
    (h : ∀ u a ts', plan = .ok u → u.run store.tables = (.ok a, ts') → P ts') :
    P (store.run (committing plan)).2.tables := by
  rcases tables_run store plan with hsame | ⟨u, a, hplan, hrun⟩
  · rwa [hsame]
  · exact h u a _ hplan hrun

end Store

namespace Service

open Registry

def perform (s : Service) (store : Store) : Write → Store
  | .create path input => (store.run (s.create path input)).2
  | .update path id input => (store.run (s.update path id input)).2
  | .delete path id => (store.run (s.delete path id)).2
  | .link path id relation related => (store.run (s.addRelated path id relation related)).2
  | .unlink path id relation related => (store.run (s.removeRelated path id relation related)).2

def after (s : Service) (writes : List Write) : Store :=
  writes.foldl s.perform .empty

variable {s : Service} {m target : Model} {r : Relation} {store : Store} {record id : Json}
  {writes : List Write}

theorem perform_keeps (hs : s.IsPlain) {w : Write} (hw : w.IsLoose)
    (hstore : s.registry.Consistent store.tables) :
    s.registry.Consistent (s.perform store w).tables := by
  cases w with
  | create path input =>
    cases input with
    | entity v => exact hw.elim
    | fields members =>
      refine Store.run_keeps hstore fun u a ts' hplan hrun => ?_
      obtain ⟨m, id, key, described, bound, entity, next, h⟩ := exists_created hs hstore hplan hrun
      exact h.settled.consistent
  | update path id input =>
    cases input with
    | entity v => exact hw.elim
    | fields members =>
      refine Store.run_keeps hstore fun u a ts' hplan hrun => ?_
      obtain ⟨m, id, key, record, incoming, bound, entity, h⟩ := exists_updated hs hstore hplan hrun
      exact h.settled.consistent
  | delete path id =>
    exact Store.run_keeps hstore fun u _ ts' hplan hrun => delete_keeps hs hstore hplan hrun
  | link path id relation related =>
    exact Store.run_keeps hstore fun u a ts' hplan hrun => edit_keeps hs hstore hplan hrun
  | unlink path id relation related =>
    exact Store.run_keeps hstore fun u a ts' hplan hrun => edit_keeps hs hstore hplan hrun

theorem consistent_foldl (hs : s.IsPlain) (hw : ∀ w ∈ writes, w.IsLoose)
    (hstore : s.registry.Consistent store.tables) :
    s.registry.Consistent (writes.foldl s.perform store).tables := by
  induction writes generalizing store with
  | nil => exact hstore
  | cons w rest ih =>
    exact ih (fun v hv => hw v (List.mem_cons_of_mem _ hv))
      (perform_keeps hs (hw w List.mem_cons_self) hstore)

/-- Tables are consistent after every run. -/
theorem consistent_after (hs : s.IsPlain) (hw : ∀ w ∈ writes, w.IsLoose) :
    s.registry.Consistent (s.after writes).tables :=
  consistent_foldl hs hw (consistent_empty s.registry)

theorem after_append (s : Service) (writes : List Write) (w : Write) :
    s.after (writes ++ [w]) = s.perform (s.after writes) w :=
  List.foldl_append ..

theorem outage_perform (s : Service) (store : Store) (w : Write) :
    (s.perform store w).outage = store.outage := by
  cases w <;> exact Store.outage_run store _

theorem outage_after (s : Service) (writes : List Write) : (s.after writes).outage = none := by
  have hfold (store : Store) : (writes.foldl s.perform store).outage = store.outage := by
    induction writes generalizing store with
    | nil => rfl
    | cons w rest ih => exact (ih _).trans (outage_perform s store w)
  exact hfold .empty

/-- No reference dangles: an identity in the slot of an owning relation is that of a stored record of
the related model. -/
theorem references_are_stored (hs : s.IsPlain) (hw : ∀ w ∈ writes, w.IsLoose)
    (hm : m ∈ s.registry.models) (hr : r ∈ m.owning)
    (hrecord : record ∈ (s.after writes).tables.records m.path)
    (hid : id ∈ (record.get r.name).references) :
    ∃ target, s.registry.get? r.target = some target ∧
      ∃ other ∈ (s.after writes).tables.records target.path, target.identityOf other = some id := by
  have hts := consistent_after hs hw
  obtain ⟨key, hrow⟩ := Tables.mem_records_iff.mp hrecord
  obtain ⟨target, ht⟩ := hs.coherent.exists_target hm (List.mem_filter.mp hr).1
  have hform := ((hts.fits m hm key record hrow).slots r hr target ht).isIdentity hid
  obtain ⟨other, hother⟩ :=
    Option.isSome_iff_exists.mp (hts.closed m hm r hr target ht key id ⟨record, hrow, hid⟩)
  obtain ⟨k, hk⟩ := hform.exists_key
  rw [Tables.find?_eq_row? hk] at hother
  refine ⟨target, ht, other, Tables.mem_records_iff.mpr ⟨k, hother⟩, ?_⟩
  exact hts.fits.identityOf_of_find? (mem_of_get? ht).1 hform
    ((Tables.find?_eq_row? hk _ _).trans hother)

theorem owner_of_pet_is_stored :
    ∃ target, Household.service.registry.get? "people" = some target ∧
      ∃ other ∈ (Household.service.after Household.writes).tables.records target.path,
        target.identityOf other = some (.ofNat 1) :=
  references_are_stored (m := Household.pet) (r := Household.owner) Household.isPlain
    Household.writes_isLoose (.tail _ (.tail _ (.head _))) (.head _)
    (List.mem_singleton_self (Json.ofPairs [("id", .ofNat 1), ("owner", .ofNat 1)])) (.head _)

/-- No two records of a model have the same identity in the slot of a one-to-one relation. -/
theorem oneToOne_has_single_holder (hs : s.IsPlain) (hw : ∀ w ∈ writes, w.IsLoose)
    (hm : m ∈ s.registry.models) (hr : r ∈ m.owning) (hk : r.kind = .oneToOne) :
    ((s.after writes).tables.records m.path).Pairwise fun a b =>
      a.get r.name = .null ∨
        a.get r.name ≠ b.get r.name ∧ (a.get r.name).sameIdentity (b.get r.name) = false := by
  have hts := consistent_after hs hw
  obtain ⟨target, ht⟩ := hs.coherent.exists_target hm (List.mem_filter.mp hr).1
  refine Tables.pairwise_records fun key other a b hne ha hb => ?_
  have hslot {k record} (h : (s.after writes).tables.row? m.path k = some record) :
      target.FitsSlot false (record.get r.name) := by
    have hfits := (hts.fits m hm k record h).slots r hr target ht
    rwa [Relation.isCollection, hk] at hfits
  by_cases hnull : a.get r.name = .null
  · exact .inl hnull
  · have hmem := (hslot ha).mem_references hnull
    have hdistinct : a.get r.name ≠ b.get r.name := fun he =>
      hne (hts.single m hm r hr hk key other _ ⟨a, ha, hmem⟩ ⟨b, hb, he ▸ hmem⟩)
    exact .inr ⟨hdistinct, (hslot ha).sameIdentity_eq_false (hslot hb) hdistinct⟩

theorem passport_has_single_holder :
    ((Household.service.after Household.writes).tables.records "people").Pairwise fun a b =>
      a.get "passport" = .null ∨ a.get "passport" ≠ b.get "passport" ∧
        (a.get "passport").sameIdentity (b.get "passport") = false :=
  oneToOne_has_single_holder (m := Household.person) (r := Household.passport) Household.isPlain
    Household.writes_isLoose (.head _) (.head _) rfl

end Service

end EntityGraph
