import EntityGraph.Proofs.Store.Conflict
import EntityGraph.Proofs.Store.History
import Mathlib.Data.List.Induction

namespace EntityGraph

/-- What the answer to a step tells about the rows of a store. -/
inductive Entry
  | saved (path : String) (key : RecordKey) (record : Json)
  | removed (path : String) (key : RecordKey)
  | committed
  | rolledBack

namespace Entry

def Concerns (path : String) (key : RecordKey) : Entry → Prop
  | saved p k _ | removed p k => p = path ∧ k = key
  | committed | rolledBack => False

instance (path : String) (key : RecordKey) : DecidablePred (Concerns path key)
  | saved _ _ _ | removed _ _ => inferInstanceAs (Decidable (_ ∧ _))
  | committed | rolledBack => inferInstanceAs (Decidable False)

def record? : Entry → Option Json
  | saved _ _ record => some record
  | _ => none

mutual

/-- The entries that count: those of the open unit of work, and those that have been committed before. -/
def surviving : List Entry → List Entry
  | [] => []
  | committed :: earlier => surviving earlier
  | rolledBack :: earlier => settled earlier
  | e :: earlier => e :: surviving earlier
termination_by structural entries => entries

def settled : List Entry → List Entry
  | [] => []
  | committed :: earlier => surviving earlier
  | _ :: earlier => settled earlier
termination_by structural entries => entries

end

/-- The newest entry about the key has put the record there. -/
def Puts (entries : List Entry) (path : String) (key : RecordKey) (record : Json) : Prop :=
  ∃ newer older, entries = newer ++ saved path key record :: older ∧ ∀ e ∈ newer, ¬e.Concerns path key

def lookup (entries : List Entry) (path : String) (key : RecordKey) : Option Json :=
  (entries.find? fun e => decide (e.Concerns path key)).bind record?

variable {entries earlier : List Entry} {e : Entry} {path other : String} {key k : RecordKey} {record : Json}

theorem lookup_cons (e : Entry) (entries : List Entry) (path : String) (key : RecordKey) :
    lookup (e :: entries) path key = if e.Concerns path key then e.record? else lookup entries path key := by
  unfold lookup
  rw [List.find?_cons]
  by_cases h : e.Concerns path key <;> simp [h]

theorem lookup_eq_some_iff : lookup entries path key = some record ↔ Puts entries path key record := by
  have hsaved : ∀ e : Entry, e.Concerns path key ∧ e.record? = some record ↔ e = saved path key record := by
    intro e
    cases e with
    | saved p k r => simp [Concerns, record?, and_assoc]
    | _ => simp [record?]
  simp only [lookup, Option.bind_eq_some_iff, List.find?_eq_some_iff_append, decide_eq_true_eq,
    Bool.not_eq_eq_eq_not, Bool.not_true, decide_eq_false_iff_not]
  constructor
  · rintro ⟨e, ⟨hconcerns, newer, older, hentries, hnewer⟩, hrecord⟩
    obtain rfl := (hsaved e).mp ⟨hconcerns, hrecord⟩
    exact ⟨newer, older, hentries, hnewer⟩
  · rintro ⟨newer, older, hentries, hnewer⟩
    obtain ⟨hconcerns, hrecord⟩ := (hsaved _).mpr rfl
    exact ⟨_, ⟨hconcerns, newer, older, hentries, hnewer⟩, hrecord⟩

mutual

theorem mem_of_mem_surviving (entries : List Entry) (h : e ∈ surviving entries) : e ∈ entries := by
  match entries with
  | [] => exact h
  | committed :: earlier => exact List.mem_cons_of_mem _ (mem_of_mem_surviving earlier h)
  | rolledBack :: earlier => exact List.mem_cons_of_mem _ (mem_of_mem_settled earlier h)
  | saved _ _ _ :: earlier | removed _ _ :: earlier =>
    exact List.mem_cons.mpr ((List.mem_cons.mp h).imp_right (mem_of_mem_surviving earlier))
termination_by structural entries

theorem mem_of_mem_settled (entries : List Entry) (h : e ∈ settled entries) : e ∈ entries := by
  match entries with
  | [] => exact h
  | committed :: earlier => exact List.mem_cons_of_mem _ (mem_of_mem_surviving earlier h)
  | rolledBack :: earlier | saved _ _ _ :: earlier | removed _ _ :: earlier =>
    exact List.mem_cons_of_mem _ (mem_of_mem_settled earlier h)
termination_by structural entries

end

def ofSaved (m : Model) : Except Error Json → List Entry
  | .ok record => ((RecordKey.of? (record.get m.identity)).map fun key => saved m.path key record).toList
  | .error _ => []

def ofRemoved (m : Model) (id : Json) : Except Error Bool → List Entry
  | .ok true => ((RecordKey.of? id).map (removed m.path)).toList
  | _ => []

theorem settled_ofSaved (m : Model) (answer : Except Error Json) (entries : List Entry) :
    settled (ofSaved m answer ++ entries) = settled entries := by
  cases answer with
  | error e => rfl
  | ok record =>
    rw [ofSaved]
    cases RecordKey.of? (record.get m.identity) <;> rfl

theorem settled_ofRemoved (m : Model) (id : Json) (answer : Except Error Bool) (entries : List Entry) :
    settled (ofRemoved m id answer ++ entries) = settled entries := by
  unfold ofRemoved
  split
  · cases RecordKey.of? id <;> rfl
  · rfl

end Entry

namespace Step

def model? : Step → Option Model
  | persist m _ | merge m _ | remove m _ => some m
  | commit | rollback => none

def entries (fresh : Table → String) (session : Session) : Step → List Entry
  | persist m record => Entry.ofSaved m (session.perform (UnitOfWork.persist fresh m record)).1
  | merge m record => Entry.ofSaved m (session.perform (UnitOfWork.merge m record)).1
  | remove m id => Entry.ofRemoved m id (session.perform (UnitOfWork.remove m id)).1
  | commit => [.committed]
  | rollback => [.rolledBack]

end Step

/-- A run on a store with its journal. -/
structure Journal where
  history : History
  entries : List Entry

namespace Journal

def start : Journal :=
  ⟨.start, []⟩

def take (j : Journal) (drawn : Step × String) : Journal :=
  ⟨j.history.take (fun _ => drawn.2) drawn.1,
    drawn.1.entries (fun _ => drawn.2) j.history.session ++ j.entries⟩

def run (steps : List (Step × String)) : Journal :=
  steps.foldl take start

def tables (j : Journal) : Tables :=
  j.history.session.current

end Journal

open Entry

namespace Tables

variable {ts : Tables} {entries : List Entry}

def Reflects (ts : Tables) (entries : List Entry) : Prop :=
  ∀ path key, ts.row? path key = lookup entries path key

theorem Reflects.put (h : ts.Reflects entries) (path : String) (key : RecordKey) (record : Json) :
    (ts.put path key record).Reflects (saved path key record :: entries) := by
  intro other k
  rw [row?_put, lookup_cons, h other k]
  exact if_congr (and_congr eq_comm eq_comm) rfl rfl

theorem Reflects.erase (h : ts.Reflects entries) (path : String) (key : RecordKey) :
    (ts.erase path key).Reflects (removed path key :: entries) := by
  intro other k
  rw [row?_erase, lookup_cons, h other k]
  exact if_congr (and_congr eq_comm eq_comm) rfl rfl

theorem Reflects.of_saves {m : Model} {outcome : Except Error Json × Tables}
    (h : ts.Reflects (surviving entries)) (hsaves : UnitOfWork.Saves m ts outcome) :
    outcome.2.Reflects (surviving (ofSaved m outcome.1 ++ entries)) := by
  cases hsaves with
  | failed e => exact h
  | @saved record id key hid hk =>
    have hentry : ofSaved m (.ok record) = [saved m.path key record] := by
      rw [ofSaved, Json.get_of_get? hid, hk]
      rfl
    rw [hentry]
    exact h.put m.path key record

theorem Reflects.of_remove (h : ts.Reflects (surviving entries)) (m : Model) (id : Json) :
    ((UnitOfWork.remove m id).run ts).2.Reflects
      (surviving (ofRemoved m id ((UnitOfWork.remove m id).run ts).1 ++ entries)) := by
  cases hk : RecordKey.of? id with
  | none =>
    unfold UnitOfWork.remove UnitOfWork.keyOf
    rw [hk]
    exact h
  | some key =>
    rw [UnitOfWork.run_remove hk]
    cases hrow : (ts.row? m.path key).isSome with
    | false => exact h
    | true =>
      have hentry : ofRemoved m id (.ok true) = [removed m.path key] := by
        rw [ofRemoved, hk]
        rfl
      dsimp only
      rw [hentry]
      exact h.erase m.path key

end Tables

namespace Journal

variable {j : Journal} {m : Model} {steps : List (Step × String)} {path : String} {key : RecordKey}
  {record : Json}

/-- The tables that are worked on show the entries that count, those that are kept aside the ones that would
still count after a rollback. -/
structure Sound (j : Journal) : Prop where
  history : j.history.Sound
  current : j.tables.Reflects (surviving j.entries)
  kept : ∃ ts, j.history.session.kept = some ts ∧ ts.Reflects (settled j.entries)

theorem sound_start : start.Sound :=
  ⟨History.sound_start, fun _ _ => rfl, _, rfl, fun _ _ => rfl⟩

theorem Sound.save (hs : j.Sound) {u : UnitOfWork Json} (hu : UnitOfWork.Saves m j.tables (u.run j.tables)) :
    Sound ⟨j.history.save m u, ofSaved m (j.history.session.perform u).1 ++ j.entries⟩ := by
  refine ⟨hs.history.save hu, hs.current.of_saves hu, ?_⟩
  rw [settled_ofSaved]
  exact hs.kept

theorem Sound.take (hs : j.Sound) (drawn : Step × String) : (j.take drawn).Sound := by
  obtain ⟨step, text⟩ := drawn
  have hhistory := hs.history.take (fun _ => text) step
  cases step with
  | persist m record => exact hs.save (UnitOfWork.saves_persist hs.history.current.counted _ m record)
  | merge m record => exact hs.save (UnitOfWork.saves_merge m record j.tables)
  | remove m id =>
    refine ⟨hhistory, hs.current.of_remove m id, ?_⟩
    rw [Journal.take, Step.entries, settled_ofRemoved]
    exact hs.kept
  | commit => exact ⟨hhistory, hs.current, _, rfl, hs.current⟩
  | rollback =>
    obtain ⟨ts, hts, hkept⟩ := hs.kept
    have hclose : j.history.session.close = ts := by rw [Session.close, hts, Option.getD_some]
    refine ⟨hhistory, ?_, ts, congrArg some hclose, hkept⟩
    change j.history.session.close.Reflects (settled j.entries)
    rw [hclose]
    exact hkept

theorem Sound.foldl (hs : j.Sound) (steps : List (Step × String)) : (steps.foldl Journal.take j).Sound := by
  induction steps generalizing j with
  | nil => exact hs
  | cons drawn rest ih => exact ih (hs.take drawn)

theorem sound_run (steps : List (Step × String)) : (run steps).Sound :=
  sound_start.foldl steps

theorem identity_of_mem_entries {fresh : Table → String} {session : Session} {step : Step}
    (h : saved path key record ∈ step.entries fresh session) :
    ∃ m, step.model? = some m ∧ m.path = path ∧
      ∃ id, m.identityOf record = some id ∧ RecordKey.of? id = some key := by
  have hsaved {m : Model} {answer : Except Error Json} (h : saved path key record ∈ ofSaved m answer) :
      m.path = path ∧ ∃ id, m.identityOf record = some id ∧ RecordKey.of? id = some key := by
    cases answer with
    | error e => cases h
    | ok r =>
      obtain ⟨k, hk, he⟩ := Option.map_eq_some_iff.mp (Option.mem_toList.mp h)
      obtain ⟨hpath, rfl, rfl⟩ := Entry.saved.inj he
      have hne : r.get m.identity ≠ .null := fun hnull => by
        rw [hnull] at hk
        cases hk
      exact ⟨hpath, _, Model.identityOf_eq_some_iff.mpr ⟨Json.get?_of_get rfl hne, hne⟩, hk⟩
  cases step with
  | persist m _ | merge m _ => exact ⟨m, rfl, hsaved h⟩
  | remove m id =>
    have hremoved {answer : Except Error Bool} : saved path key record ∉ ofRemoved m id answer := by
      unfold ofRemoved
      split <;> simp
    exact absurd h hremoved
  | commit | rollback => cases List.mem_singleton.mp h

theorem run_concat (steps : List (Step × String)) (drawn : Step × String) :
    run (steps ++ [drawn]) = (run steps).take drawn :=
  List.foldl_concat _ _ _ _

theorem identity_of_mem_run (h : saved path key record ∈ (run steps).entries) :
    ∃ drawn ∈ steps, ∃ m, drawn.1.model? = some m ∧ m.path = path ∧
      ∃ id, m.identityOf record = some id ∧ RecordKey.of? id = some key := by
  induction steps using List.reverseRecOn with
  | nil => cases h
  | append_singleton steps drawn ih =>
    rw [run_concat] at h
    rcases List.mem_append.mp h with h | h
    · exact ⟨drawn, by simp, identity_of_mem_entries h⟩
    · obtain ⟨earlier, hearlier, hidentity⟩ := ih h
      exact ⟨earlier, List.mem_append_left _ hearlier, hidentity⟩

/-- The records of a model are a map from the keys of their identities: each stands under the key of its own,
only keys that are taken are in the way of a new one, by an identity the record is found that has been saved
last and not been removed, and each is listed and counted once, in the order of the keys. -/
structure Maps (j : Journal) (m : Model) : Prop where
  keyed : ∀ key record, j.tables.row? m.path key = some record →
    record.IsObject ∧ ∃ id, m.identityOf record = some id ∧ RecordKey.of? id = some key
  conflicts : ∀ fresh record,
    UnitOfWork.Conflicts (j.history.session.perform (UnitOfWork.persist fresh m record)).1 ↔
      record.IsObject ∧
        ((∃ id, m.Assigns fresh (j.tables.table m.path) record id ∧ j.tables.Stored m.path id) ∨
          m.identityOf record = none ∧ ¬m.Generates)
  found : ∀ id record, j.tables.find? m.path id = some record ↔
    ∃ key, RecordKey.of? id = some key ∧ Puts (surviving j.entries) m.path key record
  listed : ∃ rows : List (RecordKey × Json), OrderedMap.Ascending rows ∧
    (∀ key record, (key, record) ∈ rows ↔ j.tables.row? m.path key = some record) ∧
    j.tables.query m none none .all = .ok (rows.map Prod.snd) ∧ j.tables.count m none = rows.length

theorem store_is_map_of_identities (steps : List (Step × String)) (m : Model)
    (huses : ∀ drawn ∈ steps, ∀ k, drawn.1.model? = some k → k.path = m.path → k = m)
    (hlt : ((run steps).tables.table m.path).sequence < 0x7FFFFFFFFFFFFFFF) : (run steps).Maps m := by
  have hsound := sound_run steps
  have hrow {key record} : (run steps).tables.row? m.path key = some record ↔
      Puts (surviving (run steps).entries) m.path key record := by
    rw [hsound.current, lookup_eq_some_iff]
  refine ⟨fun key record h => ?_, fun fresh record => ?_, fun id record => ?_, ?_⟩
  · obtain ⟨newer, older, hentries, -⟩ := hrow.mp h
    have hmem : saved m.path key record ∈ surviving (run steps).entries := by simp [hentries]
    obtain ⟨drawn, hdrawn, k, hk, hpath, id, hid, hkey⟩ :=
      identity_of_mem_run (mem_of_mem_surviving _ hmem)
    obtain rfl := huses drawn hdrawn k hk hpath
    exact ⟨Json.isObject_of_get? (Model.identityOf_eq_some_iff.mp hid).1, id, hid, hkey⟩
  · exact UnitOfWork.persist_conflicts_iff hsound.history.current.counted hlt fresh record
  · rw [Tables.find?, Option.bind_eq_some_iff]
    exact exists_congr fun key => and_congr_right' hrow
  · have hascending := ((run steps).tables.table m.path).ascending
    refine ⟨_, hascending, fun key record => ?_, rfl, List.length_map _⟩
    exact (OrderedMap.get?_eq_some_iff hascending).symm

open Booth

/-- The third ticket is there and cannot be added again, the seventh has been removed and can. -/
theorem tickets_are_map_of_identities :
    let steps := sales.map (·, "")
    (∀ drawn ∈ steps, ∀ k, drawn.1.model? = some k → k.path = ticket.path → k = ticket) ∧
    ((run steps).tables.table "tickets").sequence < 0x7FFFFFFFFFFFFFFF ∧ (run steps).Maps ticket ∧
    (run steps).tables.find? "tickets" (.ofNat 3) = some (.ofPairs [("id", .ofNat 3)]) ∧
    (run steps).tables.find? "tickets" (.ofNat 7) = none ∧
    UnitOfWork.Conflicts ((run steps).history.session.perform
      (UnitOfWork.persist noText ticket (.ofPairs [("id", .ofNat 3)]))).1 ∧
    ¬UnitOfWork.Conflicts ((run steps).history.session.perform
      (UnitOfWork.persist noText ticket (.ofPairs [("id", .ofNat 7)]))).1 := by
  intro steps
  have huses : ∀ drawn ∈ steps, ∀ k, drawn.1.model? = some k → k.path = ticket.path → k = ticket := by
    simp [steps, sales, Step.model?]
  have hlt : ((run steps).tables.table "tickets").sequence < 0x7FFFFFFFFFFFFFFF := by decide
  exact ⟨huses, hlt, store_is_map_of_identities steps ticket huses hlt, rfl, rfl, ⟨_, rfl⟩,
    UnitOfWork.not_conflicts_ok _⟩

end Journal

end EntityGraph
