import EntityGraph.Proofs.Identity.Form
import EntityGraph.Proofs.Store.Saving
import EntityGraph.Proofs.Store.Session

namespace EntityGraph

/-- What a client does to a store. A step that fails does not end the unit of work. -/
inductive Step
  | persist (m : Model) (record : Json)
  | merge (m : Model) (record : Json)
  | remove (m : Model) (id : Json)
  | commit
  | rollback

/-- A run with the paths and identities of the records that have been saved: by the unit of work that is
open or by those that have been committed, and by the latter alone. -/
structure History where
  session : Session
  written : List (String × Json)
  committed : List (String × Json)

namespace History

def start : History :=
  ⟨.begin .empty, [], []⟩

/-- Note the identity of a record that has been saved. -/
def note (m : Model) (result : Except Error Json) (written : List (String × Json)) :
    List (String × Json) :=
  match result with
  | .ok saved => (m.path, saved.get m.identity) :: written
  | .error _ => written

def save (h : History) (m : Model) (u : UnitOfWork Json) : History :=
  match h.session.perform u with
  | (result, session) => { h with session, written := note m result h.written }

def take (fresh : Table → String) (h : History) : Step → History
  | .persist m record => h.save m (UnitOfWork.persist fresh m record)
  | .merge m record => h.save m (UnitOfWork.merge m record)
  | .remove m id => { h with session := (h.session.perform (UnitOfWork.remove m id)).2 }
  | .commit => ⟨.begin h.session.commit.close, h.written, h.written⟩
  | .rollback => ⟨.begin h.session.close, h.committed, h.committed⟩

def run (fresh : Table → String) (steps : List Step) : History :=
  steps.foldl (take fresh) start

end History

/-- The largest number that an identity of an integral type may be. -/
def FieldType.greatest : FieldType → Int
  | .integer => 0x7FFFFFFF
  | _ => 0x7FFFFFFFFFFFFFFF

theorem FieldType.holds_iff_le_greatest {t : FieldType} {i : Int} (hi : 0 ≤ i) :
    t.holds i = true ↔ i ≤ t.greatest := by
  cases t <;> simp only [holds, greatest, Bool.and_eq_true, decide_eq_true_eq] <;> omega

theorem FieldType.greatest_bounds (t : FieldType) :
    0 < t.greatest ∧ t.greatest ≤ 0x7FFFFFFFFFFFFFFF := by
  cases t <;> decide

theorem Model.coerceIdentity_whole_iff {m : Model} (hint : m.identityType.isIntegral = true) {n : Whole}
    (hn : n.value < 0x8000000000000000) :
    m.coerceIdentity (.num (.whole n)) = .ok (.num (.whole n)) ↔
      m.identityType.holds n.value = true := by
  rw [coerceIdentity_eq_ok_iff, FieldType.coerce?_whole hint hn, FieldType.integral?_eq_some_iff]
  exact ⟨fun h => h.1.1, fun h => ⟨⟨h, n, rfl, rfl⟩, nofun⟩⟩

namespace Tables

variable {ts : Tables} {written : List (String × Json)}

/-- The sequences of the tables are the largest numbers that are noted. -/
structure Accounts (ts : Tables) (written : List (String × Json)) : Prop where
  counted : ts.Counted
  covered : ∀ path id i, (path, id) ∈ written → RecordKey.of? id = some (.int i) →
    i ≤ (ts.table path).sequence
  attained : ∀ path, (ts.table path).sequence = 0 ∨
    ∃ id, (path, id) ∈ written ∧ RecordKey.of? id = some (.int (ts.table path).sequence)

namespace Accounts

theorem below_iff (h : ts.Accounts written) (path : String) {bound : Int} (hpos : 0 < bound) :
    (∀ id i, (path, id) ∈ written → RecordKey.of? id = some (.int i) → i < bound) ↔
      (ts.table path).sequence < bound := by
  constructor
  · intro hbelow
    rcases h.attained path with hzero | ⟨id, hid, hi⟩
    · omega
    · exact hbelow id _ hid hi
  · intro hlt id i hid hi
    exact Int.lt_of_le_of_lt (h.covered path id i hid hi) hlt

theorem empty : Tables.empty.Accounts [] :=
  ⟨counted_empty, fun _ _ _ h => absurd h List.not_mem_nil, fun _ => .inl rfl⟩

theorem put (h : ts.Accounts written) (path : String) {key : RecordKey} {id : Json}
    (hk : RecordKey.of? id = some key) (record : Json) :
    (ts.put path key record).Accounts ((path, id) :: written) := by
  refine ⟨h.counted.put path key record, fun other k i hm hi => ?_, fun other => ?_⟩
  · rw [sequence_put]
    rcases List.mem_cons.mp hm with he | hm
    · obtain ⟨rfl, rfl⟩ := Prod.mk.inj he
      obtain rfl : key = .int i := Option.some.inj (hk.symm.trans hi)
      rw [if_pos rfl, Table.reach]
      omega
    · have hle := h.covered other k i hm hi
      have hreach := Table.le_reach (ts.table other).sequence key
      split <;> omega
  · rw [sequence_put]
    have hold : (ts.table other).sequence = 0 ∨ ∃ k, (other, k) ∈ (path, id) :: written ∧
        RecordKey.of? k = some (.int (ts.table other).sequence) :=
      (h.attained other).imp_right (Exists.imp fun _ => And.imp_left (List.mem_cons_of_mem _))
    split
    · next hp =>
      subst hp
      cases key with
      | text s => exact hold
      | int i =>
        -- either the number goes beyond the sequence or it changes nothing
        rcases Int.lt_or_le (ts.table other).sequence i with hlt | hle
        · have hreach : ((Table.reach (ts.table other).sequence (.int i) : Nat) : Int) = i := by
            rw [Table.reach]
            omega
          exact .inr ⟨id, List.mem_cons_self, by rw [hreach, hk]⟩
        · have hreach : Table.reach (ts.table other).sequence (.int i) =
              (ts.table other).sequence := by
            rw [Table.reach]
            omega
          rw [hreach]
          exact hold
    · exact hold

theorem erase (h : ts.Accounts written) (path : String) (key : RecordKey) :
    (ts.erase path key).Accounts written := by
  have hsequence (other : String) :
      ((ts.erase path key).table other).sequence = (ts.table other).sequence := by
    by_cases hp : path = other
    · subst hp
      rw [Tables.erase, table_set_self]
      rfl
    · rw [Tables.erase, table_set_of_ne ts hp]
  refine ⟨h.counted.erase path key, fun other id i hm hi => ?_, fun other => ?_⟩
  · rw [hsequence]
    exact h.covered other id i hm hi
  · rw [hsequence]
    exact h.attained other

theorem of_saves {m : Model} {outcome : Except Error Json × Tables} (h : ts.Accounts written)
    (hsaves : UnitOfWork.Saves m ts outcome) :
    outcome.2.Accounts (History.note m outcome.1 written) := by
  cases hsaves with
  | failed e => exact h
  | @saved record id key hid hk =>
    rw [History.note, Json.get_of_get? hid]
    exact h.put m.path hk record

theorem of_remove (h : ts.Accounts written) (m : Model) (id : Json) :
    ((UnitOfWork.remove m id).run ts).2.Accounts written := by
  cases hk : RecordKey.of? id with
  | none =>
    unfold UnitOfWork.remove UnitOfWork.keyOf
    rw [hk]
    exact h
  | some key =>
    rw [UnitOfWork.run_remove hk]
    dsimp only
    split
    · exact h.erase m.path key
    · exact h

end Accounts

end Tables

namespace History

variable {fresh : Table → String} {h : History}

structure Sound (h : History) : Prop where
  current : h.session.current.Accounts h.written
  kept : ∃ ts, h.session.kept = some ts ∧ ts.Accounts h.committed

theorem sound_start : start.Sound :=
  ⟨.empty, _, rfl, .empty⟩

theorem Sound.save (hs : h.Sound) {m : Model} {u : UnitOfWork Json}
    (hu : UnitOfWork.Saves m h.session.current (u.run h.session.current)) : (h.save m u).Sound :=
  ⟨hs.current.of_saves hu, hs.kept⟩

theorem Sound.take (hs : h.Sound) (fresh : Table → String) (step : Step) : (h.take fresh step).Sound := by
  cases step with
  | persist m record => exact hs.save (UnitOfWork.saves_persist hs.current.counted fresh m record)
  | merge m record => exact hs.save (UnitOfWork.saves_merge m record h.session.current)
  | remove m id => exact ⟨hs.current.of_remove m id, hs.kept⟩
  | commit => exact ⟨hs.current, _, rfl, hs.current⟩
  | rollback =>
    obtain ⟨ts, hts, hkept⟩ := hs.kept
    have hclose : h.session.close = ts := by rw [Session.close, hts, Option.getD_some]
    have hsound : ts.Accounts h.committed := hkept
    rw [History.take, hclose]
    exact ⟨hsound, ts, rfl, hsound⟩

theorem Sound.foldl (hs : h.Sound) (fresh : Table → String) (steps : List Step) :
    (steps.foldl (History.take fresh) h).Sound := by
  induction steps generalizing h with
  | nil => exact hs
  | cons step rest ih => exact ih (hs.take fresh step)

theorem sound_run (fresh : Table → String) (steps : List Step) : (run fresh steps).Sound :=
  sound_start.foldl fresh steps

section Generated

variable {m : Model} {record : Json} (hgen : m.identityGenerated = true)
  (hint : m.identityType.isIntegral = true) (hobject : record.IsObject)
  (hnone : m.identityOf record = none)

include hgen hint hobject hnone

/-- As long as the sequence is not at the end of its range, a record without an identity is saved, and its
identity follows all numbers under which records of the path have been saved by the open unit of work or by
committed ones, whether they are still there or not. -/
theorem generated_identities_follow_all_others (fresh : Table → String) (steps : List Step)
    (hlt : ((run fresh steps).session.current.table m.path).sequence < 0x7FFFFFFFFFFFFFFF) :
    ∃ (n : Whole) (next : Session),
      (run fresh steps).session.perform (UnitOfWork.persist fresh m record) =
        (.ok (record.set m.identity (.num (.whole n))), next) ∧ 0 < n.value ∧
      ∀ id, (m.path, id) ∈ (run fresh steps).written →
        (∀ i, RecordKey.of? id = some (.int i) → i < n.value) ∧
        ∀ k, id = .num (.whole k) → k.value < n.value := by
  obtain ⟨hcounted, hcovered, -⟩ := (sound_run fresh steps).current
  generalize run fresh steps = h at *
  obtain ⟨n, hn, -, hrun⟩ :=
    UnitOfWork.run_persist_numbered hgen hint hobject hnone hcounted hlt fresh
  refine ⟨n, _, by rw [Session.perform, hrun], by omega, fun id hid => ?_⟩
  have hkeys (i : Int) (hi : RecordKey.of? id = some (.int i)) : i < n.value := by
    have hle := hcovered m.path id i hid hi
    omega
  refine ⟨hkeys, fun k hk => ?_⟩
  subst hk
  have hkey := hkeys _ (RecordKey.of?_whole k)
  omega

end Generated

end History

namespace Booth

def ticket : Model :=
  ⟨"Ticket", "tickets", true, "id", .integer, true, [⟨"title", .string⟩], [], []⟩

def receipt : Model :=
  { ticket with typeName := "Receipt", path := "receipts", identityType := .long }

/-- One ticket is sold and later removed, the sale of a second one is rolled back. -/
def sales : List Step :=
  [.persist ticket (.ofPairs [("id", .ofNat 7)]), .commit, .persist ticket (.ofPairs []), .rollback,
    .merge ticket (.ofPairs [("id", .ofNat 3)]), .remove ticket (.ofNat 7)]

def noText (_ : Table) : String :=
  ""

end Booth

namespace History

open Booth

/-- The number of the second ticket is given out again, that of the removed one is not. -/
theorem ticket_follows_removed_one :
    (run noText sales).session.current.find? "tickets" (.ofNat 7) = none ∧
    ((run noText sales).session.perform (UnitOfWork.persist noText ticket (.ofPairs []))).1 =
      .ok (.ofPairs [("id", .ofNat 8)]) ∧
    ∃ (n : Whole) (next : Session),
      (run noText sales).session.perform (UnitOfWork.persist noText ticket (.ofPairs [])) =
        (.ok (.ofPairs [("id", .num (.whole n))]), next) ∧ 0 < n.value ∧ 7 < n.value := by
  obtain ⟨n, next, hperform, hpos, hfollows⟩ := generated_identities_follow_all_others (m := ticket)
    rfl rfl (Json.isObject_ofPairs []) rfl noText sales (by decide)
  have hseven : (ticket.path, Json.ofNat 7) ∈ (run noText sales).written := .tail _ (.head _)
  exact ⟨rfl, rfl, n, next, hperform, hpos, (hfollows _ hseven).1 7 rfl⟩

section Generated

variable {m : Model} {record : Json} (hgen : m.identityGenerated = true)
  (hint : m.identityType.isIntegral = true) (hobject : record.IsObject)
  (hnone : m.identityOf record = none)

include hgen hint hobject hnone

/-- A record without an identity is saved under one that is accepted, and found under it, just as long as
no record of the path has been saved under the largest number of the type or one beyond it. -/
theorem generated_identities_are_accepted_iff (fresh : Table → String) (steps : List Step) :
    (∃ (n : Whole) (next : Session),
      (run fresh steps).session.perform (UnitOfWork.persist fresh m record) =
        (.ok (record.set m.identity (.num (.whole n))), next) ∧
      m.coerceIdentity (.num (.whole n)) = .ok (.num (.whole n)) ∧
      next.current.find? m.path (.num (.whole n)) =
        some (record.set m.identity (.num (.whole n)))) ↔
    ∀ id i, (m.path, id) ∈ (run fresh steps).written → RecordKey.of? id = some (.int i) →
      i < m.identityType.greatest := by
  have haccounts := (sound_run fresh steps).current
  generalize run fresh steps = h at *
  obtain ⟨hpos, hgreatest⟩ := m.identityType.greatest_bounds
  rw [haccounts.below_iff m.path hpos]
  rcases Nat.lt_or_ge (h.session.current.table m.path).sequence 0x7FFFFFFFFFFFFFFF with hlt | hle
  · obtain ⟨n, hn, hkey, hrun⟩ :=
      UnitOfWork.run_persist_numbered hgen hint hobject hnone haccounts.counted hlt fresh
    have haccepted := m.coerceIdentity_whole_iff hint (n := n) (by omega)
    rw [FieldType.holds_iff_le_greatest (by omega)] at haccepted
    constructor
    · rintro ⟨k, next, hperform, hk, -⟩
      rw [Session.perform, hrun] at hperform
      have hsame := congrArg (Json.get? · m.identity) (Except.ok.inj (Prod.mk.inj hperform).1)
      simp only [Json.get?_set_self hobject, Option.some.injEq] at hsame
      have hlast := haccepted.mp (hsame ▸ hk)
      omega
    · intro hroom
      refine ⟨n, _, by rw [Session.perform, hrun], haccepted.mpr (by omega), ?_⟩
      rw [Tables.find?_eq_row? hkey]
      exact Tables.row?_put_self _ _ _ _
  · refine iff_of_false ?_ (by omega)
    rintro ⟨k, next, hperform, -⟩
    rw [Session.perform, UnitOfWork.run_persist_exhausted hgen hint hobject hnone hle] at hperform
    cases (Prod.mk.inj hperform).1

end Generated

theorem ticket_of_sales_is_accepted : ∃ (n : Whole) (next : Session),
    (run noText sales).session.perform (UnitOfWork.persist noText ticket (.ofPairs [])) =
      (.ok (.ofPairs [("id", .num (.whole n))]), next) ∧
    ticket.coerceIdentity (.num (.whole n)) = .ok (.num (.whole n)) ∧
    next.current.find? "tickets" (.num (.whole n)) = some (.ofPairs [("id", .num (.whole n))]) := by
  refine (generated_identities_are_accepted_iff (m := ticket) rfl rfl (Json.isObject_ofPairs []) rfl
    noText sales).mpr fun id i hid hi => ?_
  have hwritten : (run noText sales).written = [("tickets", .ofNat 3), ("tickets", .ofNat 7)] := rfl
  rw [hwritten] at hid
  rcases List.mem_cons.mp hid with he | hid
  · obtain rfl := (Prod.mk.inj he).2
    cases hi
    decide
  · obtain rfl := (Prod.mk.inj (List.mem_singleton.mp hid)).2
    cases hi
    decide

/-- The last ticket has an identity that is accepted as it is. The one after it is saved under a number that
is refused, and after the last receipt the sequence is exhausted. -/
theorem ticket_after_last_one_is_refused :
    ticket.coerceIdentity (.ofNat 0x7FFFFFFF) = .ok (.ofNat 0x7FFFFFFF) ∧
    ((run noText [.persist ticket (.ofPairs [("id", .ofNat 0x7FFFFFFF)])]).session.perform
      (UnitOfWork.persist noText ticket (.ofPairs []))).1 = .ok (.ofPairs [("id", .ofNat 0x80000000)]) ∧
    ticket.coerceIdentity (.ofNat 0x80000000) = .error (.invalidIdentity "tickets"
      (.inconvertible ⟨.ofNat 0x80000000, .integer⟩)) ∧
    receipt.coerceIdentity (.ofNat 0x7FFFFFFFFFFFFFFF) = .ok (.ofNat 0x7FFFFFFFFFFFFFFF) ∧
    ((run noText [.persist receipt (.ofPairs [("id", .ofNat 0x7FFFFFFFFFFFFFFF)])]).session.perform
      (UnitOfWork.persist noText receipt (.ofPairs []))).1 =
        .error (.storage (.exhausted "receipts")) :=
  ⟨rfl, rfl, rfl, rfl, rfl⟩

end History

end EntityGraph
