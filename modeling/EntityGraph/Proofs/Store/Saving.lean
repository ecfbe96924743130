import EntityGraph.Proofs.Store.Assertions
import EntityGraph.Proofs.Store.Counting

namespace EntityGraph

namespace Tables

theorem put_advance (ts : Tables) (path : String) {key : RecordKey} (record : Json)
    (h : Table.reach (ts.table path).sequence key = (ts.table path).sequence + 1) :
    (ts.set path (ts.table path).advance).put path key record = ts.put path key record := by
  have hreach : Table.reach ((ts.table path).sequence + 1) key =
      Table.reach (ts.table path).sequence key := by
    rw [← h, Table.reach_reach]
  have htable : (ts.table path).advance.put key record = (ts.table path).put key record := by
    simp only [Table.put, Table.advance, hreach]
  rw [put, table_set_self, htable]
  exact congrArg Tables.mk (OrderedMap.insert_insert_self _ _ _ _)

end Tables

namespace UnitOfWork

variable {m : Model} {record id saved : Json} {key : RecordKey} {fresh : Table → String} {ts : Tables}

/-- What becomes of tables by a step that saves a record: it fails and nothing has changed, or the record
stands under the key of its identity. -/
inductive Saves (m : Model) (ts : Tables) : Except Error Json × Tables → Prop
  | failed (e : Error) : Saves m ts (.error e, ts)
  | saved {record id : Json} {key : RecordKey} (hid : record.get? m.identity = some id)
      (hk : RecordKey.of? id = some key) : Saves m ts (.ok record, ts.put m.path key record)

theorem saves_merge (m : Model) (record : Json) (ts : Tables) :
    Saves m ts ((merge m record).run ts) := by
  cases hid : m.identityOf record with
  | none =>
    unfold merge
    rw [hid]
    exact .failed _
  | some id =>
    cases hk : RecordKey.of? id with
    | none =>
      unfold merge keyOf
      rw [hid]
      dsimp only
      rw [hk]
      exact .failed _
    | some key =>
      rw [run_merge hid hk]
      exact .saved (Model.identityOf_eq_some_iff.mp hid).1 hk

theorem run_persistAs_of_free (hk : RecordKey.of? id = some key) (hfree : ts.row? m.path key = none) :
    (persistAs m record id).run ts =
      (.ok (record.set m.identity id), ts.put m.path key (record.set m.identity id)) := by
  have htaken : ((ts.table m.path).get? key).isSome = false := by
    rw [← Tables.row?, hfree]
    rfl
  unfold persistAs
  rw [run_bind_of_ok (run_lift_eq_ok_iff.mpr ⟨keyOf_eq_ok_iff.mpr hk, rfl⟩),
    run_bind_of_ok (run_read _ ts), htaken]
  rfl

theorem run_persistAs_of_taken (hk : RecordKey.of? id = some key)
    (htaken : (ts.row? m.path key).isSome = true) : (persistAs m record id).run ts =
      (.error (.storage (.conflict (.alreadyExists m.path id))), ts) := by
  rw [Tables.row?] at htaken
  unfold persistAs
  rw [run_bind_of_ok (run_lift_eq_ok_iff.mpr ⟨keyOf_eq_ok_iff.mpr hk, rfl⟩),
    run_bind_of_ok (run_read _ ts), htaken]
  rfl

theorem run_persistAs_of_keyless (hk : RecordKey.of? id = none) : (persistAs m record id).run ts =
    (.error (.storage (.corrupt (.notKey m.path id))), ts) := by
  unfold persistAs keyOf
  rw [hk]
  rfl

theorem saves_persistAs (h : record.IsObject) (id : Json) (ts : Tables) :
    Saves m ts ((persistAs m record id).run ts) := by
  cases hk : RecordKey.of? id with
  | none =>
    rw [run_persistAs_of_keyless hk]
    exact .failed _
  | some key =>
    cases hrow : ts.row? m.path key with
    | none =>
      rw [run_persistAs_of_free hk hrow]
      exact .saved (Json.get?_set_self h m.identity id) hk
    | some old =>
      rw [run_persistAs_of_taken hk (Option.isSome_of_mem hrow)]
      exact .failed _

theorem run_nextNumber_of_lt (h : (ts.table m.path).sequence < 0x7FFFFFFFFFFFFFFF) :
    ∃ n : Whole, n.value = (ts.table m.path).sequence + 1 ∧ (nextNumber m).run ts =
      (.ok (.num (.whole n)), ts.set m.path (ts.table m.path).advance) := by
  have hrange : -0x8000000000000000 ≤ ((ts.table m.path).sequence + 1 : Int) ∧
      ((ts.table m.path).sequence + 1 : Int) < 0x10000000000000000 := by omega
  refine ⟨⟨_, hrange.1, hrange.2⟩, rfl, ?_⟩
  have hnext : (Number.ofInt? ((ts.table m.path).sequence + 1 : Nat)).filter
      (fun n => n.signed?.isSome) = some (.whole ⟨_, hrange.1, hrange.2⟩) := by
    have hsigned : ((ts.table m.path).sequence + 1 : Int) < 0x8000000000000000 := by omega
    rw [Int.natCast_succ, Number.ofInt?, dif_pos hrange, Option.filter_some, Number.signed?,
      if_pos hsigned]
    rfl
  unfold nextNumber
  rw [run_bind_of_ok (run_read _ ts), hnext]
  rfl

theorem run_nextNumber_of_le (h : 0x7FFFFFFFFFFFFFFF ≤ (ts.table m.path).sequence) :
    (nextNumber m).run ts = (.error (.storage (.exhausted m.path)), ts) := by
  have hnext : (Number.ofInt? ((ts.table m.path).sequence + 1 : Nat)).filter
      (fun n => n.signed?.isSome) = none := by
    rw [Option.filter_eq_none_iff]
    intro n hn
    unfold Number.ofInt? at hn
    split at hn
    · rw [← Option.some.inj hn, Number.signed?, if_neg (by dsimp only; omega)]
      exact Bool.false_ne_true
    · cases hn
  unfold nextNumber
  rw [run_bind_of_ok (run_read _ ts), hnext]
  rfl

theorem nextIdentity_of_isIntegral (hgen : m.identityGenerated = true)
    (hint : m.identityType.isIntegral = true) (fresh : Table → String) :
    nextIdentity fresh m = nextNumber m := by
  unfold nextIdentity
  rw [hgen]
  cases ht : m.identityType with
  | integer | long => rfl
  | _ =>
    rw [ht] at hint
    cases hint

theorem run_nextIdentity_of_not_integral
    (h : ¬(m.identityGenerated = true ∧ m.identityType.isIntegral = true)) (fresh : Table → String)
    (ts : Tables) : ((nextIdentity fresh m).run ts).2 = ts := by
  unfold nextIdentity
  cases hgen : m.identityGenerated with
  | false => rfl
  | true =>
    cases ht : m.identityType with
    | integer | long => exact absurd ⟨hgen, by rw [ht]; rfl⟩ h
    | _ => rfl

section Numbered

variable (hgen : m.identityGenerated = true)
  (hint : m.identityType.isIntegral = true) (hobject : record.IsObject)
  (hnone : m.identityOf record = none)

include hgen hint hobject hnone

theorem run_persist_numbered (hts : ts.Counted)
    (hlt : (ts.table m.path).sequence < 0x7FFFFFFFFFFFFFFF) (fresh : Table → String) :
    ∃ n : Whole, n.value = (ts.table m.path).sequence + 1 ∧
      RecordKey.of? (.num (.whole n)) = some (.int n.value) ∧
      (persist fresh m record).run ts = (.ok (record.set m.identity (.num (.whole n))),
        ts.put m.path (.int n.value) (record.set m.identity (.num (.whole n)))) := by
  obtain ⟨n, hn, hrun⟩ := run_nextNumber_of_lt hlt
  have hkey : RecordKey.of? (.num (.whole n)) = some (.int n.value) := by
    have hmin : min n.value 0x7FFFFFFFFFFFFFFF = n.value := by omega
    rw [RecordKey.of?_whole, hmin]
  have hfree : ts.row? m.path (.int n.value) = none := hts.row?_eq_none (by omega)
  refine ⟨n, hn, hkey, ?_⟩
  have hreach : Table.reach (ts.table m.path).sequence (.int n.value) =
      (ts.table m.path).sequence + 1 := by
    rw [Table.reach]
    omega
  rw [persist_eq fresh m hobject, hnone]
  dsimp only
  rw [nextIdentity_of_isIntegral hgen hint, run_bind_of_ok hrun,
    run_persistAs_of_free hkey (row?_of_run_nextNumber hrun m.path _ ▸ hfree),
    Tables.put_advance ts m.path _ hreach]

theorem run_persist_exhausted (hle : 0x7FFFFFFFFFFFFFFF ≤ (ts.table m.path).sequence)
    (fresh : Table → String) :
    (persist fresh m record).run ts = (.error (.storage (.exhausted m.path)), ts) := by
  rw [persist_eq fresh m hobject, hnone]
  dsimp only
  rw [nextIdentity_of_isIntegral hgen hint, run_bind, run_nextNumber_of_le hle]

end Numbered

theorem saves_persist (hts : ts.Counted) (fresh : Table → String) (m : Model) (record : Json) :
    Saves m ts ((persist fresh m record).run ts) := by
  by_cases hobject : record.IsObject
  · cases hid : m.identityOf record with
    | some id =>
      rw [persist_eq fresh m hobject, hid]
      exact saves_persistAs hobject id ts
    | none =>
      by_cases hnumber : m.identityGenerated = true ∧ m.identityType.isIntegral = true
      · obtain ⟨hgen, hint⟩ := hnumber
        rcases Nat.lt_or_ge (ts.table m.path).sequence 0x7FFFFFFFFFFFFFFF with hlt | hle
        · obtain ⟨n, -, hkey, hrun⟩ :=
            run_persist_numbered hgen hint hobject hid hts hlt fresh
          rw [hrun]
          exact .saved (Json.get?_set_self hobject _ _) hkey
        · rw [run_persist_exhausted hgen hint hobject hid hle]
          exact .failed _
      · have hsame := run_nextIdentity_of_not_integral hnumber fresh ts
        rw [persist_eq fresh m hobject, hid, run_bind]
        dsimp only
        rcases hnext : (nextIdentity fresh m).run ts with ⟨e | id, next⟩
        · rw [hnext] at hsame
          rw [← hsame]
          exact .failed e
        · rw [hnext] at hsame
          rw [← hsame]
          exact saves_persistAs hobject id next
  · cases record with
    | obj members => exact absurd (Json.isObject_obj members) hobject
    | _ => exact .failed _

end UnitOfWork

end EntityGraph
