import EntityGraph.Proofs.Query.Holders
import EntityGraph.Proofs.Store.Saving

namespace EntityGraph

namespace Model

def Generates (m : Model) : Prop :=
  m.identityGenerated = true ∧ (m.identityType.isIntegral = true ∨ m.identityType = .uuid)

/-- The identity under which a record is to be added to a table: its own, or else one that is generated. -/
inductive Assigns (m : Model) (fresh : Table → String) (t : Table) (record : Json) : Json → Prop
  | own {id : Json} (h : m.identityOf record = some id) : Assigns m fresh t record id
  | number {n : Whole} (h : m.identityOf record = none) (hgen : m.identityGenerated = true)
      (hint : m.identityType.isIntegral = true) (hn : n.value = t.sequence + 1) :
      Assigns m fresh t record (.num (.whole n))
  | text (h : m.identityOf record = none) (hgen : m.identityGenerated = true)
      (huuid : m.identityType = .uuid) : Assigns m fresh t record (.str (fresh t))

section Assigns

variable {m : Model} {fresh : Table → String} {t : Table} {record id x : Json}

theorem assigns_own_iff (h : m.identityOf record = some id) : m.Assigns fresh t record x ↔ x = id := by
  constructor
  · intro hx
    cases hx with
    | own hown => exact Option.some.inj (hown.symm.trans h)
    | number hnone | text hnone => exact nomatch hnone.symm.trans h
  · rintro rfl
    exact .own h

variable (hnone : m.identityOf record = none) (hgen : m.identityGenerated = true)

include hnone hgen

theorem assigns_number_iff (hint : m.identityType.isIntegral = true) {n : Whole}
    (hn : n.value = t.sequence + 1) : m.Assigns fresh t record x ↔ x = .num (.whole n) := by
  constructor
  · intro hx
    cases hx with
    | own hown => exact nomatch hown.symm.trans hnone
    | @number k _ _ _ hk => rw [Whole.eq_of_value (hk.trans hn.symm)]
    | text _ _ huuid => exact nomatch hint.symm.trans (congrArg FieldType.isIntegral huuid)
  · rintro rfl
    exact .number hnone hgen hint hn

theorem assigns_text_iff (huuid : m.identityType = .uuid) :
    m.Assigns fresh t record x ↔ x = .str (fresh t) := by
  constructor
  · intro hx
    cases hx with
    | own hown => exact nomatch hown.symm.trans hnone
    | number _ _ hint => exact nomatch hint.symm.trans (congrArg FieldType.isIntegral huuid)
    | text => rfl
  · rintro rfl
    exact .text hnone hgen huuid

end Assigns

end Model

namespace UnitOfWork

def Conflicts {α : Type} (answer : Except Error α) : Prop :=
  ∃ cause, answer = .error (.storage (.conflict cause))

theorem not_conflicts_ok {α : Type} (a : α) : ¬Conflicts (.ok a) := by
  rintro ⟨cause, h⟩
  cases h

theorem not_conflicts_corrupt {α : Type} (c : Corruption) :
    ¬Conflicts (.error (.storage (.corrupt c)) : Except Error α) := by
  rintro ⟨cause, h⟩
  cases h

variable {fresh : Table → String} {m : Model} {record id : Json} {ts : Tables}

theorem persistAs_conflicts_iff :
    Conflicts ((persistAs m record id).run ts).1 ↔ ts.Stored m.path id := by
  cases hk : RecordKey.of? id with
  | none =>
    rw [run_persistAs_of_keyless hk, Tables.Stored, Tables.find?, hk]
    exact iff_of_false (not_conflicts_corrupt _) Bool.false_ne_true
  | some key =>
    rw [Tables.stored_iff hk]
    cases hrow : ts.row? m.path key with
    | none =>
      rw [run_persistAs_of_free hk hrow]
      exact iff_of_false (not_conflicts_ok _) Bool.false_ne_true
    | some old =>
      rw [run_persistAs_of_taken hk (Option.isSome_of_mem hrow)]
      exact iff_of_true ⟨_, rfl⟩ rfl

theorem run_persist_ungenerated (hobject : record.IsObject) (hnone : m.identityOf record = none)
    (hgen : ¬m.Generates) : Conflicts ((persist fresh m record).run ts).1 := by
  rw [persist_eq fresh m hobject, hnone, run_bind]
  unfold nextIdentity
  cases hflag : m.identityGenerated with
  | false => exact ⟨_, rfl⟩
  | true =>
    cases ht : m.identityType with
    | integer | long => exact absurd ⟨hflag, .inl (by rw [ht]; rfl)⟩ hgen
    | uuid => exact absurd ⟨hflag, .inr ht⟩ hgen
    | _ => exact ⟨_, rfl⟩

theorem run_persist_text (hobject : record.IsObject) (hnone : m.identityOf record = none)
    (hgen : m.identityGenerated = true) (huuid : m.identityType = .uuid) :
    (persist fresh m record).run ts = (persistAs m record (.str (fresh (ts.table m.path)))).run ts := by
  rw [persist_eq fresh m hobject, hnone]
  unfold nextIdentity
  rw [hgen, huuid]
  rfl

/-- The numbers of the path must not be exhausted. -/
theorem persist_conflicts_iff (hts : ts.Counted)
    (hlt : (ts.table m.path).sequence < 0x7FFFFFFFFFFFFFFF) (fresh : Table → String) (record : Json) :
    Conflicts ((persist fresh m record).run ts).1 ↔ record.IsObject ∧
      ((∃ id, m.Assigns fresh (ts.table m.path) record id ∧ ts.Stored m.path id) ∨
        m.identityOf record = none ∧ ¬m.Generates) := by
  by_cases hobject : record.IsObject
  · rw [and_iff_right hobject]
    cases hid : m.identityOf record with
    | some id =>
      rw [persist_eq fresh m hobject, hid]
      change Conflicts ((persistAs m record id).run ts).1 ↔ _
      simp only [persistAs_conflicts_iff, Model.assigns_own_iff hid, exists_eq_left, reduceCtorEq, false_and,
        or_false]
    | none =>
      rw [eq_self, true_and]
      by_cases hgen : m.Generates
      · rw [or_iff_left (not_not_intro hgen)]
        obtain ⟨hflag, hint | huuid⟩ := hgen
        · obtain ⟨n, hn, hkey, hrun⟩ := run_persist_numbered hflag hint hobject hid hts hlt fresh
          simp only [Model.assigns_number_iff hid hflag hint hn, exists_eq_left]
          rw [hrun, Tables.stored_iff hkey, hts.row?_eq_none (by omega)]
          exact iff_of_false (not_conflicts_ok _) Bool.false_ne_true
        · simp only [Model.assigns_text_iff hid hflag huuid, exists_eq_left]
          rw [run_persist_text hobject hid hflag huuid, persistAs_conflicts_iff]
      · exact iff_of_true (run_persist_ungenerated hobject hid hgen) (.inr hgen)
  · cases record with
    | obj members => exact absurd (Json.isObject_obj members) hobject
    | _ => exact iff_of_false (not_conflicts_corrupt _) (hobject ·.1)

end UnitOfWork

end EntityGraph
