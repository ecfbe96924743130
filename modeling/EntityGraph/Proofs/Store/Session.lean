import EntityGraph.Store.Basic

namespace EntityGraph

namespace Session

/-- A session whose work, as far as it has come, is not committed. -/
inductive Open (ts : Tables) : Session → Prop
  | begin : Open ts (begin ts)
  | perform {session : Session} (h : Open ts session) {α : Type} (u : UnitOfWork α) :
      Open ts (session.perform u).2

/-- Whatever has been done, a session that is given up leaves the tables as they were. -/
theorem Open.close_eq {ts : Tables} {session : Session} (h : Open ts session) :
    session.close = ts := by
  have hkept : session.kept = some ts := by
    induction h with
    | begin => rfl
    | perform _ u ih => exact ih
  rw [close, hkept, Option.getD_some]

end Session

variable {α : Type}

/-- The commit is not reached if a step fails before it. -/
theorem UnitOfWork.run_committed (u : UnitOfWork α) (session : Session) :
    u.committed.run session =
      match session.perform u with
      | (.ok a, next) => (.ok a, next.commit)
      | (.error e, next) => (.error e, next) :=
  rfl

/-- A unit of work, if there is one to be done, committed at its end. -/
def committing (plan : Except Error (UnitOfWork α)) : Except Error (Transaction α) := do
  return (← plan).committed

namespace Store

/-- Working in place comes to the same as working on a copy, of which only success is kept. -/
theorem run_committing (ts : Tables) (u : UnitOfWork α) :
    (⟨ts, none⟩ : Store).run (committing (.ok u)) =
      ((u.run ts).1, ⟨if (u.run ts).1.isOk then (u.run ts).2 else ts, none⟩) := by
  have hrun : (⟨ts, none⟩ : Store).run (committing (.ok u)) =
      ((u.committed.run (.begin ts)).1, ⟨(u.committed.run (.begin ts)).2.close, none⟩) := rfl
  rw [hrun, UnitOfWork.run_committed, Session.perform]
  dsimp only [Session.begin]
  rcases u.run ts with ⟨e | a, next⟩ <;> rfl

end Store

end EntityGraph
