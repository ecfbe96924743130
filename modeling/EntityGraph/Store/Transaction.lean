import EntityGraph.Store.UnitOfWork

namespace EntityGraph

/-- Work on tables in place. The tables of the beginning are kept until the work is committed. -/
structure Session where
  current : Tables
  kept : Option Tables

namespace Session

variable {α : Type}

def begin (ts : Tables) : Session :=
  ⟨ts, some ts⟩

/-- Take the steps of a unit of work. What is written before a step fails stays written. -/
def perform (session : Session) (u : UnitOfWork α) : Except Error α × Session :=
  match u.run session.current with
  | (result, ts) => (result, { session with current := ts })

def commit (session : Session) : Session :=
  { session with kept := none }

def close (session : Session) : Tables :=
  session.kept.getD session.current

end Session

/-- Units of work on one session, and when they are committed. -/
def Transaction (α : Type) : Type :=
  Session → Except Error α × Session

namespace Transaction

def run {α : Type} (t : Transaction α) (session : Session) : Except Error α × Session :=
  t session

instance : Monad Transaction where
  pure a := fun session => (.ok a, session)
  bind t f := fun session =>
    match t session with
    | (.ok a, next) => f a next
    | (.error e, next) => (.error e, next)

instance : MonadLift UnitOfWork Transaction where
  monadLift u := fun session => session.perform u

def commit : Transaction Unit :=
  fun session => (.ok (), session.commit)

end Transaction

def UnitOfWork.committed {α : Type} (u : UnitOfWork α) : Transaction α := do
  let a ← u
  Transaction.commit
  return a

end EntityGraph
