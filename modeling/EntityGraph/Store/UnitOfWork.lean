import EntityGraph.Model.Basic
import EntityGraph.Store.Tables

namespace EntityGraph

def UnitOfWork (α : Type) : Type :=
  Tables → Except Error α × Tables

namespace UnitOfWork

def run {α : Type} (u : UnitOfWork α) (ts : Tables) : Except Error α × Tables :=
  u ts

instance : Monad UnitOfWork where
  pure a := fun ts => (.ok a, ts)
  bind u f := fun ts =>
    match u ts with
    | (.ok a, next) => f a next
    | (.error e, next) => (.error e, next)

instance : MonadExceptOf Error UnitOfWork where
  throw e := fun ts => (.error e, ts)
  tryCatch u handle := fun ts =>
    match u ts with
    | (.ok a, next) => (.ok a, next)
    | (.error e, next) => handle e next

instance : MonadLift (Except Error) UnitOfWork where
  monadLift r := fun ts => (r, ts)

variable {α β : Type}

def read (f : Tables → α) : UnitOfWork α :=
  fun ts => (.ok (f ts), ts)

def attempt (f : Tables → Except Error α) : UnitOfWork α :=
  fun ts => (f ts, ts)

def modify (f : Tables → Tables) : UnitOfWork Unit :=
  fun ts => (.ok (), f ts)

@[simp]
theorem run_pure (a : α) (ts : Tables) : (pure a : UnitOfWork α).run ts = (.ok a, ts) :=
  rfl

theorem run_bind (u : UnitOfWork α) (f : α → UnitOfWork β) (ts : Tables) :
    (u >>= f).run ts =
      match u.run ts with
      | (.ok a, next) => (f a).run next
      | (.error e, next) => (.error e, next) :=
  rfl

@[simp]
theorem run_read (f : Tables → α) (ts : Tables) : (read f).run ts = (.ok (f ts), ts) :=
  rfl

@[simp]
theorem run_attempt (f : Tables → Except Error α) (ts : Tables) :
    (attempt f).run ts = (f ts, ts) :=
  rfl

@[simp]
theorem run_modify (f : Tables → Tables) (ts : Tables) : (modify f).run ts = (.ok (), f ts) :=
  rfl

def keyOf (m : Model) (id : Json) : Except Error RecordKey :=
  match RecordKey.of? id with
  | some key => .ok key
  | none => .error (.storage (.corrupt (.notKey m.path id)))

def write (m : Model) (key : RecordKey) (record : Json) : UnitOfWork Unit :=
  modify fun ts => ts.set m.path ((ts.table m.path).put key record)

def nextNumber (m : Model) : UnitOfWork Json := do
  let next ← read fun ts => (ts.table m.path).sequence + 1
  match (Number.ofInt? next).filter fun n => n.signed?.isSome with
  | none => throw (.storage (.exhausted m.path))
  | some n =>
      modify fun ts => ts.set m.path (ts.table m.path).advance
      return .num n

/-- A new identity, where the model has its identities generated. Identities that are not numbers
come from `fresh`. -/
def nextIdentity (fresh : Table → String) (m : Model) : UnitOfWork Json := do
  if !m.identityGenerated then throw (.storage (.conflict (.identityRequired m.path)))
  match m.identityType with
  | .integer | .long => nextNumber m
  | .uuid => read fun ts => .str (fresh (ts.table m.path))
  | other => throw (.storage (.conflict (.notGenerated other m.path)))

/-- Add a record. Its identity must be new; a record without one gets one. -/
def persist (fresh : Table → String) (m : Model) (record : Json) : UnitOfWork Json := do
  match record with
  | .obj _ =>
      let id ← match m.identityOf record with
        | some id => pure id
        | none => nextIdentity fresh m
      let key ← keyOf m id
      if ← read fun ts => ((ts.table m.path).get? key).isSome then
        throw (.storage (.conflict (.alreadyExists m.path id)))
      write m key (record.set m.identity id)
      return record.set m.identity id
  | _ => throw (.storage (.corrupt (.notObject m.path)))

/-- Put a record under its identity, whether there has been one or not. -/
def merge (m : Model) (record : Json) : UnitOfWork Json := do
  match m.identityOf record with
  | none => throw (.storage (.conflict (.mergeWithoutIdentity m.path)))
  | some id =>
      write m (← keyOf m id) record
      return record

def remove (m : Model) (id : Json) : UnitOfWork Bool := do
  let key ← keyOf m id
  let present ← read fun ts => ((ts.table m.path).get? key).isSome
  modify fun ts => if present then ts.set m.path ((ts.table m.path).erase key) else ts
  return present

end UnitOfWork

end EntityGraph
