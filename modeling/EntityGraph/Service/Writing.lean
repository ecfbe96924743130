import EntityGraph.Service.Basic

namespace EntityGraph

namespace Service

variable (s : Service)

/-- What there is to do for a new entity. An identity that is to be generated is not taken from the
input. -/
def creation (path : String) (input : EntityInput) : Except Error (UnitOfWork Json) := do
  let m ← s.registry.resolve path
  let input := if m.identityGenerated then input.without m.identity else input
  let entity ← input.toEntity m
  return do
    let agreed ← .read fun ts => s.registry.agree ts m entity input
    let entity ← s.hooks.beforeCreate m agreed.entity
    s.validate m entity
    let saved ← UnitOfWork.persist s.fresh m (s.registry.toRecord m entity)
    match m.identityOf saved with
    | none => throw (.storage (.corrupt (.withoutIdentity m.path)))
    | some id =>
        s.unshareAll m id saved
        s.writeBackLinks agreed.pending id
        let loaded ← .attempt fun ts => s.loaded ts m saved
        s.hooks.afterCreate m loaded

def create (path : String) (input : EntityInput) : Except Error (Transaction Json) := do
  return (← s.creation path input).committed

/-- The stored entity with what is written laid over it. -/
def merged (m : Model) (id existing incoming : Json) : Json :=
  (incoming.members.foldl (fun v p => v.set p.1 p.2) (s.registry.fromRecord m existing)).set
    m.identity id

/-- What there is to do for a change of an entity. What the input does not name is kept. -/
def revision (path : String) (id : Json) (input : EntityInput) : Except Error (UnitOfWork Json) := do
  let m ← s.registry.resolve path
  let id ← m.coerceIdentity id
  let input := input.without m.identity
  let incoming ← input.toEntity m
  return do
    let record ← .attempt fun ts => existing ts m id
    let agreed ← .read fun ts => s.registry.agree ts m (s.merged m id record incoming) input
    let entity ← s.hooks.beforeUpdate m id agreed.entity
    s.validate m entity
    let saved ← UnitOfWork.merge m (s.registry.toRecord m entity)
    s.unshareAll m id saved
    s.writeBackLinks agreed.pending id
    let loaded ← .attempt fun ts => s.loaded ts m saved
    s.hooks.afterUpdate m id loaded

def update (path : String) (id : Json) (input : EntityInput) : Except Error (Transaction Json) := do
  return (← s.revision path id input).committed

def ownersOf (m : Model) : List (Model × Relation) :=
  s.registry.models.flatMap fun other =>
    (other.owning.filter fun r => r.target == m.path).map (other, ·)

/-- What there is to do to be rid of an entity, and before that of all references to it. -/
def deletion (path : String) (id : Json) : Except Error (UnitOfWork Unit) := do
  let m ← s.registry.resolve path
  let id ← m.coerceIdentity id
  return do
    discard (UnitOfWork.attempt fun ts => existing ts m id)
    (s.ownersOf m).forM fun (other, r) => s.detach other r id fun _ => false
    if ← UnitOfWork.remove m id then pure () else throw (.entityNotFound m.path id)

def delete (path : String) (id : Json) : Except Error (Transaction Unit) := do
  return (← s.deletion path id).committed

end Service

end EntityGraph
