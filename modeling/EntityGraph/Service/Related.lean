import EntityGraph.Service.Basic

namespace EntityGraph

namespace Service

variable (s : Service)

def relation (m : Model) (name : String) : Except Error Relation :=
  match m.relation? name with
  | some r => .ok r
  | none => .error (.relationNotFound m.path name)

def relatedLookup (path : String) (id : Json) (relationName : String) :
    Except Error (UnitOfWork Json) := do
  let m ← s.registry.resolve path
  let r ← relation m relationName
  let id ← m.coerceIdentity id
  return UnitOfWork.attempt fun ts => do
    let record ← existing ts m id
    let entity ← s.expanded ts m (max s.settings.relationDepth 1) record
    return (entity.get? r.name).getD r.empty

def getRelated (path : String) (id : Json) (relationName : String) :
    Except Error (Transaction Json) := do
  return (← s.relatedLookup path id relationName).committed

def relatedIdentity (target : Model) (related : Json) : Except Error Json :=
  match related with
  | .obj _ => target.coerceIdentity ((target.identityOf related).getD .null)
  | v => target.coerceIdentity v

/-- Edit the reference of a record, which is then the single holder of it if it `claims` that and the
reference is one-to-one. The answer is the changed record, if there was something to change. -/
def editSlot (link claims : Bool) (holder : Model) (record holderId : Json) (field : String)
    (many : Bool) (id : Json) : UnitOfWork (Option Json) :=
  match record.editReference link field id many with
  | none => pure none
  | some changed => do
      discard (UnitOfWork.merge holder changed)
      if claims then s.unshare holder field holderId id
      return some changed

/-- Edit a relation between two entities. The write lands on whichever side stores the reference. -/
def editBetween (link : Bool) (m : Model) (r : Relation) (target : Model) (id relatedId : Json) :
    UnitOfWork Json := do
  let root ← .attempt fun ts => existing ts m id
  let other ← .attempt fun ts => existing ts target relatedId
  let changed ← match r.mappedBy with
    | none => s.editSlot link link m root id r.name r.isCollection relatedId
    | some owner =>
        let many := ((target.relation? owner).map Relation.isCollection).getD false
        s.editSlot link (link && !many) target other relatedId owner many id
  if !link ∧ changed.isNone then throw (.entityNotFound target.path relatedId)
  .attempt fun ts => s.loaded ts m (if r.isOwning then changed.getD root else root)

def relatedEdit (link : Bool) (path : String) (id : Json) (relationName : String)
    (related : Json) : Except Error (UnitOfWork Json) := do
  let m ← s.registry.resolve path
  let r ← relation m relationName
  let target ← s.registry.resolve r.target
  let id ← m.coerceIdentity id
  let relatedId ← relatedIdentity target related
  return s.editBetween link m r target id relatedId

def editRelated (link : Bool) (path : String) (id : Json) (relationName : String)
    (related : Json) : Except Error (Transaction Json) := do
  return (← s.relatedEdit link path id relationName related).committed

def addRelated (path : String) (id : Json) (relationName : String) (related : Json) :
    Except Error (Transaction Json) :=
  s.editRelated true path id relationName related

def removeRelated (path : String) (id : Json) (relationName : String) (related : Json) :
    Except Error (Transaction Json) :=
  s.editRelated false path id relationName related

end Service

end EntityGraph
