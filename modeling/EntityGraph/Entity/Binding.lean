import EntityGraph.Entity.Input
import EntityGraph.Entity.Record
import EntityGraph.Store.Tables

namespace EntityGraph

namespace Registry

def target (g : Registry) (r : Relation) : Except Error Model :=
  match g.get? r.target with
  | some target => .ok target
  | none => .error (.relationship r.name (.unknownTarget r.target))

def fetch? (g : Registry) (ts : Tables) (target : Model) (reference : Json) : Option Json :=
  ((target.referenceId? reference).bind (ts.find? target.path)).map (g.fromRecord target)

/-- Whether two entities are the same one: by identity once the second has one, by content
before. -/
def sameEntity (m : Model) (candidate snapshot : Json) : Bool :=
  match m.identityOf candidate, m.identityOf snapshot with
  | some a, some b => a.sameIdentity b
  | _, none => candidate == snapshot
  | none, some _ => false

def fetchAll (g : Registry) (ts : Tables) (target : Model) (references : List Json) : Json :=
  .arr (distinctBy (sameEntity target) (references.filterMap (g.fetch? ts target)))

def boundByName (g : Registry) (ts : Tables) (target : Model) (r : Relation) (v : Json) :
    Option Json :=
  match r.isCollection, v with
  | _, .null => some r.empty
  | true, .arr items => some (g.fetchAll ts target items)
  | true, _ => none
  | false, v => g.fetch? ts target v

def boundByIdentity (g : Registry) (ts : Tables) (target : Model) (r : Relation) (v : Json) :
    Option Json :=
  match r.isCollection, v with
  | _, .null => some r.empty
  | true, .arr items => some (g.fetchAll ts target items)
  | true, v => some (g.fetchAll ts target [v])
  | false, v => g.fetch? ts target v

/-- The value that an input gives to a relation, if it gives one. -/
def bound? (g : Registry) (ts : Tables) (target : Model) (r : Relation) (raw : Json) :
    Option Json :=
  ((raw.get? r.identityKey).bind (g.boundByIdentity ts target r)).or
    ((raw.get? r.name).bind (g.boundByName ts target r))

def bindRelations (g : Registry) (ts : Tables) (raw : Json) :
    List Relation → Json → Except Error Json
  | [], entity => .ok entity
  | r :: rest, entity => do
      let target ← g.target r
      bindRelations g ts raw rest
        (match g.bound? ts target r raw with
        | some v => entity.set r.name v
        | none => entity)

end Registry

end EntityGraph
