import EntityGraph.Entity.Record
import EntityGraph.Query.Compile
import EntityGraph.Store.Evaluation

namespace EntityGraph

abbrev Visited := List (String × String)

abbrev Traversal (α : Type) := StateT Visited (Except Error) α

namespace Registry

/-- The entity is new to the traversal, which has visited it from now on. -/
def visit (m : Model) (id : Json) : Traversal Bool := fun visited =>
  if visited.contains (m.path, id.text) then .ok (false, visited)
  else .ok (true, (m.path, id.text) :: visited)

def referring (g : Registry) (ts : Tables) (target : Model) (owner : String) (id : Json) :
    Except Error (List Json) := do
  let predicate ← references g target owner id
  return (← ts.query target (some predicate) none .all).map (g.fromRecord target)

def expandRelation (g : Registry) (ts : Tables) (descend : Model → Json → Traversal Json)
    (id loaded : Json) (r : Relation) : Traversal Json := do
  let target ← g.resolve r.target
  match r.mappedBy with
  | none =>
      match loaded.get r.name with
      | .arr items => return .arr (← items.mapM (descend target))
      | .null => return .null
      | v => descend target v
  | some owner =>
      let related ← (← g.referring ts target owner id).mapM (descend target)
      return if r.isCollection then .arr related else related.head?.getD .null

/-- Expand the relations of an entity level by level. An entity without a usable identity, without a
record, or that has been visited stays as it is. -/
def expand (g : Registry) (ts : Tables) : Nat → Model → Json → Traversal Json
  | 0, _, entity => return entity
  | depth + 1, m, entity => do
      match (m.identityOf entity).bind m.identity? with
      | none => return entity
      | some id =>
          if !(← visit m id) then return entity
          match ts.find? m.path id with
          | none => return entity
          | some record =>
              m.relations.foldlM (fun loaded r => do
                return loaded.set r.name
                  (← g.expandRelation ts (expand g ts depth) id loaded r))
                (g.fromRecord m record)

def load (g : Registry) (ts : Tables) (depth : Nat) (m : Model) (entity : Json) :
    Except Error Json :=
  return (← (g.expand ts depth m entity).run []).1

end Registry

end EntityGraph
