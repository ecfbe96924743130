import EntityGraph.Entity.Binding

namespace EntityGraph

structure BackLink where
  model : String
  id : Json
  field : String
  many : Bool

/-- An entity whose relations agree in both directions, but for the links that are left to be
written. -/
structure Agreement where
  entity : Json
  pending : List BackLink

namespace Registry

def reflectInto (m : Model) (field : String) (many : Bool) (snapshot other : Json) : Json :=
  match other with
  | .obj _ =>
      if many then
        other.set field (.arr (insertNew (sameEntity m) (other.get field).items snapshot))
      else
        match other.get? field with
        | some v => if sameEntity m v snapshot then other else other.set field snapshot
        | none => other.set field snapshot
  | _ => other

def embedded : Json → List Json
  | .arr items => items
  | v@(.obj _) => [v]
  | _ => []

def mapEmbedded (f : Json → Json) : Json → Json
  | .arr items => .arr (items.map f)
  | v@(.obj _) => f v
  | v => v

def linksTo (target : Model) (counter : Relation) (slot : Json) : List BackLink :=
  if counter.isOwning then
    (embedded slot).filterMap fun other =>
      (target.identityOf other).map fun id => ⟨target.path, id, counter.name, counter.isCollection⟩
  else []

def counterRelation (target : Model) (counterpart : String) : Except Error Relation :=
  match target.relation? counterpart with
  | some counter => .ok counter
  | none =>
      .error (.relationship (target.path ++ "." ++ counterpart) .undeclaredCounterpart)

def reflectRelation (g : Registry) (m : Model) (snapshot : Json) (r : Relation) (s : Agreement) :
    Except Error Agreement := do
  match r.counterpart with
  | none => return s
  | some counterpart =>
      let target ← g.target r
      let counter ← counterRelation target counterpart
      match s.entity.get? r.name with
      | none => return s
      | some slot =>
          let reflected :=
            mapEmbedded (reflectInto m counterpart counter.isCollection snapshot) slot
          return ⟨s.entity.set r.name reflected, s.pending ++ linksTo target counter reflected⟩

def reflect (g : Registry) (m : Model) (entity : Json) : Except Error Agreement :=
  m.relations.foldlM (fun s r => g.reflectRelation m (m.snapshot entity) r s) ⟨entity, []⟩

def agreement (g : Registry) (ts : Tables) (m : Model) (entity : Json) (input : EntityInput) :
    Except Error Agreement := do
  match input with
  | .fields raw => g.reflect m (← g.bindRelations ts (.obj raw) m.relations entity)
  | .entity _ => g.reflect m entity

/-- Bind what the input names and make the two sides of every relation agree. Where the models do
not fit together the entity stays as it is. -/
def agree (g : Registry) (ts : Tables) (m : Model) (entity : Json) (input : EntityInput) :
    Agreement :=
  ((g.agreement ts m entity input).toOption).getD ⟨entity, []⟩

end Registry

end EntityGraph
