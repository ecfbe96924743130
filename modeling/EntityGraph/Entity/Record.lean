import EntityGraph.Model.Registry

namespace EntityGraph

def insertNew {α : Type} (same : α → α → Bool) (xs : List α) (x : α) : List α :=
  if xs.any (same · x) then xs else xs ++ [x]

def distinctBy {α : Type} (same : α → α → Bool) (xs : List α) : List α :=
  xs.foldl (insertNew same) []

namespace Model

/-- The identity that a reference gives: that of an embedded object, or a bare one. -/
def referenceId? (target : Model) (v : Json) : Option Json :=
  match v with
  | .obj _ => (target.identityOf v).bind target.identity?
  | v => target.identity? v

def slotOf (target : Model) (r : Relation) (v : Json) : Json :=
  if r.isCollection then .arr (distinctBy Json.sameIdentity (v.items.filterMap target.referenceId?))
  else (target.referenceId? v).getD .null

/-- The value of an owning relation, of which only identities are known, for its slot. -/
def embed (target : Model) (r : Relation) (slot : Json) : Json :=
  if r.isCollection then
    .arr ((slot.items.filter fun id => !id.isNull).map target.stub)
  else if slot.isNull then .null
  else target.stub slot

end Model

namespace Registry

/-- The record of an entity. Relations to unknown models are dropped. -/
def toRecord (g : Registry) (m : Model) (entity : Json) : Json :=
  .ofPairs (m.scalars entity ++ m.owning.filterMap fun r =>
    match entity.get? r.name, g.get? r.target with
    | some v, some target => some (r.name, target.slotOf r v)
    | _, _ => none)

def fromRecord (g : Registry) (m : Model) (record : Json) : Json :=
  .ofPairs (m.scalars record ++ m.owning.filterMap fun r =>
    (g.get? r.target).map fun target => (r.name, target.embed r (record.get r.name)))

end Registry

end EntityGraph
