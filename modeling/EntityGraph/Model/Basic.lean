import EntityGraph.Error
import EntityGraph.Model.Definition

namespace EntityGraph

/-- A relation between resolved models. The owning side stores the reference; the inverse side is
found by looking for it. -/
structure Relation where
  name : String
  kind : RelationKind
  /-- Path of the related model. -/
  target : String
  /-- On the inverse side, the owning relation of the target. -/
  mappedBy : Option String
  /-- On the owning side, the relation of the target that is mapped by this one. -/
  inverse : Option String

namespace Relation

def isCollection (r : Relation) : Bool :=
  r.kind.isCollection

def isOwning (r : Relation) : Bool :=
  r.mappedBy.isNone

def counterpart (r : Relation) : Option String :=
  r.mappedBy.or r.inverse

def idKey (r : Relation) : String :=
  r.name ++ "Id"

def idsKey (r : Relation) : String :=
  r.name ++ "Ids"

def identityKey (r : Relation) : String :=
  if r.isCollection then r.idsKey else r.idKey

def empty (r : Relation) : Json :=
  if r.isCollection then .arr [] else .null

end Relation

structure Model where
  typeName : String
  path : String
  validated : Bool
  identity : String
  identityType : FieldType
  identityGenerated : Bool
  attributes : List Attribute
  relations : List Relation
  rules : List (String × Rule)

namespace Model

def attribute? (m : Model) (name : String) : Option Attribute :=
  m.attributes.find? fun a => a.name == name

def relation? (m : Model) (name : String) : Option Relation :=
  m.relations.find? fun r => r.name == name

def owning (m : Model) : List Relation :=
  m.relations.filter Relation.isOwning

def fieldType? (m : Model) (name : String) : Option FieldType :=
  if name = m.identity then some m.identityType else (m.attribute? name).map Attribute.type

def identityOf (m : Model) (v : Json) : Option Json :=
  v.present? m.identity

def coerceIdentity (m : Model) (raw : Json) : Except Error Json :=
  match coerce m.identityType raw with
  | .ok .null => .error (.invalidIdentity m.path .empty)
  | .ok id => .ok id
  | .error e => .error (.invalidIdentity m.path (.inconvertible e))

def identity? (m : Model) (raw : Json) : Option Json :=
  (m.coerceIdentity raw).toOption

/-- An entity of which only the identity is known. -/
def stub (m : Model) (id : Json) : Json :=
  .ofPairs [(m.identity, id)]

def scalars (m : Model) (v : Json) : List (String × Json) :=
  ((m.identityOf v).map (m.identity, ·)).toList ++
    m.attributes.filterMap fun a => (v.get? a.name).map (a.name, ·)

def snapshot (m : Model) (v : Json) : Json :=
  .ofPairs (m.scalars v)

end Model

end EntityGraph
