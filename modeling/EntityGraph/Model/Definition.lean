import EntityGraph.FieldType
import EntityGraph.Json.Shape
import EntityGraph.Json.Document

namespace EntityGraph

inductive RelationKind
  | manyToOne
  | oneToMany
  | manyToMany
  | oneToOne
  deriving DecidableEq

namespace RelationKind

def all : List RelationKind :=
  [manyToOne, oneToMany, manyToMany, oneToOne]

def name : RelationKind → String
  | manyToOne => "many_to_one"
  | oneToMany => "one_to_many"
  | manyToMany => "many_to_many"
  | oneToOne => "one_to_one"

def ofName? (s : String) : Option RelationKind :=
  all.find? fun k => k.name == s

def isCollection : RelationKind → Bool
  | oneToMany | manyToMany => true
  | _ => false

def pairs : RelationKind → RelationKind → Bool
  | oneToMany, manyToOne | manyToMany, manyToMany | oneToOne, oneToOne => true
  | _, _ => false

end RelationKind

structure IdentityDefinition where
  name : String
  type : FieldType
  generated : Bool

structure Attribute where
  name : String
  type : FieldType

/-- A declared relation. An inverse one names the owning relation of its target in `mappedBy`. -/
structure RelationDefinition where
  name : String
  kind : RelationKind
  target : String
  mappedBy : Option String

structure Rule where
  required : Option Bool
  notBlank : Option Bool
  format : Option String
  maxLength : Option Nat
  minLength : Option Nat
  pattern : Option String
  allowed : Option (List Json)
  minimum : Option Double
  maximum : Option Double
  message : Option String

structure ModelDefinition where
  name : String
  path : String
  validated : Bool
  identity : IdentityDefinition
  attributes : List Attribute
  relations : List RelationDefinition
  rules : List (String × Rule)

open Json

def lengthBound : Nat := UInt32.size

def FieldType.ofJson? (v : Json) : Option FieldType :=
  (name? v).bind FieldType.ofName?

def RelationKind.ofJson? (v : Json) : Option RelationKind :=
  (name? v).bind RelationKind.ofName?

def IdentityDefinition.standard : IdentityDefinition :=
  ⟨"id", .long, true⟩

def IdentityDefinition.ofJson? (v : Json) : Option IdentityDefinition := do
  let r ← recordOf? ["name", "type", "generated"] v
  let name ← field? r "name" (some standard.name) string?
  let type ← field? r "type" (some standard.type) FieldType.ofJson?
  let generated ← field? r "generated" (some standard.generated) bool?
  return ⟨name, type, generated⟩

def Attribute.ofJson? (v : Json) : Option Attribute := do
  let r ← recordOf? ["name", "type"] v
  let name ← field? r "name" none string?
  let type ← field? r "type" none FieldType.ofJson?
  return ⟨name, type⟩

def RelationDefinition.ofJson? (v : Json) : Option RelationDefinition := do
  let r ← recordOf? ["name", "kind", "target", "mapped_by"] v
  let name ← field? r "name" none string?
  let kind ← field? r "kind" none RelationKind.ofJson?
  let target ← field? r "target" none string?
  let mappedBy ← field? r "mapped_by" (some none) (optional? string?)
  return ⟨name, kind, target, mappedBy⟩

def Rule.ofJson? (v : Json) : Option Rule := do
  let r ← recordOf? ["required", "not_blank", "format", "max_length", "min_length", "pattern",
    "allowed", "minimum", "maximum", "message"] v
  let required ← field? r "required" (some none) (optional? bool?)
  let notBlank ← field? r "not_blank" (some none) (optional? bool?)
  let format ← field? r "format" (some none) (optional? string?)
  let maxLength ← field? r "max_length" (some none) (optional? (natural? lengthBound))
  let minLength ← field? r "min_length" (some none) (optional? (natural? lengthBound))
  let pattern ← field? r "pattern" (some none) (optional? string?)
  let allowed ← field? r "allowed" (some none) (optional? (list? some))
  let minimum ← field? r "minimum" (some none) (optional? double?)
  let maximum ← field? r "maximum" (some none) (optional? double?)
  let message ← field? r "message" (some none) (optional? string?)
  return ⟨required, notBlank, format, maxLength, minLength, pattern, allowed, minimum, maximum,
    message⟩

def ModelDefinition.ofJson? (v : Json) : Option ModelDefinition := do
  let r ← recordOf? ["name", "path_segment", "validation_enabled", "identity", "fields",
    "relationships", "validation"] v
  let name ← field? r "name" none string?
  let path ← field? r "path_segment" none string?
  let validated ← field? r "validation_enabled" (some true) bool?
  let identity ← field? r "identity" (some .standard) IdentityDefinition.ofJson?
  let attributes ← field? r "fields" (some []) (list? Attribute.ofJson?)
  let relations ← field? r "relationships" (some []) (list? RelationDefinition.ofJson?)
  let rules ← field? r "validation" (some []) (members? Rule.ofJson?)
  return ⟨name, path, validated, identity, attributes, relations, rules⟩

def ModelDefinition.listOfJson? (v : Json) : Option (List ModelDefinition) :=
  match v with
  | .arr items => items.mapM ofJson?
  | v => (ofJson? v).map fun m => [m]

end EntityGraph
