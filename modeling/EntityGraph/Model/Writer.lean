import EntityGraph.Model.Definition

namespace EntityGraph

def Json.ofOption {α : Type} (write : α → Json) (v : Option α) : Json :=
  (v.map write).getD .null

def IdentityDefinition.toJson (i : IdentityDefinition) : Json :=
  .ofPairs [("name", .str i.name), ("type", .str i.type.name), ("generated", .bool i.generated)]

def Attribute.toJson (a : Attribute) : Json :=
  .ofPairs [("name", .str a.name), ("type", .str a.type.name)]

def RelationDefinition.toJson (r : RelationDefinition) : Json :=
  .ofPairs [("name", .str r.name), ("kind", .str r.kind.name), ("target", .str r.target),
    ("mapped_by", .ofOption .str r.mappedBy)]

def Rule.toJson (r : Rule) : Json :=
  .ofPairs [("required", .ofOption .bool r.required), ("not_blank", .ofOption .bool r.notBlank),
    ("format", .ofOption .str r.format), ("max_length", .ofOption .ofNat r.maxLength),
    ("min_length", .ofOption .ofNat r.minLength), ("pattern", .ofOption .str r.pattern),
    ("allowed", .ofOption .arr r.allowed),
    ("minimum", .ofOption (fun x => .num (.double x)) r.minimum),
    ("maximum", .ofOption (fun x => .num (.double x)) r.maximum),
    ("message", .ofOption .str r.message)]

def rulesToJson (rules : List (String × Rule)) : Json :=
  .ofPairs (rules.map fun p => (p.1, p.2.toJson))

def ModelDefinition.toJson (m : ModelDefinition) : Json :=
  .ofPairs [("name", .str m.name), ("path_segment", .str m.path),
    ("validation_enabled", .bool m.validated), ("identity", m.identity.toJson),
    ("fields", .arr (m.attributes.map Attribute.toJson)),
    ("relationships", .arr (m.relations.map RelationDefinition.toJson)),
    ("validation", rulesToJson m.rules)]

end EntityGraph
