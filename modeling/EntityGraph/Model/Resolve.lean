import EntityGraph.Model.Check

namespace EntityGraph

namespace ModelDefinition

/-- For each inverse relation: the model and the relation that own it, and its own name. -/
def inverses (definitions : List ModelDefinition) : List ((String × String) × String) :=
  definitions.flatMap fun m =>
    m.relations.filterMap fun r => r.mappedBy.map fun owner => ((r.target, owner), r.name)

/-- The inverse of an owning relation; of several the last one declared. -/
def inverseOf? (definitions : List ModelDefinition) (model relation : String) : Option String :=
  ((inverses definitions).reverse.find? fun e => e.1 == (model, relation)).map Prod.snd

def resolveRelation (definitions : List ModelDefinition) (m : ModelDefinition)
    (r : RelationDefinition) : Except ConfigError Relation :=
  match named? definitions r.target with
  | none => .error (.missingModel r.target)
  | some target =>
      .ok ⟨r.name, r.kind, barePath target.path, r.mappedBy, inverseOf? definitions m.name r.name⟩

def resolveModel (definitions : List ModelDefinition) (m : ModelDefinition) :
    Except ConfigError Model := do
  let relations ← m.relations.mapM (resolveRelation definitions m)
  return ⟨m.name, barePath m.path, m.validated, m.identity.name, m.identity.type,
    m.identity.generated, m.attributes, relations, m.rules⟩

end ModelDefinition

def Registry.ofDefinitions (definitions : List ModelDefinition) : Except ConfigError Registry := do
  ModelDefinition.check definitions
  let models ← definitions.mapM (ModelDefinition.resolveModel definitions)
  Registry.empty.registerAll models

end EntityGraph
