import EntityGraph.Error
import EntityGraph.Model.Registry

namespace EntityGraph

namespace ModelDefinition

def named? (definitions : List ModelDefinition) (name : String) : Option ModelDefinition :=
  definitions.find? fun m => m.name == name

def declaredNames (m : ModelDefinition) : List String :=
  m.identity.name :: m.attributes.map Attribute.name ++ m.relations.map RelationDefinition.name

def isIdentityType : FieldType → Bool
  | .integer | .long | .string | .uuid => true
  | _ => false

def firstRepeated (seen : List String) : List String → Option String
  | [] => none
  | name :: rest => if name ∈ seen then some name else firstRepeated (name :: seen) rest

def checkDistinct (names paths : List String) : List ModelDefinition → Except ConfigError Unit
  | [] => .ok ()
  | m :: rest =>
      if m.name ∈ names then .error (.invalid (.duplicateModel m.name))
      else if barePath m.path ∈ paths then .error (.duplicatePath m.path)
      else checkDistinct (m.name :: names) (barePath m.path :: paths) rest

def checkIdentity (m : ModelDefinition) : Except ConfigError Unit :=
  if !isIdentityType m.identity.type then .error (.invalid (.identityType m.name))
  else if m.identity.type = .string ∧ m.identity.generated then
    .error (.invalid (.generatedText m.name))
  else .ok ()

def checkNames (m : ModelDefinition) : Except ConfigError Unit :=
  match firstRepeated [] m.declaredNames with
  | some name => .error (.invalid (.declaredTwice m.name name))
  | none => .ok ()

/-- The owner that an inverse relation names must be an owning relation back to its model, of the
kind that belongs to it. -/
def checkOwner (m target : ModelDefinition) (r : RelationDefinition) (mappedBy : String) :
    Except ConfigError Unit :=
  match target.relations.find? fun o => o.name == mappedBy with
  | none => .error (.missingRelation target.name mappedBy)
  | some owner =>
      if r.kind.pairs owner.kind ∧ owner.mappedBy.isNone ∧ owner.target = m.name then .ok ()
      else .error (.invalid (.unmatched m.name r.name target.name mappedBy))

def checkRelation (definitions : List ModelDefinition) (m : ModelDefinition)
    (r : RelationDefinition) : Except ConfigError Unit :=
  match named? definitions r.target with
  | none => .error (.missingModel r.target)
  | some target =>
      match r.kind, r.mappedBy with
      | .oneToMany, none => .error (.invalid (.ownerUnnamed m.name r.name))
      | .manyToOne, some _ => .error (.invalid (.alwaysOwning m.name r.name))
      | _, some mappedBy => checkOwner m target r mappedBy
      | _, none => .ok ()

def checkModel (definitions : List ModelDefinition) (m : ModelDefinition) :
    Except ConfigError Unit := do
  m.checkIdentity
  m.checkNames
  m.relations.forM (checkRelation definitions m)

def check (definitions : List ModelDefinition) : Except ConfigError Unit := do
  checkDistinct [] [] definitions
  definitions.forM (checkModel definitions)

end ModelDefinition

end EntityGraph
