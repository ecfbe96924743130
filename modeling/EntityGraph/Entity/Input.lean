import EntityGraph.Model.Basic

namespace EntityGraph

/-- What a client writes. Loose fields name related entities by objects or identities; an entity
has its relations as they are to be. -/
inductive EntityInput
  | fields (members : List (String × Json))
  | entity (v : Json)

namespace EntityInput

def ofJson : Json → Except Error EntityInput
  | .obj members => .ok (.fields members)
  | _ => .error (.badRequest .bodyShape)

def without (input : EntityInput) (key : String) : EntityInput :=
  match input with
  | .fields members => .fields (OrderedMap.erase members key)
  | .entity (.obj members) => .entity (.obj (OrderedMap.erase members key))
  | input => input

def members (m : Model) : EntityInput → Except Error (List (String × Json))
  | .fields members => .ok members
  | .entity (.obj members) => .ok members
  | .entity _ => .error (.badRequest (.instanceShape m.path))

def identityPart (m : Model) (source : Json) : Except Error (List (String × Json)) :=
  match m.identityOf source with
  | none => .ok []
  | some raw => (m.coerceIdentity raw).map fun id => [(m.identity, id)]

def scalarParts (m : Model) (source : Json) : List (String × Except CoercionError Json) :=
  m.attributes.filterMap fun a => (source.get? a.name).map fun raw => (a.name, coerce a.type raw)

def relationPart (m : Model) (source : Json) : EntityInput → List (String × Json)
  | .fields _ => []
  | .entity _ => m.relations.filterMap fun r => (source.get? r.name).map (r.name, ·)

/-- The entity that the input describes. The identity and the scalars are brought into their types;
all scalars that cannot be are reported together. Unknown keys are dropped. -/
def toEntity (input : EntityInput) (m : Model) : Except Error Json := do
  let source := Json.obj (← input.members m)
  let identity ← identityPart m source
  let parts := scalarParts m source
  let errors := parts.filterMap fun
    | (name, .error e) => some (name, e.message)
    | (_, .ok _) => none
  let scalars := parts.filterMap fun
    | (name, .ok v) => some (name, v)
    | (_, .error _) => none
  if errors.isEmpty then
    return .ofPairs (identity ++ scalars ++ relationPart m source input)
  else
    throw (.validationFailed m.path (OrderedMap.ofPairs errors))

end EntityInput

end EntityGraph
