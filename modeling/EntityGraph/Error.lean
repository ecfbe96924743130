import EntityGraph.Coercion

namespace EntityGraph

inductive DefinitionFault
  | duplicateModel (name : String)
  | identityType (model : String)
  | generatedText (model : String)
  | declaredTwice (model field : String)
  | ownerUnnamed (model relation : String)
  | alwaysOwning (model relation : String)
  | unmatched (model relation target mappedBy : String)
  | stated (reason : String)

def DefinitionFault.message : DefinitionFault → String
  | duplicateModel name => "duplicate model name: " ++ name
  | identityType model => model ++ ": identity must be integer, long, string or uuid"
  | generatedText model => model ++ ": string identities cannot be generated"
  | declaredTwice model field => model ++ ": field " ++ field ++ " declared twice"
  | ownerUnnamed model relation => model ++ "." ++ relation ++ ": one_to_many requires mapped_by"
  | alwaysOwning model relation =>
      model ++ "." ++ relation ++ ": many_to_one is always the owning side"
  | unmatched model relation target mappedBy =>
      model ++ "." ++ relation ++ ": mapped_by " ++ target ++ "." ++ mappedBy ++
        " is not a matching owning field"
  | stated reason => reason

inductive ConfigError
  | missingModel (name : String)
  | missingRelation (model relation : String)
  | duplicatePath (path : String)
  | unreadable (reason : String)
  | invalid (fault : DefinitionFault)

def ConfigError.message : ConfigError → String
  | missingModel name => "missing reference: model '" ++ name ++ "'"
  | missingRelation model relation =>
      "missing reference: relationship '" ++ model ++ "." ++ relation ++ "'"
  | duplicatePath path => "duplicate path segment: " ++ path
  | unreadable reason => "config load: " ++ reason
  | invalid fault => "validation: " ++ fault.message

inductive FilterFault
  | unknownOperator (text : String)
  | emptyField
  | missingBound (field : String)
  | missingList (field : String)
  | unknownField (field path dotted : String)
  | unknownTarget (path : String)
  | unreadable (line column : Nat)
  | stated (reason : String)

def FilterFault.message : FilterFault → String
  | unknownOperator text => "unknown filter operator: " ++ text
  | emptyField => "filter field is empty"
  | missingBound field => "between on " ++ field ++ " requires value and secondValue"
  | missingList field => "in on " ++ field ++ " requires a list value"
  | unknownField field path dotted =>
      "unknown field '" ++ field ++ "' on " ++ path ++ " in path '" ++ dotted ++ "'"
  | unknownTarget path => "unknown target model " ++ path
  | unreadable line column =>
      "no filter document at line " ++ toString line ++ " column " ++ toString column
  | stated reason => reason

inductive IdentityFault
  | empty
  | inconvertible (error : CoercionError)
  | stated (reason : String)

def IdentityFault.message : IdentityFault → String
  | empty => "identity is empty"
  | inconvertible error => error.message
  | stated reason => reason

inductive RelationFault
  | unknownTarget (path : String)
  | undeclaredCounterpart
  | stated (reason : String)

def RelationFault.message : RelationFault → String
  | unknownTarget path => "unknown target model " ++ path
  | undeclaredCounterpart => "counterpart field is not declared"
  | stated reason => reason

inductive RequestFault
  | bodyShape
  | instanceShape (path : String)
  | unsortable (path field : String)
  | pageNumber (text : String)
  | pageSize (text : String)
  | pathless
  | stated (reason : String)

def RequestFault.message : RequestFault → String
  | bodyShape => "request body must be a JSON object"
  | instanceShape path => path ++ " instance must be an object"
  | unsortable path field => "cannot sort " ++ path ++ " by '" ++ field ++ "'"
  | pageNumber text => "page must be an integer, got '" ++ text ++ "'"
  | pageSize text => "size must be a positive integer, got '" ++ text ++ "'"
  | pathless => "DATABASE_URL: no path"
  | stated reason => reason

inductive Conflict
  | identityRequired (path : String)
  | alreadyExists (path : String) (id : Json)
  | mergeWithoutIdentity (path : String)
  | notGenerated (type : FieldType) (path : String)
  | stated (reason : String)

def Conflict.message : Conflict → String
  | identityRequired path => path ++ " requires an identity"
  | alreadyExists path id => path ++ " " ++ id.text ++ " already exists"
  | mergeWithoutIdentity path => "merge into " ++ path ++ " without identity"
  | notGenerated type path => "cannot generate " ++ type.label ++ " identity for " ++ path
  | stated reason => reason

inductive Corruption
  | notObject (path : String)
  | notKey (path : String) (id : Json)
  | withoutIdentity (path : String)
  | stated (reason : String)

def Corruption.message : Corruption → String
  | notObject path => path ++ " record is not an object"
  | notKey path id => path ++ " identity " ++ id.text ++ " is not a key"
  | withoutIdentity path => path ++ " persisted without identity"
  | stated reason => reason

/-- Failures of a store. A sequence is exhausted when its next identity would not fit 64 bits, and
records are unordered when they cannot be sorted by a field. -/
inductive StorageError
  | conflict (cause : Conflict)
  | corrupt (cause : Corruption)
  | exhausted (path : String)
  | unordered (path field : String)

def StorageError.message : StorageError → String
  | conflict cause => "conflict: " ++ cause.message
  | corrupt cause => "corrupt record: " ++ cause.message
  | exhausted path => "identities of " ++ path ++ " are exhausted"
  | unordered path field => path ++ " have no order by '" ++ field ++ "'"

inductive Error
  | config (error : ConfigError)
  | modelNotFound (path : String)
  | entityNotFound (path : String) (id : Json)
  | relationNotFound (path relation : String)
  | validationFailed (path : String) (errors : List (String × String))
  | invalidFilter (fault : FilterFault)
  | invalidIdentity (path : String) (fault : IdentityFault)
  | relationship (field : String) (fault : RelationFault)
  | storage (error : StorageError)
  | badRequest (fault : RequestFault)

namespace Error

def message : Error → String
  | config error => error.message
  | modelNotFound path => "model not found: " ++ path
  | entityNotFound path id => path ++ " with id " ++ id.text ++ " not found"
  | relationNotFound path relation => path ++ " has no relationship named " ++ relation
  | validationFailed path _ => "validation failed for " ++ path
  | invalidFilter fault => "invalid filter: " ++ fault.message
  | invalidIdentity path fault => "invalid identity for " ++ path ++ ": " ++ fault.message
  | relationship field fault => "relationship " ++ field ++ ": " ++ fault.message
  | storage error => error.message
  | badRequest fault => "bad request: " ++ fault.message

def code : Error → String
  | config _ => "config_error"
  | modelNotFound _ => "model_not_found"
  | entityNotFound _ _ => "entity_not_found"
  | relationNotFound _ _ => "relation_not_found"
  | validationFailed _ _ => "validation_failed"
  | invalidFilter _ => "invalid_filter"
  | invalidIdentity _ _ => "invalid_identity"
  | relationship _ _ => "relationship_error"
  | storage _ => "storage_error"
  | badRequest _ => "bad_request"

def status : Error → Nat
  | modelNotFound _ | entityNotFound _ _ | relationNotFound _ _ => 404
  | validationFailed _ _ | invalidFilter _ | invalidIdentity _ _ | relationship _ _
  | badRequest _ => 400
  | storage (.conflict _) => 409
  | config _ | storage _ => 500

end Error

end EntityGraph
