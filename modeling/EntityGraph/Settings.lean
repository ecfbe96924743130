import EntityGraph.Error
import EntityGraph.Text

namespace EntityGraph

def maxPageSize : Nat := 1000

def clampPageSize (n : Nat) : Nat :=
  max 1 (min n maxPageSize)

structure Settings where
  basePath : String
  relationDepth : Nat
  validation : Bool
  pageSize : Nat
  schema : String
  databaseUrl : Option String
  modelsPath : String
  listenAddress : String

namespace Settings

def standard : Settings :=
  ⟨"/api", 2, true, 20, "restmodel", none, "demos/models", "0.0.0.0:3000"⟩

def isDenial (s : String) : Bool :=
  ["false", "0", "no", "off"].contains (Text.lowerAscii (Text.trim s))

/-- Settings from named values, as an environment holds them. Values that are absent or not usable
leave the standard ones. -/
def ofLookup (lookup : String → Option String) : Settings :=
  let count (key : String) (bound : Nat) : Option Nat :=
    (lookup key).bind fun s => Text.natural? bound (Text.trim s)
  { basePath := (lookup "RESTMODEL_API_BASE_PATH").getD standard.basePath
    relationDepth := (count "RESTMODEL_RELATION_DEPTH" UInt64.size).getD standard.relationDepth
    validation := ((lookup "RESTMODEL_GLOBAL_VALIDATION").map fun s => !isDenial s).getD
      standard.validation
    pageSize := ((count "RESTMODEL_PAGE_SIZE" UInt32.size).map clampPageSize).getD standard.pageSize
    schema := (lookup "RESTMODEL_SCHEMA").getD standard.schema
    databaseUrl := (lookup "DATABASE_URL").filter fun s => !Text.isAllBlank s
    modelsPath := (lookup "MODELS_PATH").getD standard.modelsPath
    listenAddress := (lookup "LISTEN_ADDR").getD standard.listenAddress }

end Settings

/-- The database that a URL names: what stands between its last slash and the next question mark,
blanks around it apart. -/
def databaseName (url : String) : Except Error String :=
  match Text.cutLast '/' url.toList with
  | none => .error (.badRequest .pathless)
  | some (_, rest) => .ok (Text.trim (String.ofList (rest.takeWhile (· != '?'))))

/-- A database without a name and the one that every server has need not be created. -/
def needsCreation (name : String) : Bool :=
  !(name.isEmpty || name == "postgres")

end EntityGraph
