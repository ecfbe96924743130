import EntityGraph.Error
import EntityGraph.Model.Definition
import EntityGraph.Text

namespace EntityGraph

def readDefinitions (text : String) : Except ConfigError (List ModelDefinition) :=
  match Json.ofText? text with
  | none => .error (.unreadable "not a JSON text")
  | some v =>
      match ModelDefinition.listOfJson? v with
      | none => .error (.unreadable "not a list of model definitions")
      | some definitions => .ok definitions

/-- A directory: names with the text of files, and without one for what is not a file. -/
abbrev Directory := List (String × Option String)

/-- The part of a name after its last point, provided that something stands before the point. -/
def fileExtension? (name : String) : Option String :=
  match Text.cutLast '.' name.toList with
  | some (stem, extension) => if stem.isEmpty then none else some (String.ofList extension)
  | none => none

def readFiles : List (String × Option String) → Except ConfigError (List ModelDefinition)
  | [] => .ok []
  | (name, none) :: _ => .error (.unreadable (name ++ ": not a file"))
  | (name, some text) :: rest =>
      match readDefinitions text with
      | .error e => .error (.unreadable (name ++ ": " ++ e.message))
      | .ok definitions =>
          match readFiles rest with
          | .error e => .error e
          | .ok more => .ok (definitions ++ more)

def readDirectory (directory : Option Directory) : Except ConfigError (List ModelDefinition) :=
  match directory with
  | none => .error (.unreadable "no such directory")
  | some entries =>
      readFiles (OrderedMap.ofPairs (entries.filter fun e => fileExtension? e.1 = some "json"))

end EntityGraph
