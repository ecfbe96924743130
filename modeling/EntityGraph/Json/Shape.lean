import EntityGraph.Json.Basic

namespace EntityGraph.Json

def recordOf? (fields : List String) : Json → Option (List (String × Json))
  | .obj members => some members
  | .arr items => if items.length ≤ fields.length then some (fields.zip items) else none
  | _ => none

def field? {α : Type} (record : List (String × Json)) (name : String) (absent : Option α)
    (read : Json → Option α) : Option α :=
  match OrderedMap.get? record name with
  | some v => read v
  | none => absent

def string? : Json → Option String
  | .str s => some s
  | _ => none

def bool? : Json → Option Bool
  | .bool b => some b
  | _ => none

def natural? (bound : Nat) : Json → Option Nat
  | .num (.whole n) => if 0 ≤ n.value ∧ n.value < bound then some n.value.toNat else none
  | _ => none

def double? : Json → Option Double
  | .num n => some n.toDouble
  | _ => none

def list? {α : Type} (read : Json → Option α) : Json → Option (List α)
  | .arr items => items.mapM read
  | _ => none

/-- A name of a fixed set, written as text or as the key of an object that holds null. -/
def name? : Json → Option String
  | .str s => some s
  | .obj [(k, .null)] => some k
  | _ => none

def optional? {α : Type} (read : Json → Option α) : Json → Option (Option α)
  | .null => some none
  | v => (read v).map some

def members? {α : Type} (read : Json → Option α) : Json → Option (List (String × α))
  | .obj members => members.mapM fun (k, v) => (read v).map (k, ·)
  | _ => none

end EntityGraph.Json
