import EntityGraph.Filter.Basic
import EntityGraph.Text

namespace EntityGraph

abbrev Parameters := List (String × List String)

namespace Parameters

def ofPairs (pairs : List (String × String)) : Parameters :=
  pairs.foldl (fun ps p => OrderedMap.modify ps p.1 [] (· ++ [p.2])) []

def first? (ps : Parameters) (key : String) : Option String :=
  (OrderedMap.get? ps key).bind List.head?

end Parameters

namespace FilterSpec

def logicKey : String := "filter_logic"

def keyStart : String := "filter_"

def keyParts? (key : String) : Option (String × FilterOperator) := do
  if key = logicKey ∨ ¬ keyStart.toList.isPrefixOf key.toList then none
  let (field, code) ← Text.cutLast '_' (key.toList.drop keyStart.length)
  if field.isEmpty then none
  let operator ← FilterOperator.ofName? (String.ofList code)
  return (String.ofList field, operator)

def trimmed (s : String) : Json :=
  .str (Text.trim s)

/-- The two bounds: the first two values, or the halves of a single one with exactly one comma. -/
def bounds? : List String → Option (Json × Json)
  | [] => none
  | [single] =>
      match Text.split ',' single with
      | [low, high] => some (trimmed low, trimmed high)
      | _ => none
  | low :: high :: _ => some (trimmed low, trimmed high)

def listed : List String → List Json
  | [single] => (Text.split ',' single).map trimmed
  | values => values.map trimmed

/-- The filters of one key. Operators other than `between` and `in` take every value by itself. -/
def ofEntry (key : String) (values : List String) : List Filter :=
  match keyParts? key with
  | none => []
  | some (field, operator) =>
      match operator with
      | .between =>
          ((bounds? values).map fun (low, high) => ⟨field, .between, low, some high⟩).toList
      | .among => if values.isEmpty then [] else [⟨field, .among, .arr (listed values), none⟩]
      | operator => values.map fun v => ⟨field, operator, trimmed v, none⟩

def ofParameters (ps : Parameters) : FilterSpec where
  filters := ps.flatMap fun p => ofEntry p.1 p.2
  logic := ((ps.first? logicKey).map FilterLogic.ofText).getD .and

end FilterSpec

end EntityGraph
