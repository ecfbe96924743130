import EntityGraph.Filter.Basic
import EntityGraph.Json.Form
import EntityGraph.Json.Writer

namespace EntityGraph

open Json (Reader member?)

variable {δ : Type}

def FilterOperator.read? (r : Reader δ) (d : δ) : Option FilterOperator :=
  (r.string? d).bind FilterOperator.ofName?

def FilterLogic.read? (r : Reader δ) (d : δ) : Option FilterLogic :=
  (r.string? d).bind FilterLogic.ofName?

namespace Filter

def read? (r : Reader δ) (d : δ) : Option Filter := do
  let record ← r.record?
    [["field"], ["operator", "operation"], ["value"], ["secondValue", "second_value"]] d
  let field ← member? record "field" none r.string?
  let operator ← member? record "operator" none (FilterOperator.read? r)
  let value ← member? record "value" (some .null) r.value?
  let second ← member? record "secondValue" (some none) r.present?
  return ⟨field, operator, value, second⟩

def members (f : Filter) : List (String × Json) :=
  [("field", .str f.field), ("operator", .str f.operator.code), ("value", f.value)] ++
    (f.second.map fun v => ("secondValue", v)).toList

def toJson (f : Filter) : Json :=
  .ofPairs f.members

end Filter

namespace FilterSpec

def read? (r : Reader δ) (d : δ) : Option FilterSpec := do
  let record ← r.record? [["filters"], ["logic"]] d
  let filters ← member? record "filters" (some []) (r.list? (Filter.read? r))
  let logic ← member? record "logic" (some .and) (FilterLogic.read? r)
  return ⟨filters, logic⟩

def members (s : FilterSpec) (items : List Json) : List (String × Json) :=
  [("filters", .arr items), ("logic", .str s.logic.name)]

def toJson (s : FilterSpec) : Json :=
  .ofPairs (s.members (s.filters.map Filter.toJson))

def text (s : FilterSpec) : String :=
  (Json.obj (s.members (s.filters.map fun f => .obj f.members))).text

/-- The depth that is left for the values of filters: the specification, the list of its filters
and the filter itself are around them. -/
def valueDepth : Nat :=
  Json.nestingLimit - 4

def endOf (s : String) : Nat × Nat :=
  (s.toList.count '\n' + 1, (s.toList.reverse.takeWhile (· != '\n')).length)

def ofText (s : String) : Except Error FilterSpec :=
  if Text.isAllBlank s then .ok empty
  else
    match (Json.Document.ofText? s).bind (read? (Reader.ofDocuments valueDepth)) with
    | none => .error (.invalidFilter (.unreadable (endOf s).1 (endOf s).2))
    | some spec =>
        match spec.filters.forM Filter.check with
        | .error fault => .error (.invalidFilter fault)
        | .ok () => .ok spec

end FilterSpec

end EntityGraph
