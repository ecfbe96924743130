import EntityGraph.Error
import EntityGraph.Text

namespace EntityGraph

inductive FilterOperator
  | eq
  | neq
  | gt
  | gte
  | lt
  | lte
  | like
  | among
  | between
  deriving DecidableEq

namespace FilterOperator

def all : List FilterOperator :=
  [eq, neq, gt, gte, lt, lte, like, among, between]

def code : FilterOperator → String
  | eq => "eq"
  | neq => "neq"
  | gt => "gt"
  | gte => "gte"
  | lt => "lt"
  | lte => "lte"
  | like => "like"
  | among => "in"
  | between => "between"

def longName : FilterOperator → String
  | eq => "equal"
  | neq => "not_equal"
  | gt => "greater_than"
  | gte => "greater_than_or_equal"
  | lt => "less_than"
  | lte => "less_than_or_equal"
  | like => "like"
  | among => "in"
  | between => "between"

def ofName? (s : String) : Option FilterOperator :=
  let name := Text.lowerAscii (Text.trim s)
  all.find? fun op => op.code == name || op.longName == name

def ofText (s : String) : Except FilterFault FilterOperator :=
  match ofName? s with
  | some op => .ok op
  | none => .error (.unknownOperator s)

end FilterOperator

inductive FilterLogic
  | and
  | or
  deriving DecidableEq

namespace FilterLogic

/-- Only `or` selects the alternative; whatever else is written means `and`. -/
def ofText (s : String) : FilterLogic :=
  if Text.lowerAscii (Text.trim s) = "or" then or else and

def ofName? (s : String) : Option FilterLogic :=
  let name := Text.lowerAscii (Text.trim s)
  if name = "and" then some and else if name = "or" then some or else none

def name : FilterLogic → String
  | and => "AND"
  | or => "OR"

end FilterLogic

structure Filter where
  field : String
  operator : FilterOperator
  value : Json
  second : Option Json

namespace Filter

/-- A field is named, `between` has both bounds and `in` a list. -/
def check (f : Filter) : Except FilterFault Unit :=
  if Text.isAllBlank f.field then .error .emptyField
  else
    match f.operator, f.value with
    | .between, value =>
        if value.isNull ∨ (f.second.getD .null).isNull then .error (.missingBound f.field)
        else .ok ()
    | .among, .arr _ => .ok ()
    | .among, _ => .error (.missingList f.field)
    | _, _ => .ok ()

end Filter

structure FilterSpec where
  filters : List Filter
  logic : FilterLogic

namespace FilterSpec

def empty : FilterSpec :=
  ⟨[], .and⟩

end FilterSpec

end EntityGraph
