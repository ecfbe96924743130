import EntityGraph.Filter.Basic
import EntityGraph.Query.Predicate

namespace EntityGraph

namespace Filter

def comparison (path : AccessPath) (op : Comparison) (value : Json) : Option Predicate :=
  if value.isNull then none else some (.compare path op value)

/-- A pattern without a wildcard may stand anywhere in the text. -/
def likePattern (raw : String) : String :=
  if raw.toList.contains '%' then raw else "%" ++ raw ++ "%"

def predicate? (path : AccessPath) (f : Filter) : Option Predicate :=
  let value := coerceOrKeep path.type f.value
  match f.operator with
  | .eq => if value.isNull then some (.isNull path) else some (.compare path .eq value)
  | .neq => if value.isNull then some (.isNotNull path) else some (.compare path .neq value)
  | .gt => comparison path .gt value
  | .gte => comparison path .gte value
  | .lt => comparison path .lt value
  | .lte => comparison path .lte value
  | .like => if f.value.isNull then none else some (.like path (likePattern f.value.plainText))
  | .among =>
      match f.value with
      | .arr [] => some .never
      | .arr items => some (.among path (items.map (coerceOrKeep path.type)))
      | _ => none
  | .between =>
      let high := ((f.second.map (coerceOrKeep path.type))).getD .null
      if value.isNull ∨ high.isNull then none else some (.between path value high)

end Filter

namespace FilterSpec

/-- Nothing to combine is no condition, and one condition needs no combination. -/
def combine (logic : FilterLogic) : List Predicate → Option Predicate
  | [] => none
  | [p] => some p
  | parts =>
      match logic with
      | .and => some (.and parts)
      | .or => some (.or parts)

def compile (g : Registry) (m : Model) (s : FilterSpec) : Except Error (Option Predicate) := do
  let conditions ← s.filters.mapM fun f => return f.predicate? (← g.accessPath m f.field)
  return combine s.logic (conditions.filterMap id)

end FilterSpec

def references (g : Registry) (m : Model) (relation : String) (id : Json) :
    Except Error Predicate := do
  return .compare (← g.accessPath m relation) .eq id

end EntityGraph
