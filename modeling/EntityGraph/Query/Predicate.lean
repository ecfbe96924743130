import EntityGraph.Query.Path

namespace EntityGraph

inductive Comparison
  | eq
  | neq
  | gt
  | gte
  | lt
  | lte
  deriving DecidableEq

def Comparison.admits : Comparison → Ordering → Bool
  | .eq, o => o == .eq
  | .neq, o => o != .eq
  | .gt, o => o == .gt
  | .gte, o => o != .lt
  | .lt, o => o == .lt
  | .lte, o => o != .gt

/-- A condition on records. A path that crosses a collection is satisfied by any element of it. -/
inductive Predicate
  | compare (path : AccessPath) (op : Comparison) (value : Json)
  | isNull (path : AccessPath)
  | isNotNull (path : AccessPath)
  | like (path : AccessPath) (pattern : String)
  | among (path : AccessPath) (values : List Json)
  | between (path : AccessPath) (low high : Json)
  | and (parts : List Predicate)
  | or (parts : List Predicate)
  | never

end EntityGraph
