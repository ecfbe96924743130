import EntityGraph.Query.Predicate
import EntityGraph.Query.SortOrder
import EntityGraph.Store.Tables
import EntityGraph.Json.Writer
import EntityGraph.Text

namespace EntityGraph

namespace Tables

def holds (slot id : Json) : Bool :=
  match slot with
  | .arr ids => ids.any (Json.sameIdentity · id)
  | v => v.sameIdentity id

/-- The records that a hop leads to, in the order of the references or of their keys. -/
def follow (ts : Tables) (hop : Hop) (record : Json) : List Json :=
  match hop.link with
  | .owned _ =>
      match record.get hop.relation with
      | .arr ids => ids.filterMap (ts.find? hop.target)
      | .null => []
      | id => (ts.find? hop.target id).toList
  | .mapped owner _ =>
      match record.present? hop.sourceIdentity with
      | none => []
      | some source => (ts.records hop.target).filter fun row => holds (row.get owner) source

def reached (ts : Tables) (path : AccessPath) (record : Json) : List Json :=
  (path.hops.foldl (fun front hop => front.flatMap (ts.follow hop)) [record]).map
    (Json.get · path.field)

end Tables

/-- A comparison of two values of a type. Values that have no order satisfy none. -/
def Comparison.satisfied (op : Comparison) (type : FieldType) (v value : Json) : Bool :=
  ((compareAs type v value).map op.admits).getD false

namespace Predicate

mutual

def eval (ts : Tables) (record : Json) : Predicate → Bool
  | .compare path op value => (ts.reached path record).any (op.satisfied path.type · value)
  | .isNull path => (ts.reached path record).any Json.isNull
  | .isNotNull path => (ts.reached path record).any fun v => !v.isNull
  | .like path pattern =>
      (ts.reached path record).any fun v => !v.isNull && Text.like pattern v.plainText
  | .among path values =>
      (ts.reached path record).any fun v => values.any (Comparison.eq.satisfied path.type v)
  | .between path low high =>
      (ts.reached path record).any fun v =>
        Comparison.gte.satisfied path.type v low && Comparison.lte.satisfied path.type v high
  | .and parts => evalAll ts record parts
  | .or parts => evalAny ts record parts
  | .never => false
termination_by structural p => p

def evalAll (ts : Tables) (record : Json) : List Predicate → Bool
  | [] => true
  | p :: rest => eval ts record p && evalAll ts record rest
termination_by structural ps => ps

def evalAny (ts : Tables) (record : Json) : List Predicate → Bool
  | [] => false
  | p :: rest => eval ts record p || evalAny ts record rest
termination_by structural ps => ps

end

end Predicate

structure Window where
  offset : Nat
  limit : Option Nat

namespace Window

def all : Window :=
  ⟨0, none⟩

def apply {α : Type} (w : Window) (xs : List α) : List α :=
  match w.limit with
  | some n => (xs.drop w.offset).take n
  | none => xs.drop w.offset

end Window

namespace Tables

def matching (ts : Tables) (m : Model) (predicate : Option Predicate) : List Json :=
  match predicate with
  | none => ts.records m.path
  | some p => (ts.records m.path).filter (p.eval ts)

def count (ts : Tables) (m : Model) (predicate : Option Predicate) : Nat :=
  (ts.matching m predicate).length

/-- The records of a model in the order that is asked for, if they have one. -/
def sorted (m : Model) (sort : Option SortOrder) (rows : List Json) : Except Error (List Json) :=
  match sort with
  | none => .ok rows
  | some order =>
      if order.Sorts rows then .ok (order.apply rows)
      else .error (.storage (.unordered m.path order.field))

section Sorted

variable {m : Model} {order : SortOrder} {rows : List Json}

theorem sorted_of_sorts (h : order.Sorts rows) : sorted m (some order) rows = .ok (order.apply rows) :=
  if_pos h

end Sorted

def query (ts : Tables) (m : Model) (predicate : Option Predicate) (sort : Option SortOrder)
    (window : Window) : Except Error (List Json) :=
  (sorted m sort (ts.matching m predicate)).map window.apply

theorem query_of_sorts {ts : Tables} {m : Model} {predicate : Option Predicate} {order : SortOrder}
    (h : order.Sorts (ts.matching m predicate)) (window : Window) :
    ts.query m predicate (some order) window =
      .ok (window.apply (order.apply (ts.matching m predicate))) := by
  rw [query, sorted_of_sorts h]
  rfl

@[simp]
theorem query_unsorted (ts : Tables) (m : Model) (predicate : Option Predicate) (window : Window) :
    ts.query m predicate none window = .ok (window.apply (ts.matching m predicate)) :=
  rfl

end Tables

end EntityGraph
