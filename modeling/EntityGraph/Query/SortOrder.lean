import EntityGraph.Coercion
import EntityGraph.Text

namespace EntityGraph

inductive SortDirection
  | asc
  | desc
  deriving DecidableEq

def SortDirection.ofText (s : String) : SortDirection :=
  if Text.lowerAscii (Text.trim s) = "desc" then .desc else .asc

structure SortOrder where
  field : String
  type : FieldType
  isIdentity : Bool
  direction : SortDirection

namespace SortOrder

/-- Null comes after everything, and values that cannot be compared are equal. -/
def compareValues (type : FieldType) (a b : Json) : Ordering :=
  match a.isNull, b.isNull with
  | true, true => .eq
  | true, false => .gt
  | false, true => .lt
  | false, false => (compareAs type a b).getD .eq

def compare (s : SortOrder) (a b : Json) : Ordering :=
  let order := compareValues s.type (a.get s.field) (b.get s.field)
  match s.direction with
  | .asc => order
  | .desc => order.swap

def place (s : SortOrder) (x : Json) : List Json → List Json
  | [] => [x]
  | y :: rest => if s.compare x y = .lt then y :: place s x rest else x :: y :: rest

def apply (s : SortOrder) (rows : List Json) : List Json :=
  (rows.foldl (fun sorted x => s.place x sorted) []).reverse

/-- What is not greater than something that is not greater than a third is not greater than the third. -/
def TotalOn (s : SortOrder) (rows : List Json) : Prop :=
  ∀ a ∈ rows, ∀ b ∈ rows, (s.compare a b).isLE → ∀ c ∈ rows, (s.compare b c).isLE →
    (s.compare a c).isLE

instance (s : SortOrder) (rows : List Json) : Decidable (s.TotalOn rows) :=
  inferInstanceAs (Decidable (∀ a ∈ rows, ∀ b ∈ rows, (s.compare a b).isLE → ∀ c ∈ rows,
    (s.compare b c).isLE → (s.compare a c).isLE))

/-- A few records are placed one by one, however they compare. More than that are merged from sorted
parts, and for these nothing is promised unless the comparison is total on the records. -/
def Sorts (s : SortOrder) (rows : List Json) : Prop :=
  rows.length ≤ 20 ∨ s.TotalOn rows

instance (s : SortOrder) (rows : List Json) : Decidable (s.Sorts rows) :=
  inferInstanceAs (Decidable (_ ∨ _))

end SortOrder

end EntityGraph
