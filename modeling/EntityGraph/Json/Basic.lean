import EntityGraph.Double
import EntityGraph.OrderedMap

namespace EntityGraph

structure Whole where
  value : Int
  low : -0x8000000000000000 ≤ value
  high : value < 0x10000000000000000
  deriving DecidableEq

/-- Whole and binary numbers are different values even where they are numerically equal. -/
inductive Number
  | whole (n : Whole)
  | double (x : Double)
  deriving DecidableEq

namespace Number

def ofInt? (i : Int) : Option Number :=
  if h : -0x8000000000000000 ≤ i ∧ i < 0x10000000000000000 then some (.whole ⟨i, h.1, h.2⟩)
  else none

def signed? : Number → Option Int
  | .whole n => if n.value < 0x8000000000000000 then some n.value else none
  | .double _ => none

theorem natAbs_lt (n : Whole) : n.value.natAbs < UInt64.size := by
  have := n.low
  have := n.high
  show n.value.natAbs < 18446744073709551616
  omega

def toDouble : Number → Double
  | .whole n => .ofNatural (decide (n.value < 0)) n.value.natAbs (natAbs_lt n)
  | .double x => x

def compare (a b : Number) : Ordering :=
  match a.signed?, b.signed? with
  | some i, some j => Ord.compare i j
  | _, _ => a.toDouble.compare b.toDouble

def same : Number → Number → Bool
  | .whole a, .whole b => a == b
  | .double x, .double y => x == y
  | _, _ => false

instance : BEq Number := ⟨same⟩

end Number

/-- A JSON value. The members of an object are in ascending order of their keys. -/
inductive Json
  | null
  | bool (b : Bool)
  | num (n : Number)
  | str (s : String)
  | arr (items : List Json)
  | obj (members : List (String × Json))

namespace Json

mutual

def same (a b : Json) : Bool :=
  match a, b with
  | .null, .null => true
  | .bool x, .bool y => x == y
  | .num x, .num y => x == y
  | .str x, .str y => x == y
  | .arr x, .arr y => sameItems x y
  | .obj x, .obj y => sameMembers x y
  | _, _ => false
termination_by structural a

def sameItems (a b : List Json) : Bool :=
  match a, b with
  | [], [] => true
  | x :: xs, y :: ys => same x y && sameItems xs ys
  | _, _ => false
termination_by structural a

def sameMembers (a b : List (String × Json)) : Bool :=
  match a, b with
  | [], [] => true
  | (k, x) :: xs, (l, y) :: ys => k == l && same x y && sameMembers xs ys
  | _, _ => false
termination_by structural a

end

instance : BEq Json := ⟨same⟩

instance : Inhabited Json := ⟨.null⟩

def isNull : Json → Bool
  | .null => true
  | _ => false

def ofNat (n : Nat) : Json :=
  ((Number.ofInt? n).map .num).getD .null

def ofPairs (pairs : List (String × Json)) : Json :=
  .obj (OrderedMap.ofPairs pairs)

def get? (v : Json) (key : String) : Option Json :=
  match v with
  | .obj members => OrderedMap.get? members key
  | _ => none

def get (v : Json) (key : String) : Json :=
  (v.get? key).getD .null

def present? (v : Json) (key : String) : Option Json :=
  (v.get? key).filter fun x => !x.isNull

def set (v : Json) (key : String) (value : Json) : Json :=
  match v with
  | .obj members => .obj (OrderedMap.insert members key value)
  | _ => v

def items : Json → List Json
  | .arr items => items
  | _ => []

def members : Json → List (String × Json)
  | .obj members => members
  | _ => []

/-- Order of two values: numbers, texts and truth values have one, anything else is at most equal
to itself. Null is not comparable. -/
def compare? (a b : Json) : Option Ordering :=
  match a, b with
  | .num x, .num y => some (x.compare y)
  | .str x, .str y => some (Ord.compare x y)
  | .bool x, .bool y => some (Ord.compare x y)
  | .null, _ => none
  | _, .null => none
  | _, _ => if a == b then some .eq else none

/-- Equality of identities: numbers agree across their kinds, null agrees with nothing. -/
def sameIdentity (a b : Json) : Bool :=
  a.compare? b == some .eq

end Json

end EntityGraph
