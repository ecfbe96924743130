import EntityGraph.Double

namespace EntityGraph

structure Decimal where
  digits : Nat
  exponent : Int
  deriving DecidableEq

inductive Tie
  | even
  | up
  deriving DecidableEq

namespace Double

def reaches (x : Double) (p : Int) : Bool :=
  if 0 ≤ p then Nat.pow 10 p.toNat * unit ≤ x.magnitude
  else unit ≤ x.magnitude * Nat.pow 10 (-p).toNat

def decade (x : Double) : Int :=
  let guess := (((x.magnitude.log2 : Int) - unit.log2) * 30103).fdiv 100000
  if x.reaches (guess + 1) then guess + 1 else guess

def scaled (x : Double) (k : Int) : Nat × Nat :=
  if 0 ≤ k then (x.magnitude, unit * Nat.pow 10 k.toNat)
  else (x.magnitude * Nat.pow 10 (-k).toNat, unit)

def readsBack (x : Double) (d : Decimal) : Bool :=
  ofDecimal? x.negative d.digits d.exponent = some x

/-- The neighbour on the grid of powers `k` that reads back, the nearer one if both do. -/
def onGrid (tie : Tie) (x : Double) (k : Int) : Option Decimal :=
  let r := x.scaled k
  let low : Decimal := ⟨r.1 / r.2, k⟩
  let high : Decimal := ⟨r.1 / r.2 + 1, k⟩
  match x.readsBack low, x.readsBack high with
  | false, false => none
  | true, false => some low
  | false, true => some high
  | true, true =>
      match Ord.compare (2 * (r.1 % r.2)) r.2, tie with
      | .lt, _ => some low
      | .gt, _ => some high
      | .eq, .up => some high
      | .eq, .even => if low.digits % 2 = 0 then some low else some high

def exact (x : Double) : Decimal :=
  ⟨x.magnitude * Nat.pow 5 unit.log2, -(unit.log2 : Int)⟩

/-- The fewest digits that read back, and of these the nearest to the value. Seventeen always
suffice. -/
def shortest (tie : Tie) (x : Double) : Decimal :=
  let top := x.decade
  ((List.range 17).findSome? fun (n : Nat) => x.onGrid tie (top - n)).getD x.exact

end Double

/-- How a number is written: which decades are written without an exponent, what ends a number
without a fraction, and which way ties go. -/
structure DecimalStyle where
  tie : Tie
  positional : Int → Bool
  whole : String

namespace DecimalStyle

def zeros (n : Nat) : List Char :=
  List.replicate n '0'

def point (whole : String) (digits : List Char) (n : Int) : List Char :=
  if n ≤ 0 then '0' :: '.' :: zeros (-n).toNat ++ digits
  else if digits.length ≤ n.toNat then digits ++ zeros (n.toNat - digits.length) ++ whole.toList
  else digits.take n.toNat ++ '.' :: digits.drop n.toNat

def scientific (digits : List Char) (decade : Int) : List Char :=
  let fraction := if digits.length ≤ 1 then [] else '.' :: digits.drop 1
  let sign := if decade < 0 then '-' else '+'
  digits.take 1 ++ fraction ++ 'e' :: sign :: (Nat.repr decade.natAbs).toList

def writeDecimal (style : DecimalStyle) (d : Decimal) : List Char :=
  let all := Nat.toDigits 10 d.digits
  let digits := (all.reverse.dropWhile (· == '0')).reverse
  let decade := d.exponent + all.length - 1
  if style.positional decade then point style.whole digits (decade + 1)
  else scientific digits decade

def write (style : DecimalStyle) (x : Double) : String :=
  let sign := if x.negative then ['-'] else []
  let body := if x.isZero then '0' :: style.whole.toList
    else style.writeDecimal (x.shortest style.tie)
  String.ofList (sign ++ body)

def json : DecimalStyle :=
  ⟨.even, fun decade => -5 ≤ decade ∧ decade < 16, ".0"⟩

def plain : DecimalStyle :=
  ⟨.up, fun _ => true, ""⟩

end DecimalStyle

end EntityGraph
