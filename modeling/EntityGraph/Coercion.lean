import EntityGraph.Calendar.Text
import EntityGraph.FieldType
import EntityGraph.Json.Writer
import EntityGraph.Text
import EntityGraph.Uuid

namespace EntityGraph

structure CoercionError where
  value : Json
  target : FieldType

def CoercionError.message (e : CoercionError) : String :=
  "cannot convert " ++ e.value.text ++ " to " ++ e.target.label

namespace FieldType

def holds (t : FieldType) (i : Int) : Bool :=
  match t with
  | integer => -0x80000000 ≤ i && i < 0x80000000
  | _ => -0x8000000000000000 ≤ i && i < 0x8000000000000000

def integral? (t : FieldType) (i : Int) : Option Json :=
  if t.holds i then (Number.ofInt? i).map .num else none

def isTruthy (s : String) : Bool :=
  ["true", "yes", "1", "on"].contains (Text.lowerAscii s)

/-- The whole part of a binary number of magnitude below two to the power 63. -/
def wholePart? (x : Double) : Option Int :=
  if x.magnitude < 0x8000000000000000 * Double.unit then some x.truncate else none

def integralOfText? (t : FieldType) (s : String) : Option Json :=
  match (Text.integer? s).filter long.holds with
  | some i => t.integral? i
  | none => (((Text.double? s).filter Double.isWhole).bind wholePart?).bind t.integral?

def ofText? (t : FieldType) (s : String) : Option Json :=
  match t with
  | integer | long => t.integralOfText? s
  | float | double => (Text.double? s).map fun x => .num (.double x)
  | boolean => some (.bool (isTruthy s))
  | date =>
      ((Calendar.dateOf? s).or ((Calendar.dateTimeOf? s).map DateTime.date)).map fun d =>
        .str (String.ofList (Calendar.writeDate d))
  | datetime =>
      ((Calendar.dateTimeOf? s).or ((Calendar.dateOf? s).map DateTime.midnight)).map fun d =>
        .str (String.ofList (Calendar.writeDateTime d))
  | uuid => (Uuid.canonical? s).map .str
  | string | json => some (.str s)

/-- Whole parts of numbers for integral types, nearest binary numbers for the others; a number is
true unless it is zero. -/
def ofNumber? (t : FieldType) (n : Number) : Option Json :=
  match t with
  | integer | long =>
      match n.signed? with
      | some i => t.integral? i
      | none => (wholePart? n.toDouble).bind t.integral?
  | float | double => some (.num (.double n.toDouble))
  | boolean => some (.bool (!n.toDouble.isZero))
  | _ => none

end FieldType

def coerce? (t : FieldType) (v : Json) : Option Json :=
  match t, v with
  | _, .null => some .null
  | .json, v => some v
  | .string, v => some (.str v.plainText)
  | t, .str s => if (Text.trim s).isEmpty then some .null else t.ofText? (Text.trim s)
  | t, .num n => t.ofNumber? n
  | .boolean, .bool b => some (.bool b)
  | _, _ => none

def coerce (t : FieldType) (v : Json) : Except CoercionError Json :=
  match coerce? t v with
  | some w => .ok w
  | none => .error ⟨v, t⟩

def coerceOrKeep (t : FieldType) (v : Json) : Json :=
  (coerce? t v).getD v

/-- Order of two values of a type; none where they cannot be compared. -/
def compareAs (t : FieldType) (a b : Json) : Option Ordering :=
  (coerceOrKeep t a).compare? (coerceOrKeep t b)

end EntityGraph
