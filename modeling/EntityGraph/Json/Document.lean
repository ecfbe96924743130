import EntityGraph.Json.Basic
import EntityGraph.Json.Token
import EntityGraph.Text

namespace EntityGraph.Json

open Text (digitsValue)

inductive Document
  | null
  | bool (b : Bool)
  | number (l : Literal)
  | string (text : Option String)
  | array (items : List Document)
  | object (members : List (Option String × Document))

namespace Literal

def absorb : Nat → List Char → Nat × List Char
  | n, [] => (n, [])
  | n, c :: rest =>
      if 10 * n + (c.toNat - '0'.toNat) < UInt64.size then
        absorb (10 * n + (c.toNat - '0'.toNat)) rest
      else (n, c :: rest)

/-- Divide by ten to the power 308 until the number vanishes or the steps are done, then by what is
left of the power. -/
def scaleDown : Nat → Nat → Double → Option Double
  | steps, rest, x =>
      if x.isZero then some x
      else
        match steps with
        | 0 => (Double.ofDecimal? false 1 rest).bind x.div?
        | n + 1 => ((Double.ofDecimal? false 1 308).bind x.div?).bind (scaleDown n rest)

def scale (x : Double) (exponent : Int) : Option Double :=
  if exponent < 0 then
    let n := exponent.natAbs
    scaleDown ((n - 1) / 308) (n - (n - 1) / 308 * 308) x
  else if exponent ≤ 308 then (Double.ofDecimal? false 1 exponent).bind x.mul?
  else if x.isZero then some x
  else none

theorem absorb_lt (n : Nat) (cs : List Char) (h : n < UInt64.size) :
    (absorb n cs).1 < UInt64.size := by
  induction cs generalizing n with
  | nil => exact h
  | cons c rest ih =>
    unfold absorb
    split
    · exact ih _ ‹_›
    · exact h

/-- The binary number of a literal: its leading digits, rounded, times a rounded power of ten. For
up to fifteen digits and exponents up to 22 this is the nearest number; beyond that it may be a
neighbour of it. -/
def toDouble? (l : Literal) : Option Double :=
  let whole := absorb 0 l.whole
  let all := absorb whole.1 l.fraction
  let taken := l.fraction.length - all.2.length
  let exponent : Int := match l.exponent with
    | none => 0
    | some (negative, ds) => if negative then -(digitsValue ds : Int) else digitsValue ds
  let x := Double.ofNatural false all.1 (absorb_lt _ _ (absorb_lt _ _ (by decide)))
  (scale x (whole.2.length - taken + exponent)).map fun y => if l.negative then y.negate else y

def toNumber? (l : Literal) : Option Number :=
  let value := digitsValue l.whole
  if l.fraction.isEmpty ∧ l.exponent.isNone ∧ ¬ (l.negative ∧ value = 0) then
    match Number.ofInt? (if l.negative then -(value : Int) else value) with
    | some n => some n
    | none => l.toDouble?.map .double
  else l.toDouble?.map .double

end Literal

namespace Document

inductive Frame
  | array (items : List Document)
  | object (members : List (Option String × Document)) (key : Option String)

inductive Mode
  | value
  | firstItem
  | firstKey
  | key
  | colon (key : Option String)
  | after

def Frame.add (d : Document) : Frame → Frame
  | .array items => .array (d :: items)
  | .object members key => .object ((key, d) :: members) none

/-- Read one value. Each token is used once; a value that is complete goes into the frame around it,
and the reading ends with the value that has none. -/
def read : List Token → Mode → List Frame → Option (Document × List Token)
  | [], _, _ => none
  | t :: ts, mode, stack =>
      let supply (d : Document) (stack : List Frame) : Option (Document × List Token) :=
        match stack with
        | [] => some (d, ts)
        | f :: rest => read ts .after (f.add d :: rest)
      match mode, t, stack with
      | .firstItem, .closeArray, .array items :: rest => supply (.array items.reverse) rest
      | .firstKey, .closeObject, .object members _ :: rest => supply (.object members.reverse) rest
      | .firstKey, .string k, _ => read ts (.colon k) stack
      | .key, .string k, _ => read ts (.colon k) stack
      | .colon k, .colon, .object members _ :: rest => read ts .value (.object members k :: rest)
      | .after, .comma, .array _ :: _ => read ts .value stack
      | .after, .comma, .object _ _ :: _ => read ts .key stack
      | .after, .closeArray, .array items :: rest => supply (.array items.reverse) rest
      | .after, .closeObject, .object members _ :: rest => supply (.object members.reverse) rest
      | .value, t, _ | .firstItem, t, _ =>
          match t with
          | .null => supply .null stack
          | .bool b => supply (.bool b) stack
          | .number l => supply (.number l) stack
          | .string s => supply (.string s) stack
          | .openArray => read ts .firstItem (.array [] :: stack)
          | .openObject => read ts .firstKey (.object [] none :: stack)
          | _ => none
      | _, _, _ => none

def ofText? (s : String) : Option Document :=
  match read (Token.scan s.toList) .value [] with
  | some (d, []) => some d
  | _ => none

def firstOf? (s : String) : Option Document :=
  (read (Token.scan s.toList) .value []).map Prod.fst

mutual

def depth : Document → Nat
  | .array items => depthItems items + 1
  | .object members => depthMembers members + 1
  | _ => 0
termination_by structural d => d

def depthItems : List Document → Nat
  | [] => 0
  | d :: rest => max (depth d) (depthItems rest)
termination_by structural ds => ds

def depthMembers : List (Option String × Document) → Nat
  | [] => 0
  | (_, d) :: rest => max (depth d) (depthMembers rest)
termination_by structural ms => ms

end

mutual

/-- The value of a document. Strings must be text, numbers must not overflow, and of repeated
members the last counts. -/
def toJson? : Document → Option Json
  | .null => some .null
  | .bool b => some (.bool b)
  | .number l => l.toNumber?.map .num
  | .string s => s.map .str
  | .array items => (itemsToJson? items).map .arr
  | .object members => (membersToJson? members).map .ofPairs
termination_by structural d => d

def itemsToJson? : List Document → Option (List Json)
  | [] => some []
  | d :: rest =>
      match toJson? d, itemsToJson? rest with
      | some v, some vs => some (v :: vs)
      | _, _ => none
termination_by structural ds => ds

def membersToJson? : List (Option String × Document) → Option (List (String × Json))
  | [] => some []
  | (k, d) :: rest =>
      match k, toJson? d, membersToJson? rest with
      | some k, some v, some vs => some ((k, v) :: vs)
      | _, _, _ => none
termination_by structural ms => ms

end

end Document

def nestingLimit : Nat := 128

def ofText? (s : String) : Option Json :=
  (Document.ofText? s).bind fun d => if d.depth < nestingLimit then d.toJson? else none

end EntityGraph.Json
