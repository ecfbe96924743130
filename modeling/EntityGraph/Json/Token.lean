namespace EntityGraph.Json

/-- A number as written: sign, digits before the point, after it, and a signed exponent. -/
structure Literal where
  negative : Bool
  whole : List Char
  fraction : List Char
  exponent : Option (Bool × List Char)
  deriving DecidableEq

inductive StringPart
  | char (c : Char)
  | unit (n : Nat)
  deriving DecidableEq

/-- The lexical elements of JSON text. A string whose escapes leave half of a surrogate pair has no
text; `bad` stands for whatever is no element. -/
inductive Token
  | openArray
  | closeArray
  | openObject
  | closeObject
  | comma
  | colon
  | null
  | bool (b : Bool)
  | number (l : Literal)
  | string (text : Option String)
  | bad
  deriving DecidableEq

namespace Token

def isSpace (c : Char) : Bool :=
  c == ' ' || c == '\n' || c == '\r' || c == '\t'

def hexValue? (c : Char) : Option Nat :=
  if '0' ≤ c ∧ c ≤ '9' then some (c.toNat - '0'.toNat)
  else if 'a' ≤ c ∧ c ≤ 'f' then some (c.toNat - 'a'.toNat + 10)
  else if 'A' ≤ c ∧ c ≤ 'F' then some (c.toNat - 'A'.toNat + 10)
  else none

def shortEscape? : Char → Option Char
  | '"' => some '"'
  | '\\' => some '\\'
  | '/' => some '/'
  | 'b' => some '\x08'
  | 'f' => some '\x0c'
  | 'n' => some '\n'
  | 'r' => some '\r'
  | 't' => some '\t'
  | _ => none

def stringParts : List Char → Option (List StringPart × List Char)
  | [] => none
  | '"' :: rest => some ([], rest)
  | '\\' :: 'u' :: a :: b :: c :: d :: rest =>
      match hexValue? a, hexValue? b, hexValue? c, hexValue? d, stringParts rest with
      | some a, some b, some c, some d, some (parts, tail) =>
          some (.unit (((a * 16 + b) * 16 + c) * 16 + d) :: parts, tail)
      | _, _, _, _, _ => none
  | '\\' :: e :: rest =>
      match shortEscape? e, stringParts rest with
      | some c, some (parts, tail) => some (.char c :: parts, tail)
      | _, _ => none
  | c :: rest =>
      if c.toNat < 0x20 ∨ c = '\\' then none
      else (stringParts rest).map fun (parts, tail) => (.char c :: parts, tail)

/-- Join the halves of surrogate pairs; a half without its partner is no text. -/
def joinParts : List StringPart → Option (List Char)
  | [] => some []
  | .char c :: rest => (joinParts rest).map (c :: ·)
  | .unit h :: .unit l :: rest =>
      if 0xD800 ≤ h ∧ h < 0xDC00 ∧ 0xDC00 ≤ l ∧ l < 0xE000 then
        (joinParts rest).map (Char.ofNat (0x10000 + (h - 0xD800) * 0x400 + (l - 0xDC00)) :: ·)
      else if 0xD800 ≤ h ∧ h < 0xE000 then none
      else (joinParts (.unit l :: rest)).map (Char.ofNat h :: ·)
  | .unit h :: rest =>
      if 0xD800 ≤ h ∧ h < 0xE000 then none else (joinParts rest).map (Char.ofNat h :: ·)

def digits (cs : List Char) : List Char × List Char :=
  (cs.takeWhile Char.isDigit, cs.dropWhile Char.isDigit)

def fraction? : List Char → Option (List Char × List Char)
  | '.' :: rest => if (digits rest).1.isEmpty then none else some (digits rest)
  | rest => some ([], rest)

def exponentDigits? (negative : Bool) (cs : List Char) :
    Option (Option (Bool × List Char) × List Char) :=
  if (digits cs).1.isEmpty then none else some (some (negative, (digits cs).1), (digits cs).2)

def exponent? : List Char → Option (Option (Bool × List Char) × List Char)
  | e :: rest =>
      if e = 'e' ∨ e = 'E' then
        match rest with
        | '-' :: more => exponentDigits? true more
        | '+' :: more => exponentDigits? false more
        | more => exponentDigits? false more
      else some (none, e :: rest)
  | [] => some (none, [])

def unsigned? (negative : Bool) (cs : List Char) : Option (Literal × List Char) := do
  let (whole, rest) := digits cs
  if whole.isEmpty ∨ (whole.head? = some '0' ∧ 1 < whole.length) then none
  let (fraction, rest) ← fraction? rest
  let (exponent, rest) ← exponent? rest
  some (⟨negative, whole, fraction, exponent⟩, rest)

def next : List Char → Token × List Char
  | '[' :: rest => (openArray, rest)
  | ']' :: rest => (closeArray, rest)
  | '\x7b' :: rest => (openObject, rest)
  | '\x7d' :: rest => (closeObject, rest)
  | ',' :: rest => (comma, rest)
  | ':' :: rest => (colon, rest)
  | 'n' :: 'u' :: 'l' :: 'l' :: rest => (null, rest)
  | 't' :: 'r' :: 'u' :: 'e' :: rest => (bool true, rest)
  | 'f' :: 'a' :: 'l' :: 's' :: 'e' :: rest => (bool false, rest)
  | '"' :: rest =>
      match stringParts rest with
      | some (parts, tail) => (string ((joinParts parts).map String.ofList), tail)
      | none => (bad, [])
  | '-' :: rest =>
      match unsigned? true rest with
      | some (l, tail) => (number l, tail)
      | none => (bad, [])
  | cs =>
      match unsigned? false cs with
      | some (l, tail) => (number l, tail)
      | none => (bad, [])

def scanFrom : Nat → List Char → List Token
  | 0, _ => []
  | n + 1, cs =>
      match cs.dropWhile isSpace with
      | [] => []
      | c :: rest => (next (c :: rest)).1 :: scanFrom n (next (c :: rest)).2

def scan (cs : List Char) : List Token :=
  scanFrom cs.length cs

end Token

end EntityGraph.Json
