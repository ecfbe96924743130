import EntityGraph.Text

namespace EntityGraph.Http

abbrev Bytes := List Nat

def bytesOf (cs : List Char) : Bytes :=
  (String.ofList cs).toUTF8.toList.map UInt8.toNat

def hexDigit? (b : Nat) : Option Nat :=
  if 48 ≤ b ∧ b ≤ 57 then some (b - 48)
  else if 65 ≤ b ∧ b ≤ 70 then some (b - 55)
  else if 97 ≤ b ∧ b ≤ 102 then some (b - 87)
  else none

def percent : Nat := 37

/-- Replace each percent sign and its two hexadecimal digits by the byte that they write. Percent
signs without two digits stay. -/
def percentDecode : Bytes → Bytes
  | a :: b :: c :: rest =>
      match hexDigit? b, hexDigit? c with
      | some h, some l =>
          if a = percent then (16 * h + l) :: percentDecode rest
          else a :: percentDecode (b :: c :: rest)
      | _, _ => a :: percentDecode (b :: c :: rest)
  | bs => bs

def isTail (b : Nat) : Bool :=
  0x80 ≤ b && b < 0xC0

def lead? (b : Nat) : Option (Nat × Nat × Nat) :=
  if 0xC2 ≤ b ∧ b < 0xE0 then some (2, 0x80, 0xC0)
  else if b = 0xE0 then some (3, 0xA0, 0xC0)
  else if b = 0xED then some (3, 0x80, 0xA0)
  else if 0xE1 ≤ b ∧ b < 0xF0 then some (3, 0x80, 0xC0)
  else if b = 0xF0 then some (4, 0x90, 0xC0)
  else if b = 0xF4 then some (4, 0x80, 0x90)
  else if 0xF1 ≤ b ∧ b < 0xF4 then some (4, 0x80, 0xC0)
  else none

def firstPart (b : Nat) (rest : Bytes) : Option Char × Nat :=
  if b < 0x80 then (some (Char.ofNat b), 0)
  else
    match lead? b with
    | none => (none, 0)
    | some (width, low, high) =>
        let tail := match rest with
          | c :: more =>
              if low ≤ c ∧ c < high then c :: (more.take (width - 2)).takeWhile isTail else []
          | [] => []
        if tail.length + 1 = width then
          let bits := b % (1 <<< (7 - width))
          (some (Char.ofNat (tail.foldl (fun n c => 64 * n + c % 64) bits)), tail.length)
        else (none, tail.length)

/-- The characters of bytes in UTF-8; each part that is no character is none. At every step at least
one byte is used. -/
def decodeFrom : Nat → Bytes → List (Option Char)
  | 0, _ => []
  | _, [] => []
  | n + 1, b :: rest =>
      (firstPart b rest).1 :: decodeFrom n (rest.drop (firstPart b rest).2)

def decode (bs : Bytes) : List (Option Char) :=
  decodeFrom bs.length bs

def text? (bs : Bytes) : Option String :=
  ((decode bs).mapM id).map String.ofList

def textOf (bs : Bytes) : String :=
  String.ofList ((decode bs).map fun c => c.getD '\uFFFD')

def formText (cs : List Char) : String :=
  textOf (percentDecode (bytesOf (cs.map fun c => if c = '+' then ' ' else c)))

/-- The pairs of a query string. A key without a value has the empty one. -/
def formPairs (query : String) : List (String × String) :=
  ((query.toList.splitOn '&').filter fun part => !part.isEmpty).map fun part =>
    match Text.cutFirst '=' part with
    | some (key, value) => (formText key, formText value)
    | none => (formText part, "")

end EntityGraph.Http
