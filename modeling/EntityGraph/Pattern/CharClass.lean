import EntityGraph.Text
import EntityGraph.Unicode.Category
import EntityGraph.Unicode.Folding
import EntityGraph.Unicode.Property
import EntityGraph.Unicode.Script

namespace EntityGraph.Pattern

abbrev CharClass := Char → Bool

namespace CharClass

def range (low high : Char) : CharClass :=
  fun c => low ≤ c && c ≤ high

def negate (p : CharClass) : CharClass :=
  fun c => !p c

def union (p q : CharClass) : CharClass :=
  fun c => p c || q c

def isAscii (c : Char) : Bool :=
  c.toNat < 128

def asciiWord : CharClass :=
  fun c => c.isAlphanum || c == '_'

def asciiSpace : CharClass :=
  fun c => c == ' ' || (9 ≤ c.toNat && c.toNat ≤ 13)

/-- Letters, marks, decimal digits, connectors, and the two characters that join letters. -/
def word : CharClass := fun c =>
  asciiWord c || (!isAscii c && (c == '\u200c' || c == '\u200d' || Unicode.isAlphabetic c ||
    ["Mn", "Mc", "Me", "Nd", "Pc"].contains (Unicode.category c)))

def digit : CharClass := fun c =>
  c.isDigit || (!isAscii c && Unicode.category c == "Nd")

def foldCase (ascii : Bool) (p : CharClass) : CharClass := fun c =>
  if ascii then p c || p c.toLower || p c.toUpper else (Unicode.caseVariants c).any p

def named? : String → Option CharClass
  | "alnum" => some Char.isAlphanum
  | "alpha" => some Char.isAlpha
  | "ascii" => some isAscii
  | "blank" => some fun c => c == ' ' || c == '\t'
  | "cntrl" => some fun c => c.toNat < 32 || c.toNat == 127
  | "digit" => some Char.isDigit
  | "graph" => some fun c => 33 ≤ c.toNat && c.toNat < 127
  | "lower" => some Char.isLower
  | "print" => some fun c => 32 ≤ c.toNat && c.toNat < 127
  | "punct" => some fun c => 33 ≤ c.toNat && c.toNat < 127 && !c.isAlphanum
  | "space" => some asciiSpace
  | "upper" => some Char.isUpper
  | "word" => some asciiWord
  | "xdigit" => some fun c => c.isDigit || ('a' ≤ c && c ≤ 'f') || ('A' ≤ c && c ≤ 'F')
  | _ => none

def normalName (name : String) : String :=
  let cs := (name.toList.filter fun c => !(Text.isBlank c || c == '_' || c == '-')).map Char.toLower
  match cs with
  | 'i' :: 's' :: rest => if rest = ['c'] then "isc" else String.ofList rest
  | cs => String.ofList cs

def binaryProperty? : String → Option CharClass
  | "alphabetic" | "alpha" => some Unicode.isAlphabetic
  | "lowercase" | "lower" => some Unicode.isLowercase
  | "uppercase" | "upper" => some Unicode.isUppercase
  | "whitespace" | "wspace" | "space" => some Text.isBlank
  | "graphemeextend" | "grext" => some Unicode.isGraphemeExtend
  | _ => none

def categoryClass? : String → Option CharClass
  | "any" => some fun _ => true
  | "ascii" => some isAscii
  | "assigned" => some fun c => Unicode.category c != "Cn"
  | name => (Unicode.categoriesNamed? name).map fun labels c => labels.contains (Unicode.category c)

def scriptClass? (name : String) : Option CharClass :=
  (Unicode.scriptNamed? name).map fun label c => Unicode.script c == label

/-- The class of a property: its name alone, or the name of a kind of property and a value. With it
comes whether the characters that have not the property are meant. -/
def property? (text : String) : Option (Bool × CharClass) :=
  let cs := text.toList
  let (negative, parts) := match Text.cutFirst '!' cs with
    | some (kind, '=' :: value) => (true, some (kind, value))
    | _ => (false, (Text.cutFirst ':' cs).or (Text.cutFirst '=' cs))
  match parts with
  | none =>
      let name := normalName text
      (((binaryProperty? name).or (categoryClass? name)).or (scriptClass? name)).map (negative, ·)
  | some (kind, value) =>
      let value := normalName (String.ofList value)
      let p := match normalName (String.ofList kind) with
        | "generalcategory" | "gc" => categoryClass? value
        | "script" | "sc" => scriptClass? value
        | _ => none
      p.map (negative, ·)

end CharClass

end EntityGraph.Pattern
