import EntityGraph.Json.Writer
import EntityGraph.Unicode.Category
import EntityGraph.Unicode.Property

namespace EntityGraph.Json

def invisibleCategories : List String :=
  ["Cc", "Cf", "Cs", "Co", "Cn", "Zl", "Zp", "Zs"]

/-- Characters that have no shape of their own are written by their numbers. -/
def isVisible (c : Char) : Bool :=
  c == ' ' || !(Unicode.isGraphemeExtend c || invisibleCategories.contains (Unicode.category c))

def showChar (c : Char) : List Char :=
  match c with
  | '"' => ['\\', '"']
  | '\\' => ['\\', '\\']
  | '\n' => ['\\', 'n']
  | '\r' => ['\\', 'r']
  | '\t' => ['\\', 't']
  | '\x00' => ['\\', '0']
  | c =>
      if isVisible c then [c]
      else ['\\', 'u', '\x7b'] ++ Nat.toDigits 16 c.toNat ++ ['\x7d']

def showText (s : String) : List Char :=
  '"' :: s.toList.flatMap showChar ++ ['"']

def separated (parts : List (List Char)) : List Char :=
  [',', ' '].intercalate parts

mutual

def labelled : Json → List Char
  | .null => "Null".toList
  | .bool b => "Bool(".toList ++ (if b then "true" else "false").toList ++ [')']
  | .num n => "Number(".toList ++ n.text.toList ++ [')']
  | .str s => "String(".toList ++ showText s ++ [')']
  | .arr items => "Array [".toList ++ separated (labelledItems items) ++ [']']
  | .obj members => "Object \x7b".toList ++ separated (labelledMembers members) ++ ['\x7d']
termination_by structural v => v

def labelledItems : List Json → List (List Char)
  | [] => []
  | v :: rest => labelled v :: labelledItems rest
termination_by structural vs => vs

def labelledMembers : List (String × Json) → List (List Char)
  | [] => []
  | (k, v) :: rest => (showText k ++ [':', ' '] ++ labelled v) :: labelledMembers rest
termination_by structural ms => ms

end

def labelledList (vs : List Json) : String :=
  String.ofList ('[' :: separated (vs.map labelled) ++ [']'])

end EntityGraph.Json
