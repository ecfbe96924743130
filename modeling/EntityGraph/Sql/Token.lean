import EntityGraph.FieldType
import EntityGraph.Json.Basic
import EntityGraph.Text

namespace EntityGraph.Sql

inductive Value
  | null
  | bool (b : Bool)
  | int (i : Int)
  | double (x : Double)
  | text (s : String)
  | json (v : Json)

def Value.ofJson : Json → Value
  | .null => null
  | .bool b => bool b
  | .num n =>
      match n.signed? with
      | some i => int i
      | none => double n.toDouble
  | .str s => text s
  | v => json v

inductive Token
  /-- Key words, operators, numbers and blanks. -/
  | plain (s : String)
  /-- A quoted identifier. -/
  | name (s : String)
  /-- A string literal. -/
  | literal (s : String)
  /-- The name of a table in the query, by its number. -/
  | alias (n : Nat)
  | param (v : Value)
  | openParen
  | closeParen

namespace Token

/-- The text of tokens, the next placeholder having the number given. -/
def write (n : Nat) : List Token → List Char
  | [] => []
  | .plain s :: rest => s.toList ++ write n rest
  | .name s :: rest => Text.quoted '"' s ++ write n rest
  | .literal s :: rest => Text.quoted '\'' s ++ write n rest
  | .alias k :: rest => 't' :: (Nat.repr k).toList ++ write n rest
  | .param _ :: rest => '$' :: (Nat.repr n).toList ++ write (n + 1) rest
  | .openParen :: rest => '(' :: write n rest
  | .closeParen :: rest => ')' :: write n rest

def param? : Token → Option Value
  | .param v => some v
  | _ => none

end Token

abbrev Statement := List Token

namespace Statement

def text (s : Statement) : String :=
  String.ofList (Token.write 1 s)

def params (s : Statement) : List Value :=
  s.filterMap Token.param?

end Statement

def parens (s : List Token) : List Token :=
  .openParen :: s ++ [.closeParen]

def joined (separator : String) : List (List Token) → List Token
  | [] => []
  | [s] => s
  | s :: rest => s ++ .plain separator :: joined separator rest

def castOf? : FieldType → Option String
  | .boolean => some "boolean"
  | .integer | .long => some "bigint"
  | .float | .double => some "double precision"
  | .date => some "date"
  | .datetime => some "timestamp"
  | .uuid => some "uuid"
  | .string | .json => none

end EntityGraph.Sql
