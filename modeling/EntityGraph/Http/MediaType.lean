import EntityGraph.Text

namespace EntityGraph.Http

def isTokenChar (c : Char) : Bool :=
  c.isAlphanum || "!#$%&'*+-.^_\x60|~".toList.contains c

def isQuotedChar (c : Char) : Bool :=
  c == '\t' || (32 ≤ c.toNat && c.toNat < 127)

def afterQuoted? : List Char → Option (List Char)
  | [] => some []
  | ';' :: rest => some rest
  | ' ' :: rest => afterQuoted? rest
  | _ => none

def afterValue? : List Char → Option (List Char)
  | '"' :: c :: rest =>
      let body := rest.takeWhile fun x => x != '"'
      if isQuotedChar c ∧ body.all isQuotedChar then
        match rest.drop body.length with
        | [] => none
        | _ :: tail => afterQuoted? tail
      else none
  | cs =>
      let value := cs.takeWhile isTokenChar
      match cs.drop value.length with
      | [] => some []
      | ';' :: rest => if value.isEmpty then none else some rest
      | _ => none

def validParameters : Nat → List Char → Bool
  | 0, cs => cs.isEmpty
  | _, [] => true
  | n + 1, ' ' :: rest => validParameters n rest
  | n + 1, cs =>
      let name := cs.takeWhile isTokenChar
      match cs.drop name.length with
      | '=' :: rest => !name.isEmpty && (afterValue? rest).any (validParameters n)
      | _ => false

structure MediaType where
  type : String
  subtype : String
  suffix : Option String

namespace MediaType

def splitSuffix (cs : List Char) : List Char × Option (List Char) :=
  match Text.cutLast '+' cs with
  | some ([], _) => (cs, none)
  | some (subtype, suffix) => (subtype, some suffix)
  | none => (cs, none)

def ofText? (s : String) : Option MediaType := do
  let (type, rest) ← Text.cutFirst '/' (Text.lowerAscii s).toList
  let subtype := rest.takeWhile isTokenChar
  let valid : Bool := match rest.drop subtype.length with
    | [] => true
    | ';' :: parameters => !subtype.isEmpty && validParameters s.length parameters
    | _ => false
  if type.isEmpty ∨ ¬type.all isTokenChar ∨ ¬valid then none
  let (subtype, suffix) := splitSuffix subtype
  return ⟨String.ofList type, String.ofList subtype, suffix.map String.ofList⟩

def isJson (m : MediaType) : Bool :=
  m.type == "application" && (m.subtype == "json" || m.suffix == some "json")

end MediaType

end EntityGraph.Http
