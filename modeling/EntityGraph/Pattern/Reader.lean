import EntityGraph.Pattern.Bracket
import EntityGraph.Text

namespace EntityGraph.Pattern

namespace Reader

def count? (cs : List Char) : Option (Nat × List Char) :=
  let cs := cs.dropWhile Text.isBlank
  let ds := cs.takeWhile Char.isDigit
  if Text.isNumeral ds ∧ Text.digitsValue ds < UInt32.size then
    some (Text.digitsValue ds, (cs.drop ds.length).dropWhile Text.isBlank)
  else none

def skipLazy : List Char → List Char
  | '?' :: rest => rest
  | cs => cs

def bounds? (f : Flags) (cs : List Char) : Option ((Nat × Option Nat) × List Char) := do
  let (least, rest) ← count? (skip f cs)
  let (most, rest) ← match rest with
    | ',' :: more =>
        match skip f more with
        | '\x7d' :: tail => some (none, '\x7d' :: tail)
        | more => (count? more).map fun (most, tail) => (some most, tail)
    | rest => some (some least, rest)
  match rest with
  | '\x7d' :: tail =>
      if most.any (· < least) then none else return ((least, most), skipLazy (skip f tail))
  | _ => none

/-- The letters of flags up to a colon or a closing parenthesis. Those after a hyphen are switched
off; a letter may stand only once. -/
def flags? (f : Flags) (seen : List Char) (on : Bool) : List Char → Option (Flags × List Char)
  | [] => none
  | c :: rest =>
      if c = ':' ∨ c = ')' then
        if seen.head? = some '-' then none else some (f, c :: rest)
      else if seen.contains c then none
      else if c = '-' then flags? f (c :: seen) false rest
      else (f.set? c on).bind fun f => flags? f (c :: seen) on rest

def isNameStart (c : Char) : Bool :=
  c == '_' || c.isAlpha || (!CharClass.isAscii c && Unicode.isAlphabetic c)

def isNamePart (c : Char) : Bool :=
  isNameStart c || c.isDigit || ['.', '[', ']'].contains c ||
    ["Nd", "Nl", "No"].contains (Unicode.category c)

def groupName? (names : List String) (cs : List Char) : Option (String × List Char) := do
  let (name, tail) ← Text.cutFirst '>' cs
  let text := String.ofList name
  if (name.head?.any isNameStart) ∧ name.all isNamePart ∧ ¬names.contains text then
    return (text, tail)
  else none

inductive Opening
  | group (f : Flags) (names : List String) (rest : List Char)
  | switch (f : Flags) (rest : List Char)

def opening? (f : Flags) (names : List String) (cs : List Char) : Option Opening :=
  let named (rest : List Char) : Option Opening :=
    (groupName? names rest).map fun (name, tail) => .group f (name :: names) tail
  match skip f cs with
  | '?' :: '=' :: _ => none
  | '?' :: '!' :: _ => none
  | '?' :: '<' :: '=' :: _ => none
  | '?' :: '<' :: '!' :: _ => none
  | '?' :: 'P' :: '<' :: rest => named rest
  | '?' :: '<' :: rest => named rest
  | '?' :: rest => do
      let (g, tail) ← flags? f [] true rest
      match tail with
      | ':' :: tail => return .group g names tail
      | ')' :: tail => if rest.head? = some ')' then none else return .switch g tail
      | _ => none
  | rest => some (.group f names rest)

/-- What has been read of a group: the alternatives so far, and the parts of the current one, latest
first. Flags stand among the parts, for they cannot be repeated. -/
structure GroupState where
  flags : Flags
  names : List String
  choices : List Pattern
  parts : List (Option Pattern)

namespace GroupState

def add (s : GroupState) (p : Pattern) : GroupState :=
  { s with parts := some p :: s.parts }

def branch (s : GroupState) : Pattern :=
  match s.parts.reverse.filterMap id with
  | [p] => p
  | ps => .sequence ps

def finish (s : GroupState) : Pattern :=
  if s.choices.isEmpty then s.branch else .choice (s.choices ++ [s.branch])

def repeatLast? (s : GroupState) (least : Nat) (most : Option Nat) : Option GroupState :=
  match s.parts with
  | some p :: rest => some { s with parts := some (.repetition p least most) :: rest }
  | _ => none

end GroupState

def primitive? (f : Flags) : List Char → Option (Pattern × List Char)
  | [] => none
  | '.' :: rest => f.dot?.map (·, rest)
  | '^' :: rest => some (f.start, rest)
  | '$' :: rest => some (f.stop, rest)
  | '\\' :: rest =>
      (escape? f rest).map fun (e, tail) =>
        match e with
        | .literal c => (f.literal c, tail)
        | .charClass p => (.char p, tail)
        | .test p => (p, tail)
  | c :: rest => some (f.literal c, rest)

def group? : Nat → GroupState → List Char → Option (GroupState × List Char)
  | 0, _, _ => none
  | n + 1, s, cs =>
      let f := s.flags
      match skip f cs with
      | [] => some (s, [])
      | ')' :: rest => some (s, ')' :: rest)
      | '|' :: rest => group? n { s with choices := s.choices ++ [s.branch], parts := [] } rest
      | '*' :: rest => (s.repeatLast? 0 none).bind (group? n · (skipLazy rest))
      | '+' :: rest => (s.repeatLast? 1 none).bind (group? n · (skipLazy rest))
      | '?' :: rest => (s.repeatLast? 0 (some 1)).bind (group? n · (skipLazy rest))
      | '\x7b' :: rest =>
          (bounds? f rest).bind fun ((least, most), tail) =>
            (s.repeatLast? least most).bind (group? n · tail)
      | '[' :: rest =>
          let (negative, start, rest) := classStart f rest
          (classRest? n f negative start rest).bind fun (p, tail) => group? n (s.add (.char p)) tail
      | '(' :: rest =>
          (opening? f s.names rest).bind fun
            | .switch g tail => group? n { s with flags := g, parts := none :: s.parts } tail
            | .group g names tail =>
                (group? n ⟨g, names, [], []⟩ tail).bind fun (inner, tail) =>
                  match tail with
                  | ')' :: tail =>
                      group? n ({ s with names := inner.names }.add (.group inner.finish)) tail
                  | _ => none
      | cs => (primitive? f cs).bind fun (p, tail) => group? n (s.add p) tail

end Reader

def levelLimit : Nat := 250

def sizeLimit : Nat := 400000

def ofText? (s : String) : Option Pattern := do
  let cs := s.toList
  let (state, rest) ← Reader.group? (cs.length + 1) ⟨.standard, [], [], []⟩ cs
  let p := state.finish
  if rest.isEmpty ∧ p.depth ≤ levelLimit ∧ p.size ≤ sizeLimit then return p else none

end EntityGraph.Pattern
