import EntityGraph.Pattern.Flags

namespace EntityGraph.Pattern

namespace Reader

def skipBlanks (comment : Bool) : List Char → List Char
  | [] => []
  | c :: rest =>
      if comment then skipBlanks (c != '\n') rest
      else if Text.isBlank c then skipBlanks false rest
      else if c = '#' then skipBlanks true rest
      else c :: rest

def skip (f : Flags) (cs : List Char) : List Char :=
  if f.verbose then skipBlanks false cs else cs

def hexValue? (c : Char) : Option Nat :=
  if '0' ≤ c ∧ c ≤ '9' then some (c.toNat - '0'.toNat)
  else if 'a' ≤ c ∧ c ≤ 'f' then some (c.toNat - 'a'.toNat + 10)
  else if 'A' ≤ c ∧ c ≤ 'F' then some (c.toNat - 'A'.toNat + 10)
  else none

def hexChar? (ds : List Char) : Option Char := do
  let values ← ds.mapM hexValue?
  if values.isEmpty then none
  let n := values.foldl (fun n d => 16 * n + d) 0
  if n.isValidChar then some (Char.ofNat n) else none

/-- Without Unicode two digits mean a byte, and only the ASCII ones are characters. -/
def isNumbered (f : Flags) (width : Nat) (c : Char) : Bool :=
  !f.ascii || width != 2 || CharClass.isAscii c

def hexEscape? (f : Flags) (width : Nat) (cs : List Char) : Option (Char × List Char) :=
  match skip f cs with
  | '\x7b' :: rest => do
      let (ds, tail) ← Text.cutFirst '\x7d' rest
      return (← hexChar? (if f.verbose then ds.filter fun c => !Text.isBlank c else ds), tail)
  | rest =>
      if rest.length < width then none
      else
        ((hexChar? (rest.take width)).filter (isNumbered f width)).map (·, rest.drop width)

inductive Escape
  | literal (c : Char)
  | charClass (p : CharClass)
  | test (p : Pattern)

def propertyEscape? (f : Flags) (negative : Bool) (cs : List Char) : Option (Escape × List Char) :=
  do
  let (name, tail) ← match skip f cs with
    | '\x7b' :: rest => Text.cutFirst '\x7d' rest
    | '\\' :: _ => none
    | c :: rest => some ([c], rest)
    | [] => none
  let (without, p) ← CharClass.property? (String.ofList name)
  if f.ascii then none
  let p := f.fold p
  return (.charClass (if negative != without then p.negate else p), tail)

def boundary? (f : Flags) : String → Option Pattern
  | "start" => some (f.wordTest fun before after => !before && after)
  | "end" => some (f.wordTest fun before after => before && !after)
  | "start-half" => some (f.wordTest fun before _ => !before)
  | "end-half" => some (f.wordTest fun _ after => !after)
  | _ => none

def isBoundaryName (c : Char) : Bool :=
  c.isAlpha || c == '-'

/-- A word boundary. What stands in braces after it names the kind, unless it is no name at all. -/
def wordBoundary? (f : Flags) (cs : List Char) : Option (Escape × List Char) :=
  let plain : Pattern := f.wordTest fun before after => before != after
  match cs with
  | '\x7b' :: rest =>
      let rest := skip f rest
      match rest with
      | [] => none
      | c :: _ =>
          if isBoundaryName c then
            match skip f (rest.dropWhile isBoundaryName) with
            | '\x7d' :: tail =>
                (boundary? f (String.ofList (rest.takeWhile isBoundaryName))).map fun p =>
                  (.test p, tail)
            | _ => none
          else some (.test plain, cs)
  | cs => some (.test plain, cs)

def letterClass? (f : Flags) (p : CharClass) (negative : Bool) (rest : List Char) :
    Option (Escape × List Char) :=
  (if negative then f.complement? p else some p).map fun p => (.charClass p, rest)

def escape? (f : Flags) : List Char → Option (Escape × List Char)
  | [] => none
  | c :: rest =>
      match c with
      | 'x' => (hexEscape? f 2 rest).map fun (c, tail) => (.literal c, tail)
      | 'u' => (hexEscape? f 4 rest).map fun (c, tail) => (.literal c, tail)
      | 'U' => (hexEscape? f 8 rest).map fun (c, tail) => (.literal c, tail)
      | 'p' => propertyEscape? f false rest
      | 'P' => propertyEscape? f true rest
      | 'd' => letterClass? f f.digit false rest
      | 'D' => letterClass? f f.digit true rest
      | 's' => letterClass? f f.space false rest
      | 'S' => letterClass? f f.space true rest
      | 'w' => letterClass? f f.word false rest
      | 'W' => letterClass? f f.word true rest
      | 'a' => some (.literal '\x07', rest)
      | 'f' => some (.literal '\x0c', rest)
      | 't' => some (.literal '\t', rest)
      | 'n' => some (.literal '\n', rest)
      | 'r' => some (.literal '\r', rest)
      | 'v' => some (.literal '\x0b', rest)
      | 'A' => some (.test (.assertion fun before _ => before.isNone), rest)
      | 'z' => some (.test (.assertion fun _ after => after.isNone), rest)
      | 'b' => wordBoundary? f rest
      | 'B' => some (.test (f.wordTest fun before after => before == after), rest)
      | '<' => (boundary? f "start").map fun p => (.test p, rest)
      | '>' => (boundary? f "end").map fun p => (.test p, rest)
      | c => if CharClass.isAscii c ∧ ¬c.isAlphanum then some (.literal c, rest) else none

def classItem? (f : Flags) : List Char → Option (Escape × List Char)
  | [] => none
  | '\\' :: rest => escape? f rest
  | c :: rest => some (.literal c, rest)

def classChar? (f : Flags) (c : Char) : Option Char :=
  if f.ascii ∧ ¬CharClass.isAscii c then none else some c

end Reader

end EntityGraph.Pattern
