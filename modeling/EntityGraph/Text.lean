import EntityGraph.Double

namespace EntityGraph.Text

def isBlank (c : Char) : Bool :=
  let n := c.toNat
  (9 ≤ n && n ≤ 13) || n == 0x20 || n == 0x85 || n == 0xA0 || n == 0x1680 ||
    (0x2000 ≤ n && n ≤ 0x200A) || n == 0x2028 || n == 0x2029 || n == 0x202F ||
    n == 0x205F || n == 0x3000

def stripList (p : Char → Bool) (cs : List Char) : List Char :=
  ((cs.dropWhile p).reverse.dropWhile p).reverse

def strip (p : Char → Bool) (s : String) : String :=
  String.ofList (stripList p s.toList)

def trim (s : String) : String :=
  strip isBlank s

def isAllBlank (s : String) : Bool :=
  s.toList.all isBlank

def lowerAscii (s : String) : String :=
  String.ofList (s.toList.map Char.toLower)

def cutFirst (c : Char) : List Char → Option (List Char × List Char)
  | [] => none
  | x :: xs => if x = c then some ([], xs) else (cutFirst c xs).map fun p => (x :: p.1, p.2)

def cutLast (c : Char) (cs : List Char) : Option (List Char × List Char) :=
  (cutFirst c cs.reverse).map fun p => (p.2.reverse, p.1.reverse)

def split (c : Char) (s : String) : List String :=
  (s.toList.splitOn c).map String.ofList

def isNumeral (cs : List Char) : Bool :=
  !cs.isEmpty && cs.all Char.isDigit

def digitsValue (cs : List Char) : Nat :=
  cs.foldl (fun n c => 10 * n + (c.toNat - '0'.toNat)) 0

def signed : List Char → Bool × List Char
  | '-' :: rest => (true, rest)
  | '+' :: rest => (false, rest)
  | cs => (false, cs)

def integer? (s : String) : Option Int :=
  let (negative, ds) := signed s.toList
  if isNumeral ds then some (if negative then -(digitsValue ds : Int) else digitsValue ds) else none

/-- A natural number below a bound. A plus sign may lead, a minus sign may not. -/
def natural? (bound : Nat) (s : String) : Option Nat :=
  let (negative, ds) := signed s.toList
  if isNumeral ds ∧ ¬negative ∧ digitsValue ds < bound then some (digitsValue ds) else none

def exponent? : List Char → Option Int
  | [] => some 0
  | e :: rest =>
      let (negative, ds) := signed rest
      if (e = 'e' ∨ e = 'E') ∧ isNumeral ds then
        some (if negative then -(digitsValue ds : Int) else digitsValue ds)
      else none

/-- The binary number nearest to a decimal. Digits may be missing on one side of the point; names
of infinities and of no number are refused. -/
def double? (s : String) : Option Double :=
  let (negative, body) := signed s.toList
  let whole := body.takeWhile Char.isDigit
  let rest := body.dropWhile Char.isDigit
  let (fraction, rest) := match rest with
    | '.' :: more => (more.takeWhile Char.isDigit, more.dropWhile Char.isDigit)
    | rest => ([], rest)
  if isNumeral (whole ++ fraction) then
    (exponent? rest).bind fun e =>
      Double.ofDecimal? negative (digitsValue (whole ++ fraction)) (e - fraction.length)
  else none

/-- For each suffix of the text, the text itself first and the empty one last: whether the pattern
matches the whole of it. A percent sign stands for any run of characters and a low line for one. -/
def likeSuffixes (text : List Char) : List Char → List Bool
  | [] => text.map (fun _ => false) ++ [true]
  | '%' :: rest =>
      (likeSuffixes text rest).foldr (fun b later => (b || later.headD false) :: later) []
  | '_' :: rest => (likeSuffixes text rest).drop 1 ++ [false]
  | c :: rest =>
      List.zipWith (fun x b => x == c && b) text ((likeSuffixes text rest).drop 1) ++ [false]

def like (pattern text : String) : Bool :=
  (likeSuffixes text.toList pattern.toList).headD false

def isSign (c : Char) : Bool :=
  ['\\', '.', '+', '*', '?', '(', ')', '|', '[', ']', '\x7b', '\x7d', '^', '$', '#', '&', '-', '~'].contains c

def likePiece (c : Char) : List Char :=
  if c = '%' then ['.', '*'] else if c = '_' then ['.'] else if isSign c then ['\\', c] else [c]

/-- The regular expression that a pattern stands for. It spans the whole text, ends of lines included. -/
def likeExpression (pattern : String) : String :=
  String.ofList ("(?s)^".toList ++ pattern.toList.flatMap likePiece ++ ['$'])

def double (q : Char) : List Char → List Char
  | [] => []
  | c :: rest => if c = q then q :: q :: double q rest else c :: double q rest

def quoted (q : Char) (s : String) : List Char :=
  q :: double q s.toList ++ [q]

/-- The text of the quoted part that a list of characters begins with, and what follows it. A quote
ends it unless a second one follows at once. -/
def readDoubled (q : Char) : List Char → Option (List Char × List Char)
  | [] => none
  | c :: rest =>
      if c = q then
        match rest with
        | d :: more =>
            if d = q then (readDoubled q more).map fun p => (q :: p.1, p.2)
            else some ([], d :: more)
        | [] => some ([], [])
      else (readDoubled q rest).map fun p => (c :: p.1, p.2)

def readQuoted (q : Char) : List Char → Option (String × List Char)
  | c :: rest =>
      if c = q then (readDoubled q rest).map fun p => (String.ofList p.1, p.2) else none
  | [] => none

end EntityGraph.Text
