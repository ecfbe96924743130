import EntityGraph.Calendar.Date
import EntityGraph.Text

namespace EntityGraph.Calendar

open Text (isBlank digitsValue)

/-- A piece of a date text. Loose numbers may have blanks in front and fewer digits than their
width; fixed ones have exactly their width. -/
inductive Part
  | year
  | month
  | day
  | hour
  | minute
  | second
  | fixedYear
  | fixedMonth
  | fixedDay
  | fixedHour
  | fixedMinute
  | fixedSecond
  | mark (c : Char)
  | blanks
  | separator
  | fraction
  | offset
  | zone
  deriving DecidableEq

/-- What the parts read so far say. The offset is in seconds ahead of UTC. -/
structure Reading where
  year : Int
  month : Nat
  day : Nat
  hour : Nat
  minute : Nat
  second : Nat
  nano : Nat
  ahead : Int

def Reading.empty : Reading :=
  ⟨0, 0, 0, 0, 0, 0, 0, 0⟩

def loose? (width : Nat) (cs : List Char) : Option (Nat × List Char) :=
  let ds := (cs.take width).takeWhile Char.isDigit
  if ds.isEmpty then none else some (digitsValue ds, cs.drop ds.length)

def fixed? (width : Nat) (cs : List Char) : Option (Nat × List Char) :=
  let ds := cs.take width
  if ds.length = width ∧ ds.all Char.isDigit then some (digitsValue ds, cs.drop width) else none

def year? : List Char → Option (Int × List Char)
  | '-' :: rest => (loose? rest.length rest).map fun (n, tail) => (-(n : Int), tail)
  | '+' :: rest => (loose? rest.length rest).map fun (n, tail) => ((n : Int), tail)
  | cs => (loose? 4 cs).map fun (n, tail) => ((n : Int), tail)

/-- Nanoseconds after a point, if there is one; digits after the ninth are dropped. -/
def fraction? : List Char → Option (Nat × List Char)
  | '.' :: rest =>
      let ds := rest.takeWhile Char.isDigit
      let kept := ds.take 9
      if ds.isEmpty then none
      else some (digitsValue kept * Nat.pow 10 (9 - kept.length), rest.dropWhile Char.isDigit)
  | cs => some (0, cs)

def sign? (c : Char) : Option Bool :=
  if c = '+' then some false else if c = '-' ∨ c = '\u2212' then some true else none

def offset? (divide : List Char → Option (List Char)) : List Char → Option (Int × List Char)
  | [] => none
  | c :: rest => do
      let negative ← sign? c
      let (hours, rest) ← fixed? 2 rest
      let rest ← divide rest
      let (minutes, rest) ← fixed? 2 rest
      if 59 < minutes then none
      let ahead : Int := hours * 3600 + minutes * 60
      some (if negative then -ahead else ahead, rest)

def offsetInDay? (divide : List Char → Option (List Char)) (cs : List Char) :
    Option (Int × List Char) :=
  (offset? divide cs).bind fun (ahead, rest) =>
    if ahead.natAbs < 86400 then some (ahead, rest) else none

def colon? : List Char → Option (List Char)
  | ':' :: rest => some rest
  | _ => none

def Part.read (r : Reading) (cs : List Char) : Part → Option (Reading × List Char)
  | .year => (year? (cs.dropWhile isBlank)).map fun (n, t) => ({ r with year := n }, t)
  | .month => (loose? 2 (cs.dropWhile isBlank)).map fun (n, t) => ({ r with month := n }, t)
  | .day => (loose? 2 (cs.dropWhile isBlank)).map fun (n, t) => ({ r with day := n }, t)
  | .hour => (loose? 2 (cs.dropWhile isBlank)).map fun (n, t) => ({ r with hour := n }, t)
  | .minute => (loose? 2 (cs.dropWhile isBlank)).map fun (n, t) => ({ r with minute := n }, t)
  | .second => (loose? 2 (cs.dropWhile isBlank)).map fun (n, t) => ({ r with second := n }, t)
  | .fixedYear => (fixed? 4 cs).map fun (n, t) => ({ r with year := n }, t)
  | .fixedMonth => (fixed? 2 cs).map fun (n, t) => ({ r with month := n }, t)
  | .fixedDay => (fixed? 2 cs).map fun (n, t) => ({ r with day := n }, t)
  | .fixedHour => (fixed? 2 cs).map fun (n, t) => ({ r with hour := n }, t)
  | .fixedMinute => (fixed? 2 cs).map fun (n, t) => ({ r with minute := n }, t)
  | .fixedSecond => (fixed? 2 cs).map fun (n, t) => ({ r with second := n }, t)
  | .mark c => match cs with
    | x :: rest => if x = c then some (r, rest) else none
    | [] => none
  | .blanks => some (r, cs.dropWhile isBlank)
  | .separator => match cs with
    | x :: rest => if x = 'T' ∨ x = 't' ∨ x = ' ' then some (r, rest) else none
    | [] => none
  | .fraction => (fraction? cs).map fun (n, t) => ({ r with nano := n }, t)
  | .offset =>
      (offsetInDay? (fun cs => some (cs.dropWhile fun c => c == ':' || isBlank c))
        (cs.dropWhile isBlank)).map fun (n, t) => ({ r with ahead := n }, t)
  | .zone => match cs with
    | 'Z' :: rest | 'z' :: rest => some ({ r with ahead := 0 }, rest)
    | cs => (offsetInDay? colon? cs).map fun (n, t) => ({ r with ahead := n }, t)

def readParts (parts : List Part) (r : Reading) (cs : List Char) : Option Reading :=
  match parts with
  | [] => if cs.isEmpty then some r else none
  | p :: rest => (p.read r cs).bind fun (r, cs) => readParts rest r cs

def Reading.date? (r : Reading) : Option Date :=
  Date.of? r.year r.month r.day

def Reading.dateTime? (r : Reading) : Option DateTime := do
  let date ← r.date?
  let here ← DateTime.of? date r.hour r.minute r.second r.nano
  here.toUtc? r.ahead

def clock : List Part :=
  [.hour, .mark ':', .minute, .mark ':', .second]

def isoDay : List Part :=
  [.year, .mark '-', .month, .mark '-', .day]

def dateLayouts : List (List Part) :=
  [isoDay,
    [.year, .mark '/', .month, .mark '/', .day],
    [.day, .mark '-', .month, .mark '-', .year],
    [.day, .mark '/', .month, .mark '/', .year]]

def dateTimeLayouts : List (List Part) :=
  [isoDay ++ .blanks :: clock,
    isoDay ++ .mark 'T' :: clock,
    isoDay ++ .mark 'T' :: clock ++ [.fraction],
    isoDay ++ .blanks :: clock ++ [.fraction],
    isoDay ++ .mark 'T' :: clock ++ [.fraction, .offset],
    [.fixedYear, .mark '-', .fixedMonth, .mark '-', .fixedDay, .separator, .fixedHour, .mark ':',
      .fixedMinute, .mark ':', .fixedSecond, .fraction, .zone]]

def dateOf? (s : String) : Option Date :=
  dateLayouts.findSome? fun layout => (readParts layout .empty s.toList).bind Reading.date?

def dateTimeOf? (s : String) : Option DateTime :=
  dateTimeLayouts.findSome? fun layout =>
    (readParts layout .empty s.toList).bind Reading.dateTime?

def padded (width n : Nat) : List Char :=
  let ds := Nat.toDigits 10 n
  List.replicate (width - ds.length) '0' ++ ds

/-- Years have four digits; outside of 0 to 9999 they have a sign. -/
def writeYear (year : Int) : List Char :=
  if 0 ≤ year ∧ year ≤ 9999 then padded 4 year.toNat
  else (if year < 0 then '-' else '+') :: padded 4 year.natAbs

def writeDate (d : Date) : List Char :=
  writeYear d.year ++ '-' :: padded 2 d.month ++ '-' :: padded 2 d.day

def writeDateTime (t : DateTime) : List Char :=
  let second := t.second % 60 + t.nano / 1000000000
  let fraction := if t.nano = 0 then [] else '.' :: padded 3 (t.nano % 1000000000 / 1000000)
  writeDate t.date ++ 'T' :: padded 2 (t.second / 3600) ++ ':' :: padded 2 (t.second / 60 % 60) ++
    ':' :: padded 2 second ++ fraction

end EntityGraph.Calendar
