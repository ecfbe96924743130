import EntityGraph.Text

namespace EntityGraph.Uuid

def isHex (c : Char) : Bool :=
  ('0' ≤ c && c ≤ '9') || ('a' ≤ c && c ≤ 'f') || ('A' ≤ c && c ≤ 'F')

def hyphenate (digits : List Char) : List Char :=
  digits.take 8 ++ '-' :: (digits.drop 8).take 4 ++ '-' :: (digits.drop 12).take 4 ++
    '-' :: (digits.drop 16).take 4 ++ '-' :: digits.drop 20

def hyphenated? (cs : List Char) : Option (List Char) :=
  let digits := cs.filter (· != '-')
  if digits.length = 32 ∧ digits.all isHex ∧ hyphenate digits = cs then some digits else none

def urnPrefix : List Char :=
  "urn:uuid:".toList

/-- The digits of a UUID: plain, hyphenated, or hyphenated in braces or after the URN prefix. -/
def digits? (cs : List Char) : Option (List Char) :=
  if cs.length = 32 then
    if cs.all isHex then some cs else none
  else if cs.length = 38 then
    if cs.head? = some '\x7b' ∧ cs.getLast? = some '\x7d' then hyphenated? (cs.drop 1).dropLast
    else none
  else if cs.length = 45 then
    if (cs.take 9).map Char.toLower = urnPrefix then hyphenated? (cs.drop 9) else none
  else hyphenated? cs

def canonical? (s : String) : Option String :=
  (digits? s.toList).map fun ds => String.ofList (hyphenate (ds.map Char.toLower))

end EntityGraph.Uuid
