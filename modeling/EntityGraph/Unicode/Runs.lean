import EntityGraph.Text

namespace EntityGraph.Unicode

/-- A run of code points: the first one after it, and its label. -/
structure Run where
  stop : Nat
  label : String

abbrev Runs := List Run

namespace Runs

def add (runs : Runs) (word : String) : Runs :=
  let digits := word.toList.takeWhile Char.isDigit
  let length := if digits.isEmpty then 1 else Text.digitsValue digits
  let start := (runs.head?.map Run.stop).getD 0
  ⟨start + length, String.ofList (word.toList.dropWhile Char.isDigit)⟩ :: runs

def ofLines (lines : List String) : Runs :=
  ((lines.flatMap (Text.split ' ')).foldl add []).reverse

def label (runs : Runs) (c : Char) : String :=
  ((runs.find? fun r => c.toNat < r.stop).map Run.label).getD ""

end Runs

end EntityGraph.Unicode
