import EntityGraph.Double.Shortest
import EntityGraph.Json.Labelled

namespace EntityGraph

inductive Violation
  | missing
  | blank
  | noEmail
  | noUuid
  | tooLong (most : Nat)
  | tooShort (least : Nat)
  | unusablePattern
  | mismatch
  | notAllowed (allowed : List Json)
  | tooSmall (least : Double)
  | tooLarge (most : Double)

namespace Violation

def namedValues : Nat := 5

def message (field : String) : Violation → String
  | missing => field ++ " is required"
  | blank => field ++ " must not be blank"
  | noEmail => field ++ " must be a valid email"
  | noUuid => field ++ " must be a valid UUID"
  | tooLong most => field ++ " must be at most " ++ toString most ++ " characters"
  | tooShort least => field ++ " must be at least " ++ toString least ++ " characters"
  | unusablePattern => "invalid pattern for " ++ field
  | mismatch => field ++ " does not match required pattern"
  | notAllowed allowed =>
      field ++ " must be one of: " ++ Json.labelledList (allowed.take namedValues)
  | tooSmall least => field ++ " must be at least " ++ DecimalStyle.plain.write least
  | tooLarge most => field ++ " must be at most " ++ DecimalStyle.plain.write most

end Violation

end EntityGraph
