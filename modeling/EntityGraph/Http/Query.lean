import EntityGraph.Filter.Document
import EntityGraph.Filter.Parameters
import EntityGraph.Service.Listing

namespace EntityGraph.Http

def value? (ps : Parameters) (key : String) : Option String :=
  ((ps.first? key).map Text.trim).filter fun s => !s.isEmpty

def maxPageNumber : Nat := UInt32.size - 1

def pageNumber (s : String) : Except Error Int :=
  match (Text.integer? s).filter FieldType.long.holds with
  | some n => .ok n
  | none => .error (.badRequest (.pageNumber s))

def pageSize (s : String) : Except Error Nat :=
  match Text.natural? UInt32.size s with
  | some n => .ok n
  | none => .error (.badRequest (.pageSize s))

def sorting (ps : Parameters) : Option String × SortDirection :=
  match value? ps "sort" with
  | none => (none, .asc)
  | some sort =>
      let (field, direction) := match Text.cutFirst ',' sort.toList with
        | some (field, direction) =>
            (Text.trim (String.ofList field), some (String.ofList direction))
        | none => (sort, none)
      (some field, ((direction.or (value? ps "direction")).map SortDirection.ofText).getD .asc)

/-- The page that is asked for. Without a page and a size, or with a negative page, it is all. -/
def pageRequest (ps : Parameters) (standardSize : Nat) : Except Error PageRequest := do
  let page ← (value? ps "page").mapM pageNumber
  let size ← (value? ps "size").mapM pageSize
  let (sort, direction) := sorting ps
  let everything : Bool := match page, size with
    | some n, _ => n < 0
    | none, none => true
    | none, some _ => false
  if everything then return { PageRequest.unpaged with sort, direction }
  else
    let number := min (page.getD 0).toNat maxPageNumber
    return ⟨some number, size.getD standardSize, sort, direction⟩

def filterSpec (ps : Parameters) : Except Error FilterSpec :=
  match ps.first? "filter" with
  | some document => FilterSpec.ofText document
  | none => .ok (FilterSpec.ofParameters ps)

end EntityGraph.Http
