import EntityGraph.Service.Basic

namespace EntityGraph

structure PageRequest where
  page : Option Nat
  size : Nat
  sort : Option String
  direction : SortDirection

def PageRequest.unpaged : PageRequest :=
  ⟨none, maxPageSize, none, .asc⟩

structure Page where
  content : List Json
  totalElements : Nat
  totalPages : Nat
  number : Nat
  size : Nat

inductive Listing
  | page (p : Page)
  | all (items : List Json)

def ceilDiv (n d : Nat) : Nat :=
  (n + d - 1) / d

namespace Service

variable (s : Service)

/-- The order that a request asks for. Only fields of the model itself can be sorted by. -/
def sortOrder (m : Model) (request : PageRequest) : Except Error (Option SortOrder) :=
  match (request.sort.map Text.trim).filter fun f => !f.isEmpty with
  | none => .ok none
  | some field =>
      match m.fieldType? field with
      | none => .error (.badRequest (.unsortable m.path field))
      | some type => .ok (some ⟨field, type, decide (field = m.identity), request.direction⟩)

def loadedAll (ts : Tables) (m : Model) (records : List Json) : Except Error (List Json) :=
  records.mapM (s.loaded ts m)

def listing (ts : Tables) (m : Model) (request : PageRequest) (predicate : Option Predicate)
    (order : Option SortOrder) : Except Error Listing :=
  match request.page with
  | none => do
      return .all (← s.loadedAll ts m (← ts.query m predicate order .all))
  | some number => do
      let size := clampPageSize request.size
      let total := ts.count m predicate
      let rows ← ts.query m predicate order ⟨number * size, some size⟩
      return .page ⟨← s.loadedAll ts m rows, total, ceilDiv total size, number, size⟩

/-- What there is to read for a listing. -/
def survey (path : String) (request : PageRequest) (spec : FilterSpec) :
    Except Error (UnitOfWork Listing) := do
  let m ← s.registry.resolve path
  let predicate ← spec.compile s.registry m
  let order ← sortOrder m request
  return UnitOfWork.attempt fun ts => s.listing ts m request predicate order

def list (path : String) (request : PageRequest) (spec : FilterSpec) :
    Except Error (Transaction Listing) := do
  return (← s.survey path request spec).committed

def lookup (path : String) (id : Json) : Except Error (UnitOfWork Json) := do
  let m ← s.registry.resolve path
  let id ← m.coerceIdentity id
  return UnitOfWork.attempt fun ts => do s.loaded ts m (← existing ts m id)

def get (path : String) (id : Json) : Except Error (Transaction Json) := do
  return (← s.lookup path id).committed

end Service

end EntityGraph
