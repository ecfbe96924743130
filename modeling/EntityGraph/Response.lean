import EntityGraph.Service.Listing

namespace EntityGraph

structure Response where
  status : Nat
  body : Option Json

namespace Response

def data (v : Json) : Json :=
  .ofPairs [("data", v)]

def ok (v : Json) : Response :=
  ⟨200, some (data v)⟩

def created (v : Json) : Response :=
  ⟨201, some (data v)⟩

def noContent : Response :=
  ⟨204, none⟩

/-- What is said about a list of entities beside the entities themselves. -/
def listingMeta : Listing → Json
  | .all items => .ofPairs [("count", .ofNat items.length)]
  | .page p => .ofPairs
      [("count", .ofNat p.content.length), ("page", .ofNat p.number), ("size", .ofNat p.size),
        ("totalElements", .ofNat p.totalElements), ("totalPages", .ofNat p.totalPages)]

def listing (l : Listing) : Response :=
  let items := match l with
    | .all items => items
    | .page p => p.content
  ⟨200, some (.ofPairs [("data", .arr items), ("meta", listingMeta l)])⟩

def errorBody (code message : String) (details : Option Json) : Json :=
  .ofPairs [("error", .ofPairs ([("code", .str code), ("message", .str message)] ++
    (details.map fun d => ("details", d)).toList))]

def details? : Error → Option Json
  | .validationFailed _ errors => some (.ofPairs (errors.map fun p => (p.1, .str p.2)))
  | _ => none

def ofError (e : Error) : Response :=
  ⟨e.status, some (errorBody e.code e.message (details? e))⟩

def ofExcept {α : Type} (f : α → Response) : Except Error α → Response
  | .ok a => f a
  | .error e => ofError e

end Response

end EntityGraph
