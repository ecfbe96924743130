import EntityGraph.Http.Encoding
import EntityGraph.Http.MediaType
import EntityGraph.Http.Query
import EntityGraph.Json.Document
import EntityGraph.Response
import EntityGraph.Service.Related
import EntityGraph.Service.Writing

namespace EntityGraph.Http

structure Request where
  method : String
  target : String
  contentType : Option String
  body : String

namespace Request

def location (r : Request) : List Char :=
  r.target.toList.takeWhile (· != '#')

def path (r : Request) : List Char :=
  r.location.takeWhile (· != '?')

def query (r : Request) : String :=
  String.ofList ((r.location.dropWhile (· != '?')).drop 1)

def parameters (r : Request) : Parameters :=
  .ofPairs (formPairs r.query)

end Request

def refusal (status : Nat) : Response :=
  ⟨status, none⟩

/-- The value in the body of a request, which must be said to be JSON. What follows the value does
not matter. -/
def jsonBody (r : Request) : Except Response Json :=
  if ((r.contentType.bind MediaType.ofText?).map MediaType.isJson).getD false then
    match (Json.Document.firstOf? r.body).bind fun d =>
        if d.depth < Json.nestingLimit then d.toJson? else none with
    | some v => .ok v
    | none => .error (refusal 400)
  else .error (refusal 415)

inductive Route
  | health
  | ready
  | about
  | model (path : String)
  | entity (path id : String)
  | relation (path id relation : String)
  | related (path id relation relatedId : String)

def entityRoot : List Char := "/api/".toList

def aboutRoute? : String → Option Route
  | "/health" => some .health
  | "/ready" => some .ready
  | "/version" => some .about
  | "/info" => some .about
  | _ => none

def segments? (path : List Char) : Option (List (List Char)) :=
  if entityRoot.isPrefixOf path then
    let segments := (path.drop entityRoot.length).splitOn '/'
    if (segments.getLast?.getD []).isEmpty then none else some segments
  else none

def segmentText (segment : List Char) : Except Response String :=
  match text? (percentDecode (bytesOf segment)) with
  | some s => .ok s
  | none => .error (refusal 400)

inductive Shape
  | page (r : Route)
  | model
  | entity
  | relation
  | related

namespace Shape

def methods : Shape → List String
  | page _ => ["GET", "HEAD"]
  | model => ["GET", "HEAD", "POST"]
  | entity => ["GET", "HEAD", "PUT", "PATCH", "DELETE"]
  | relation => ["GET", "HEAD", "POST"]
  | related => ["DELETE"]

def ofSegments? {α : Type} : List α → Option Shape
  | [_] => some model
  | [_, _] => some entity
  | [_, _, _] => some relation
  | [_, _, _, _] => some related
  | _ => none

end Shape

/-- The route of a path: its shape, and its segments as texts. A page about the service itself that
needs a store is there only if the service has one. -/
def shape? (withStore : Bool) (path : List Char) : Option Shape :=
  match aboutRoute? (String.ofList path) with
  | some .ready => if withStore then some (.page .ready) else none
  | some r => some (.page r)
  | none => if withStore then (segments? path).bind Shape.ofSegments? else none

def route (shape : Shape) (path : List Char) : Except Response Route := do
  match shape, ← ((segments? path).getD []).mapM segmentText with
  | .page r, _ => return r
  | .model, [m] => return .model m
  | .entity, [m, id] => return .entity m id
  | .relation, [m, id, r] => return .relation m id r
  | .related, [m, id, r, other] => return .related m id r other
  | _, _ => throw (refusal 404)

def answer {α : Type} (store : Store) (f : α → Response)
    (plan : Except Error (Transaction α)) : Response × Store :=
  let (result, store) := store.run plan
  (.ofExcept f result, store)

def about : Json :=
  .ofPairs [("name", .str "restmodel-sdk"), ("version", .str "0.1.0")]

def readiness (store : Store) : Response :=
  match store.ping with
  | .ok () => ⟨200, some (.ofPairs [("status", .str "ok"), ("storage", .str "ok")])⟩
  | .error _ =>
      ⟨503, some (.ofPairs [("status", .str "degraded"), ("storage", .str "unavailable")])⟩

def search (s : Service) (path : String) (ps : Parameters) : Except Error (Transaction Listing) := do
  let request ← pageRequest ps s.settings.pageSize
  let spec ← filterSpec ps
  s.list path request spec

def withBody (r : Request) (store : Store) (f : Json → Response × Store) : Response × Store :=
  match jsonBody r with
  | .ok v => f v
  | .error refused => (refused, store)

def handle (s : Service) (store : Store) (r : Request) : Route → Response × Store
  | .health => (⟨200, some (.ofPairs [("status", .str "ok")])⟩, store)
  | .ready => (readiness store, store)
  | .about => (⟨200, some about⟩, store)
  | .model path =>
      if r.method = "POST" then
        withBody r store fun body =>
          answer store .created ((EntityInput.ofJson body).bind (s.create path))
      else answer store .listing (search s path r.parameters)
  | .entity path id =>
      if r.method = "DELETE" then
        answer store (fun _ => .noContent) (s.delete path (.str id))
      else if r.method = "PUT" ∨ r.method = "PATCH" then
        withBody r store fun body =>
          answer store .ok ((EntityInput.ofJson body).bind (s.update path (.str id)))
      else answer store .ok (s.get path (.str id))
  | .relation path id relation =>
      if r.method = "POST" then
        withBody r store fun body =>
          answer store .ok (s.addRelated path (.str id) relation body)
      else answer store .ok (s.getRelated path (.str id) relation)
  | .related path id relation other =>
      answer store .ok (s.removeRelated path (.str id) relation (.str other))

/-- Answer a request. Without a store only the pages about the service are served; an answer to
`HEAD` has no body. -/
def respond (s : Service) (withStore : Bool) (store : Store) (r : Request) : Response × Store :=
  match shape? withStore r.path with
  | none => (refusal 404, store)
  | some shape =>
      if r.method ∈ shape.methods then
        match route shape r.path with
        | .error refused => (refused, store)
        | .ok route =>
            let (response, store) := handle s store r route
            (if r.method = "HEAD" then { response with body := none } else response, store)
      else (refusal 405, store)

end EntityGraph.Http
