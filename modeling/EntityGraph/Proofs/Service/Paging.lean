import EntityGraph.Proofs.Query.Sorting
import EntityGraph.Proofs.Service.Run
import EntityGraph.Service.Listing
import Mathlib.Algebra.Order.Floor.Div
import Mathlib.GroupTheory.GroupAction.Ring

namespace EntityGraph

section Parts

variable {α : Type} {xs : List α} {size n : Nat}

end Parts

namespace Tables

variable {ts : Tables} {m : Model} {predicate : Option Predicate} {order : Option SortOrder}
  {rows found : List Json}

end Tables

namespace Service

open Registry

variable {s : Service} {ts : Tables} {store : Store} {m : Model} {path : String}
  {request : PageRequest} {spec : FilterSpec} {predicate : Option Predicate}
  {order : Option SortOrder} {all : List Json}

end Service

namespace Notebook

theorem nodup_paths : ([note].map fun m => barePath m.path).Nodup :=
  List.nodup_singleton _

def service : Service :=
  ⟨⟨[note], nodup_paths⟩, .standard, .none, fun _ => ""⟩

/-- Numbers and a few texts. -/
def jottings : List Json :=
  [.ofNat 3, .ofNat 1, .str "a", .ofNat 3, .ofNat 2, .str "a", .str "a", .ofNat 2, .str "a", .ofNat 2,
    .ofNat 1, .ofNat 2] ++ List.replicate 9 (.ofNat 3)

def writes : List Write :=
  jottings.map fun data => .create "notes" (.fields [("data", data)])

end Notebook

namespace Service

open Notebook

end Service

end EntityGraph
