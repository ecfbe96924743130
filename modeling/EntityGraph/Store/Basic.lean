import EntityGraph.Store.Transaction

namespace EntityGraph

/-- Committed tables. While there is an outage no unit of work can begin. -/
structure Store where
  tables : Tables
  outage : Option Error

namespace Store

def empty : Store :=
  ⟨.empty, none⟩

def failing (e : Error) : Store :=
  ⟨.empty, some e⟩

def ping (s : Store) : Except Error Unit :=
  match s.outage with
  | some e => .error e
  | none => .ok ()

/-- Run a transaction on the tables of the store. What it has not committed when it ends is undone. -/
def transact {α : Type} (s : Store) (t : Transaction α) : Except Error α × Store :=
  match s.outage with
  | some e => (.error e, s)
  | none =>
      match t.run (.begin s.tables) with
      | (result, session) => (result, ⟨session.close, none⟩)

def run {α : Type} (s : Store) (plan : Except Error (Transaction α)) : Except Error α × Store :=
  match plan with
  | .error e => (.error e, s)
  | .ok t => s.transact t

end Store

end EntityGraph
