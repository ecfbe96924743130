import EntityGraph.Store.RecordKey

namespace EntityGraph

/-- The records of one model in the order of their keys, and the largest number that has been used
as an identity so far. -/
structure Table where
  rows : List (RecordKey × Json)
  sequence : Nat
  ascending : OrderedMap.Ascending rows

namespace Table

def empty : Table :=
  ⟨[], 0, .nil⟩

def get? (t : Table) (key : RecordKey) : Option Json :=
  OrderedMap.get? t.rows key

def records (t : Table) : List Json :=
  t.rows.map Prod.snd

/-- The largest number used once a key is. -/
def reach (n : Nat) : RecordKey → Nat
  | .int i => max n i.toNat
  | .text _ => n

def put (t : Table) (key : RecordKey) (record : Json) : Table :=
  ⟨OrderedMap.insert t.rows key record, reach t.sequence key, t.ascending.insert key record⟩

def erase (t : Table) (key : RecordKey) : Table :=
  ⟨OrderedMap.erase t.rows key, t.sequence, t.ascending.erase key⟩

def advance (t : Table) : Table :=
  { t with sequence := t.sequence + 1 }

end Table

/-- The tables of a store by path; where none has been written the table is empty. -/
structure Tables where
  entries : List (String × Table)

namespace Tables

def empty : Tables :=
  ⟨[]⟩

def table (ts : Tables) (path : String) : Table :=
  (OrderedMap.get? ts.entries path).getD .empty

def set (ts : Tables) (path : String) (t : Table) : Tables :=
  ⟨OrderedMap.insert ts.entries path t⟩

def records (ts : Tables) (path : String) : List Json :=
  (ts.table path).records

def find? (ts : Tables) (path : String) (id : Json) : Option Json :=
  (RecordKey.of? id).bind (ts.table path).get?

@[simp]
theorem table_set_self (ts : Tables) (path : String) (t : Table) :
    (ts.set path t).table path = t := by
  simp [table, set]

theorem table_set_of_ne (ts : Tables) {path other : String} (h : path ≠ other) (t : Table) :
    (ts.set path t).table other = ts.table other := by
  simp [table, set, OrderedMap.get?_insert_of_ne _ h]

end Tables

end EntityGraph
