import EntityGraph.Json.Document

namespace EntityGraph.Json

inductive Form (δ : Type)
  | text (s : Option String)
  | list (items : List δ)
  | record (members : List (Option String × δ))
  | other

/-- A way to look at data: its form, and the value that it stands for if there is one. -/
structure Reader (δ : Type) where
  form : δ → Form δ
  value? : δ → Option Json

namespace Reader

def ofValues : Reader Json where
  form
    | .str s => .text (some s)
    | .arr items => .list items
    | .obj members => .record (members.map fun p => (some p.1, p.2))
    | _ => .other
  value? := some

def ofDocuments (depth : Nat) : Reader Document where
  form
    | .string s => .text s
    | .array items => .list items
    | .object members => .record members
    | _ => .other
  value? d := if d.depth ≤ depth then d.toJson? else none

variable {δ : Type} (r : Reader δ)

def string? (d : δ) : Option String :=
  match r.form d with
  | .text s => s
  | _ => none

def list? {α : Type} (read : δ → Option α) (d : δ) : Option (List α) :=
  match r.form d with
  | .list items => items.mapM read
  | _ => none

def present? (d : δ) : Option (Option Json) :=
  (r.value? d).map fun v => if v.isNull then none else some v

/-- The known members of a record, or the list of its fields in their order. A field has one or
several names, the first one being its own; a member that is known must not be repeated, under
another of its names either, and one that is not known is skipped without a look at its value. -/
def record? (fields : List (List String)) (d : δ) : Option (List (String × δ)) :=
  let own (k : String) : Option String :=
    (fields.find? fun names => names.contains k).bind List.head?
  match r.form d with
  | .record members => do
      let keyed ← members.mapM fun (k, d) => k.map fun k => (k, d)
      let known := keyed.filterMap fun (k, d) => (own k).map fun k => (k, d)
      if (known.map Prod.fst).Nodup then some known else none
  | .list items =>
      if items.length ≤ fields.length then some ((fields.filterMap List.head?).zip items) else none
  | _ => none

end Reader

def member? {δ α : Type} (record : List (String × δ)) (name : String) (absent : Option α)
    (read : δ → Option α) : Option α :=
  match OrderedMap.get? record name with
  | some d => read d
  | none => absent

end EntityGraph.Json
