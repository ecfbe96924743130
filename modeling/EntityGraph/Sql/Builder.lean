import EntityGraph.Sql.Statement

namespace EntityGraph.Sql

/-- A statement in the making. A value gets the number of its placeholder when it is pushed, and a table
its name when a hop is opened; the text is put together from these afterwards. -/
structure QueryBuf where
  sql : String := ""
  params : List Value := []
  /-- The number of the next name of a table. -/
  aliases : Nat := 1

abbrev Building := StateM QueryBuf

namespace QueryBuf

def pushParam (v : Value) : Building Nat :=
  modifyGet fun q => (q.params.length + 1, { q with params := q.params ++ [v] })

def nextAlias : Building Nat :=
  modifyGet fun q => (q.aliases, { q with aliases := q.aliases + 1 })

def placeholder (n : Nat) : String :=
  "$" ++ toString n

def typedParam (v : Json) (type : FieldType) : Building String := do
  let n ← pushParam (.ofJson v)
  match castOf? type with
  | some cast => return placeholder n ++ "::" ++ cast
  | none => return placeholder n

def openHop (schema : String) : String × Nat → Hop → Building (String × Nat)
  | (before, parent), hop => do
      let child ← nextAlias
      return (before ++ "EXISTS (SELECT 1 FROM " ++ Statement.text (table schema hop.target) ++ " t" ++
        toString child ++ " WHERE " ++ Statement.text (join parent child hop) ++ " AND ", child)

def within (schema : String) (hops : List Hop) (condition : Nat → Building String) :
    Building String := do
  let (before, last) ← hops.foldlM (openHop schema) ("", 0)
  let inner ← condition last
  return before ++ inner ++ String.ofList (List.replicate hops.length ')')

def group (separator : String) (texts : List String) : String :=
  "(" ++ separator.intercalate texts ++ ")"

mutual

def predicate (schema : String) : Predicate → Building String
  | .compare path op value =>
      within schema path.hops fun t => do
        if bindable value path.type then
          let placeholder ← typedParam value path.type
          return Statement.text (endValue path t) ++ comparisonSign op ++ placeholder
        else return "FALSE"
  | .isNull path =>
      within schema path.hops fun t => return Statement.text (endText path t) ++ " IS NULL"
  | .isNotNull path =>
      within schema path.hops fun t => return Statement.text (endText path t) ++ " IS NOT NULL"
  | .like path pattern =>
      within schema path.hops fun t => do
        let n ← pushParam (.text pattern)
        return Statement.text (endText path t) ++ " LIKE " ++ placeholder n
  | .among path values =>
      within schema path.hops fun t => do
        let placeholders ← (values.filter (bindable · path.type)).mapM (typedParam · path.type)
        if placeholders.isEmpty then return "FALSE"
        else return Statement.text (endValue path t) ++ " IN " ++ group ", " placeholders
  | .between path low high =>
      within schema path.hops fun t => do
        if bindable low path.type && bindable high path.type then
          let low ← typedParam low path.type
          let high ← typedParam high path.type
          return Statement.text (endValue path t) ++ " BETWEEN " ++ low ++ " AND " ++ high
        else return "FALSE"
  | .and [] => return "TRUE"
  | .and parts => return group " AND " (← predicates schema parts)
  | .or [] => return "FALSE"
  | .or parts => return group " OR " (← predicates schema parts)
  | .never => return "FALSE"
termination_by structural p => p

def predicates (schema : String) : List Predicate → Building (List String)
  | [] => return []
  | p :: rest => do
      let first ← predicate schema p
      return first :: (← predicates schema rest)
termination_by structural ps => ps

end

def whereClause (schema : String) : Option Predicate → Building String
  | some p => return " WHERE " ++ (← predicate schema p)
  | none => return ""

def finish (b : Building String) : QueryBuf :=
  let (sql, q) := b.run {}
  { q with sql }

variable (schema : String) (m : Model)

def selectById (id : Json) : QueryBuf := finish do
  let n ← pushParam (.ofJson id)
  return "SELECT " ++ Statement.text selected ++ " FROM " ++ Statement.text (table schema m.path) ++
    " t0 WHERE t0.\"id\" = " ++ placeholder n ++ "::" ++ identityCast m

def select (p : Option Predicate) (sort : Option SortOrder) (offset limit : Option Nat) :
    QueryBuf := finish do
  let condition ← whereClause schema p
  return "SELECT " ++ Statement.text selected ++ " FROM " ++ Statement.text (table schema m.path) ++
    " t0" ++ condition ++ " ORDER BY " ++ Statement.text (orderBy sort) ++
    Statement.text (window offset limit)

def count (p : Option Predicate) : QueryBuf := finish do
  let condition ← whereClause schema p
  return "SELECT COUNT(*) FROM " ++ Statement.text (table schema m.path) ++ " t0" ++ condition

def insert (id : Option Json) (content : Json) : QueryBuf := finish do
  match id with
  | some id =>
      let n ← pushParam (.ofJson id)
      let c ← pushParam (.json content)
      return "INSERT INTO " ++ Statement.text (table schema m.path) ++
        " (\"id\", \"payload\") VALUES (" ++ placeholder n ++ "::" ++ identityCast m ++ ", " ++
        placeholder c ++ ") RETURNING " ++ Statement.text returned
  | none =>
      let c ← pushParam (.json content)
      return "INSERT INTO " ++ Statement.text (table schema m.path) ++
        " (\"payload\") VALUES (" ++ placeholder c ++ ") RETURNING " ++ Statement.text returned

def upsert (id content : Json) : QueryBuf := finish do
  let n ← pushParam (.ofJson id)
  let c ← pushParam (.json content)
  return "INSERT INTO " ++ Statement.text (table schema m.path) ++
    " (\"id\", \"payload\") VALUES (" ++ placeholder n ++ "::" ++ identityCast m ++ ", " ++
    placeholder c ++ ") ON CONFLICT (\"id\") DO UPDATE SET \"payload\" = EXCLUDED.\"payload\", " ++
    "\"updated_at\" = NOW() RETURNING " ++ Statement.text returned

def delete (id : Json) : QueryBuf := finish do
  let n ← pushParam (.ofJson id)
  return "DELETE FROM " ++ Statement.text (table schema m.path) ++ " WHERE \"id\" = " ++
    placeholder n ++ "::" ++ identityCast m

end QueryBuf

end EntityGraph.Sql
