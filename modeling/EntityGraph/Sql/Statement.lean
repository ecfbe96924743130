import EntityGraph.Query.SortOrder
import EntityGraph.Sql.Condition

namespace EntityGraph.Sql

open Token

variable (schema : String) (m : Model)

def identityCast : String :=
  (castOf? m.identityType).getD "text"

def createSchema : Statement :=
  [plain "CREATE SCHEMA IF NOT EXISTS ", .name schema]

def identityColumn : List Token :=
  match m.identityType, m.identityGenerated with
  | .integer, true | .long, true => [plain "BIGINT GENERATED BY DEFAULT AS IDENTITY PRIMARY KEY"]
  | .integer, false | .long, false => [plain "BIGINT PRIMARY KEY"]
  | .uuid, _ => plain "UUID PRIMARY KEY DEFAULT gen_random_uuid" :: parens []
  | _, _ => [plain "TEXT PRIMARY KEY"]

def createTable : Statement :=
  plain "CREATE TABLE IF NOT EXISTS " :: table schema m.path ++ plain " " :: parens
    (.name "id" :: plain " " :: identityColumn m ++
      [plain ", ", .name "payload", plain " JSONB NOT NULL DEFAULT ", .literal "\x7b\x7d",
        plain "::jsonb, ", .name "updated_at", plain " TIMESTAMPTZ NOT NULL DEFAULT NOW"] ++
      parens [])

def createPayloadIndex : Statement :=
  [plain "CREATE INDEX IF NOT EXISTS ", .name (m.path ++ "_payload_gin"), plain " ON "] ++
    table schema m.path ++ plain " USING GIN " :: parens [.name "payload"]

/-- Move the sequence of generated numbers past all identities that are there. -/
def syncSequence : Option Statement :=
  if m.identityGenerated ∧ m.identityType.isIntegral then
    some (plain "SELECT setval" :: parens
      (plain "pg_get_serial_sequence" ::
        parens [.literal (Statement.text (table schema m.path)), plain ", ", .literal "id"] ++
        plain ", GREATEST" :: parens
          (parens (plain "SELECT MAX" :: parens [.name "id"] ++
            plain " FROM " :: table schema m.path) ++ [plain ", 1"])))
  else none

def selected : List Token :=
  plain "to_jsonb" :: parens (idColumn 0) ++ [plain " AS ", .name "id", plain ", "] ++
    payload 0 ++ [plain " AS ", .name "payload"]

def returned : List Token :=
  plain "to_jsonb" :: parens [.name "id"] ++
    [plain " AS ", .name "id", plain ", ", .name "payload"]

def typedIdentity (id : Json) : List Token :=
  [.param (.ofJson id), plain ("::" ++ identityCast m)]

def selectById (id : Json) : Statement :=
  plain "SELECT " :: selected ++ plain " FROM " :: table schema m.path ++
    [plain " ", .alias 0, plain " WHERE "] ++ idColumn 0 ++ plain " = " :: typedIdentity m id

def whereClause (predicate : Option Predicate) : List Token :=
  match predicate with
  | some p => plain " WHERE " :: condition schema 1 p
  | none => []

def directionWord : SortDirection → String
  | .asc => " ASC"
  | .desc => " DESC"

/-- The order of the answers; records that are equal in it are ordered by their identities. -/
def orderBy (sort : Option SortOrder) : List Token :=
  match sort with
  | none => idColumn 0 ++ [plain (directionWord .asc)]
  | some s =>
      if s.isIdentity then idColumn 0 ++ [plain (directionWord s.direction)]
      else
        payloadValue 0 s.field s.type ++ plain (directionWord s.direction) :: plain ", " ::
          idColumn 0 ++ [plain (directionWord .asc)]

def window (offset limit : Option Nat) : List Token :=
  (limit.map fun n => plain (" LIMIT " ++ toString n)).toList ++
    ((offset.filter (0 < ·)).map fun n => plain (" OFFSET " ++ toString n)).toList

def select (predicate : Option Predicate) (sort : Option SortOrder) (offset limit : Option Nat) :
    Statement :=
  plain "SELECT " :: selected ++ plain " FROM " :: table schema m.path ++
    [plain " ", .alias 0] ++ whereClause schema predicate ++ plain " ORDER BY " :: orderBy sort ++
    window offset limit

def count (predicate : Option Predicate) : Statement :=
  plain "SELECT COUNT" :: parens [plain "*"] ++ plain " FROM " :: table schema m.path ++
    [plain " ", .alias 0] ++ whereClause schema predicate

def insert (id : Option Json) (content : Json) : Statement :=
  let columns := (id.map fun _ => [Token.name "id", plain ", "]).getD []
  let values := (id.map fun id => typedIdentity m id ++ [plain ", "]).getD []
  plain "INSERT INTO " :: table schema m.path ++ plain " " ::
    parens (columns ++ [.name "payload"]) ++ plain " VALUES " ::
    parens (values ++ [.param (.json content)]) ++ plain " RETURNING " :: returned

def upsert (id content : Json) : Statement :=
  plain "INSERT INTO " :: table schema m.path ++ plain " " ::
    parens [.name "id", plain ", ", .name "payload"] ++ plain " VALUES " ::
    parens (typedIdentity m id ++ [plain ", ", .param (.json content)]) ++
    plain " ON CONFLICT " :: parens [.name "id"] ++
    [plain " DO UPDATE SET ", .name "payload", plain " = EXCLUDED.", .name "payload", plain ", ",
      .name "updated_at", plain " = NOW"] ++ parens [] ++ plain " RETURNING " :: returned

def delete (id : Json) : Statement :=
  plain "DELETE FROM " :: table schema m.path ++
    [plain " WHERE ", .name "id", plain " = "] ++ typedIdentity m id

end EntityGraph.Sql
