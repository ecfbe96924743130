import EntityGraph.Query.Predicate
import EntityGraph.Sql.Token

namespace EntityGraph.Sql

open Token

def table (schema path : String) : List Token :=
  [.name schema, plain ".", .name path]

def idColumn (t : Nat) : List Token :=
  [.alias t, plain ".", .name "id"]

def payload (t : Nat) : List Token :=
  [.alias t, plain ".", .name "payload"]

def payloadText (t : Nat) (field : String) : List Token :=
  parens (payload t ++ [plain " ->> ", .literal field])

def payloadValue (t : Nat) (field : String) (type : FieldType) : List Token :=
  match castOf? type with
  | some cast => parens (payloadText t field ++ [plain ("::" ++ cast)])
  | none => payloadText t field

/-- What connects the records of a hop: the reference is in one of them, to the other. -/
def join (parent child : Nat) (hop : Hop) : List Token :=
  let slot (holder : Nat) (field : String) (referenced : Nat) (many : Bool) : List Token :=
    payload holder ++ [plain " -> ", .literal field] ++
      (if many then plain " @> jsonb_build_array" :: parens (idColumn referenced)
       else plain " = to_jsonb" :: parens (idColumn referenced))
  match hop.link with
  | .owned many => slot parent hop.relation child many
  | .mapped owner many => slot child owner parent many

/-- A condition on the record at the end of some hops. The tables of the hops have the numbers from
`next` on. -/
def within (schema : String) (next parent : Nat) (condition : Nat → List Token) :
    List Hop → List Token
  | [] => condition parent
  | hop :: rest =>
      plain "EXISTS " :: parens
        (plain "SELECT 1 FROM " :: table schema hop.target ++
          [plain " ", .alias next, plain " WHERE "] ++ join parent next hop ++
          plain " AND " :: within schema (next + 1) next condition rest)

def endText (path : AccessPath) (t : Nat) : List Token :=
  if path.isIdentity then idColumn t ++ [plain "::text"] else payloadText t path.field

def endValue (path : AccessPath) (t : Nat) : List Token :=
  if path.isIdentity then idColumn t else payloadValue t path.field path.type

/-- Whether a value has the form of a type already. Other values are equal to nothing of the
type. -/
def bindable (v : Json) (type : FieldType) : Bool :=
  !v.isNull && ((coerce type v).toOption.map (· == v)).getD false

def typedParam (v : Json) (type : FieldType) : List Token :=
  .param (.ofJson v) :: ((castOf? type).map fun cast => plain ("::" ++ cast)).toList

def comparisonSign : Comparison → String
  | .eq => " = "
  | .neq => " <> "
  | .gt => " > "
  | .gte => " >= "
  | .lt => " < "
  | .lte => " <= "

def falsity : List Token :=
  [plain "FALSE"]

def hopCount : Predicate → Nat
  | .compare path _ _ | .isNull path | .isNotNull path | .like path _ | .among path _
  | .between path _ _ => path.hops.length
  | .and parts | .or parts => hopCounts parts
  | .never => 0
termination_by structural p => p
where
  hopCounts : List Predicate → Nat
    | [] => 0
    | p :: rest => hopCount p + hopCounts rest
  termination_by structural ps => ps

mutual

/-- The condition of a predicate on table zero, its other tables having the numbers from `next`
on. -/
def condition (schema : String) (next : Nat) : Predicate → List Token
  | .compare path op value =>
      within schema next 0 (fun t =>
        if bindable value path.type then
          endValue path t ++ plain (comparisonSign op) :: typedParam value path.type
        else falsity) path.hops
  | .isNull path => within schema next 0 (fun t => endText path t ++ [plain " IS NULL"]) path.hops
  | .isNotNull path =>
      within schema next 0 (fun t => endText path t ++ [plain " IS NOT NULL"]) path.hops
  | .like path pattern =>
      within schema next 0 (fun t => endText path t ++ [plain " LIKE ", .param (.text pattern)])
        path.hops
  | .among path values =>
      let usable := values.filter (bindable · path.type)
      within schema next 0 (fun t =>
        if usable.isEmpty then falsity
        else
          endValue path t ++ plain " IN " ::
            parens (joined ", " (usable.map (typedParam · path.type)))) path.hops
  | .between path low high =>
      within schema next 0 (fun t =>
        if bindable low path.type && bindable high path.type then
          endValue path t ++ plain " BETWEEN " :: typedParam low path.type ++
            plain " AND " :: typedParam high path.type
        else falsity) path.hops
  | .and [] => [plain "TRUE"]
  | .and parts => parens (joined " AND " (conditions schema next parts))
  | .or [] => falsity
  | .or parts => parens (joined " OR " (conditions schema next parts))
  | .never => falsity
termination_by structural p => p

def conditions (schema : String) (next : Nat) : List Predicate → List (List Token)
  | [] => []
  | p :: rest => condition schema next p :: conditions schema (next + hopCount p) rest
termination_by structural ps => ps

end

end EntityGraph.Sql
