import EntityGraph.Sql.Statement

namespace EntityGraph

/-- The values that a condition on tables binds, in the order of the predicate. -/
def Predicate.boundValues : Predicate → List Sql.Value
  | .compare path _ v => if Sql.bindable v path.type then [.ofJson v] else []
  | .isNull _ | .isNotNull _ => []
  | .like _ pattern => [.text pattern]
  | .among path vs => (vs.filter (Sql.bindable · path.type)).map .ofJson
  | .between path low high =>
      if Sql.bindable low path.type && Sql.bindable high path.type then [.ofJson low, .ofJson high]
      else []
  | .and parts | .or parts => ofParts parts
  | .never => []
termination_by structural p => p
where
  ofParts : List Predicate → List Sql.Value
    | [] => []
    | p :: rest => boundValues p ++ ofParts rest
  termination_by structural ps => ps

namespace Sql

open Token

namespace Statement

variable {schema : String} {s t : Statement}

@[simp]
theorem params_nil : params [] = [] :=
  rfl

@[simp]
theorem params_append : params (s ++ t) = params s ++ params t :=
  List.filterMap_append

@[simp]
theorem params_cons (x : Token) : params (x :: s) = x.param?.toList ++ params s := by
  cases h : x.param? with
  | none => exact List.filterMap_cons_none h
  | some v => exact List.filterMap_cons_some h

@[simp]
theorem params_parens : params (parens s) = params s := by
  simp [parens, param?]

theorem params_joined (separator : String) (ss : List (List Token)) :
    params (joined separator ss) = ss.flatMap params := by
  induction ss with
  | nil => rfl
  | cons s rest ih =>
    cases rest with
    | nil => simp [joined]
    | cons t rest =>
      rw [joined, params_append, params_cons, ih, List.flatMap_cons]
      · rfl
      · exact fun h => nomatch h

@[simp]
theorem params_idColumn (n : Nat) : params (idColumn n) = [] :=
  rfl

@[simp]
theorem params_payload (n : Nat) : params (payload n) = [] :=
  rfl

@[simp]
theorem params_payloadText (n : Nat) (field : String) : params (payloadText n field) = [] :=
  rfl

@[simp]
theorem params_payloadValue (n : Nat) (field : String) (type : FieldType) :
    params (payloadValue n field type) = [] := by
  cases type <;> rfl

@[simp]
theorem params_table (path : String) : params (table schema path) = [] :=
  rfl

@[simp]
theorem params_join (parent child : Nat) (hop : Hop) : params (join parent child hop) = [] := by
  unfold join
  split <;> dsimp only <;> split <;> rfl

@[simp]
theorem params_endText (path : AccessPath) (n : Nat) : params (endText path n) = [] := by
  unfold endText
  split <;> rfl

@[simp]
theorem params_endValue (path : AccessPath) (n : Nat) : params (endValue path n) = [] := by
  unfold endValue
  split <;> simp

@[simp]
theorem params_typedParam (v : Json) (type : FieldType) :
    params (typedParam v type) = [.ofJson v] := by
  cases type <;> rfl

theorem flatMap_params_typedParam (type : FieldType) (vs : List Json) :
    (vs.map (typedParam · type)).flatMap params = vs.map .ofJson := by
  simp only [List.flatMap_map, params_typedParam]
  exact List.map_eq_flatMap.symm

theorem params_within {c : Nat → List Token} {vs : List Value} (h : ∀ n, params (c n) = vs)
    (hops : List Hop) (next parent : Nat) : params (within schema next parent c hops) = vs := by
  induction hops generalizing next parent with
  | nil => exact h parent
  | cons hop rest ih => simp [within, ih, param?]

mutual

/-- A condition binds the values of its predicate that can be bound, each once and in order. -/
theorem params_condition : ∀ (p : Predicate) (next : Nat),
    params (condition schema next p) = p.boundValues
  | .compare path op v, next => by
    refine params_within (fun n => ?_) path.hops next 0
    rw [Predicate.boundValues]
    split <;> simp [param?, falsity]
  | .isNull path, next =>
    params_within (fun n => by simp [param?, Predicate.boundValues]) path.hops next 0
  | .isNotNull path, next =>
    params_within (fun n => by simp [param?, Predicate.boundValues]) path.hops next 0
  | .like path pattern, next =>
    params_within (fun n => by simp [param?, Predicate.boundValues]) path.hops next 0
  | .among path vs, next => by
    refine params_within (fun n => ?_) path.hops next 0
    rw [Predicate.boundValues]
    split
    · next hempty => rw [List.isEmpty_iff.mp hempty]; rfl
    · simp [param?, params_joined, flatMap_params_typedParam]
  | .between path low high, next => by
    refine params_within (fun n => ?_) path.hops next 0
    rw [Predicate.boundValues]
    split <;> simp [param?, falsity]
  | .and [], _ => rfl
  | .and (p :: rest), next =>
    (params_parens.trans (params_joined _ _)).trans (params_conditions (p :: rest) next)
  | .or [], _ => rfl
  | .or (p :: rest), next =>
    (params_parens.trans (params_joined _ _)).trans (params_conditions (p :: rest) next)
  | .never, _ => rfl

theorem params_conditions : ∀ (ps : List Predicate) (next : Nat),
    (conditions schema next ps).flatMap params = Predicate.boundValues.ofParts ps
  | [], _ => rfl
  | p :: rest, next => by
    rw [conditions, List.flatMap_cons, params_condition p next, params_conditions rest]
    rfl

end

end Statement

section Queries

variable (schema : String) (m : Model)

/-- The values that a query binds for its condition, if it has one. -/
def boundBy (p : Option Predicate) : List Value :=
  p.elim [] Predicate.boundValues

@[simp]
theorem params_whereClause (p : Option Predicate) :
    Statement.params (whereClause schema p) = boundBy p := by
  cases p with
  | none => rfl
  | some p => exact Statement.params_condition p 1

@[simp]
theorem params_orderBy (sort : Option SortOrder) : Statement.params (orderBy sort) = [] := by
  unfold orderBy
  split
  · rfl
  · split
    · rfl
    · simp [param?]

@[simp]
theorem params_window (offset limit : Option Nat) : Statement.params (window offset limit) = [] := by
  unfold window
  cases limit <;> cases offset.filter (0 < ·) <;> rfl

@[simp]
theorem params_selected : Statement.params selected = [] :=
  rfl

@[simp]
theorem params_returned : Statement.params returned = [] :=
  rfl

theorem params_select (p : Option Predicate) (sort : Option SortOrder) (offset limit : Option Nat) :
    (select schema m p sort offset limit).params = boundBy p := by
  simp [select, param?]

theorem params_count (p : Option Predicate) :
    (count schema m p).params = boundBy p := by
  simp [count, param?]

end Queries

end Sql

end EntityGraph
