import EntityGraph.Proofs.Sql.Bound
import EntityGraph.Sql.Builder

namespace EntityGraph.Sql

namespace Token

variable {s t : List Token} {n : Nat}

def textFrom (n : Nat) (s : List Token) : String :=
  String.ofList (write n s)

def textsFrom (n : Nat) : List (List Token) → List String
  | [] => []
  | s :: rest => textFrom n s :: textsFrom (n + (Statement.params s).length) rest

theorem write_append (n : Nat) (s t : List Token) :
    write n (s ++ t) = write n s ++ write (n + (Statement.params s).length) t := by
  induction s generalizing n with
  | nil => rfl
  | cons x rest ih => cases x <;> simp [write, ih, param?, Nat.add_assoc, Nat.add_comm 1]

@[simp]
theorem toList_textFrom (n : Nat) (s : List Token) : (textFrom n s).toList = write n s :=
  String.toList_ofList

@[simp]
theorem textFrom_nil (n : Nat) : textFrom n [] = "" :=
  rfl

@[simp]
theorem textFrom_append (n : Nat) (s t : List Token) :
    textFrom n (s ++ t) = textFrom n s ++ textFrom (n + (Statement.params s).length) t := by
  rw [textFrom, write_append, String.ofList_append, textFrom, textFrom]

@[simp]
theorem textFrom_plain (n : Nat) (w : String) (s : List Token) :
    textFrom n (.plain w :: s) = w ++ textFrom n s := by
  rw [textFrom, write, String.ofList_append, String.ofList_toList, textFrom]

@[simp]
theorem textFrom_alias (n k : Nat) (s : List Token) :
    textFrom n (.alias k :: s) = "t" ++ toString k ++ textFrom n s := by
  apply String.toList_injective
  simp [textFrom, write]

@[simp]
theorem textFrom_param (n : Nat) (v : Value) (s : List Token) :
    textFrom n (.param v :: s) = QueryBuf.placeholder n ++ textFrom (n + 1) s := by
  apply String.toList_injective
  simp [textFrom, write, QueryBuf.placeholder]

@[simp]
theorem textFrom_parens (n : Nat) (s : List Token) : textFrom n (parens s) = "(" ++ textFrom n s ++ ")" := by
  have hopen : textFrom n (parens s) = "(" ++ textFrom n (s ++ [.closeParen]) := by
    apply String.toList_injective
    simp [textFrom, parens, write]
  rw [hopen, textFrom_append, String.append_assoc]
  rfl

theorem write_eq_text (n : Nat) (h : Statement.params s = []) : write n s = (Statement.text s).toList := by
  rw [Statement.text, String.toList_ofList]
  induction s with
  | nil => rfl
  | cons x rest ih =>
    rw [Statement.params_cons, List.append_eq_nil_iff] at h
    cases x with
    | param v => cases h.1
    | _ => simp only [write, ih h.2]

theorem textFrom_eq_text (h : Statement.params s = []) : textFrom n s = Statement.text s := by
  rw [textFrom, write_eq_text n h, String.ofList_toList]

theorem group_textsFrom (separator : String) (n : Nat) (ss : List (List Token)) :
    QueryBuf.group separator (textsFrom n ss) = "(" ++ textFrom n (joined separator ss) ++ ")" := by
  have hjoined : separator.intercalate (textsFrom n ss) = textFrom n (joined separator ss) := by
    induction ss generalizing n with
    | nil => rfl
    | cons s rest ih =>
      cases rest with
      | nil => rw [textsFrom, textsFrom, String.intercalate_singleton, joined]
      | cons t rest =>
        have hrest : textsFrom (n + (Statement.params s).length) (t :: rest) ≠ [] := List.cons_ne_nil _ _
        have hjoined : joined separator (s :: t :: rest) =
            s ++ .plain separator :: joined separator (t :: rest) := rfl
        rw [textsFrom, String.intercalate_cons_of_ne_nil hrest, ih, hjoined, textFrom_append, textFrom_plain,
          String.append_assoc]
  rw [QueryBuf.group, hjoined]

end Token

namespace QueryBuf

open Token

variable {schema : String} {q : QueryBuf}

def next (q : QueryBuf) : Nat :=
  q.params.length + 1

def extend (q : QueryBuf) (hops : Nat) (vs : List Value) : QueryBuf :=
  { q with params := q.params ++ vs, aliases := q.aliases + hops }

@[simp]
theorem next_extend (q : QueryBuf) (hops : Nat) (vs : List Value) : (q.extend hops vs).next = q.next + vs.length := by
  simp [next, extend, Nat.add_right_comm]

@[simp]
theorem aliases_extend (q : QueryBuf) (hops : Nat) (vs : List Value) :
    (q.extend hops vs).aliases = q.aliases + hops :=
  rfl

@[simp]
theorem extend_extend (q : QueryBuf) (m n : Nat) (vs ws : List Value) :
    (q.extend m vs).extend n ws = q.extend (m + n) (vs ++ ws) := by
  simp [extend, Nat.add_assoc]

@[simp]
theorem next_empty : next {} = 1 :=
  rfl

theorem extend_zero (q : QueryBuf) : q.extend 0 [] = q := by
  simp [extend]

section Steps

variable {α β : Type}

@[simp]
theorem pure_apply (a : α) (q : QueryBuf) : (pure a : Building α) q = (a, q) :=
  rfl

@[simp]
theorem bind_apply (x : Building α) (f : α → Building β) (q : QueryBuf) :
    (x >>= f) q = f (x q).1 (x q).2 :=
  rfl

@[simp]
theorem map_apply (f : α → β) (x : Building α) (q : QueryBuf) : (f <$> x) q = (f (x q).1, (x q).2) :=
  rfl

end Steps

@[simp]
theorem pushParam_eq (v : Value) (q : QueryBuf) : (pushParam v) q = (q.next, q.extend 0 [v]) :=
  rfl

@[simp]
theorem nextAlias_eq (q : QueryBuf) : nextAlias q = (q.aliases, q.extend 1 []) := by
  simp [nextAlias, extend]
  rfl

@[simp]
theorem typedParam_eq (v : Json) (type : FieldType) (q : QueryBuf) :
    (typedParam v type) q = (textFrom q.next (Sql.typedParam v type), q.extend 0 [.ofJson v]) := by
  unfold typedParam Sql.typedParam
  cases castOf? type <;> simp [String.append_assoc]

theorem mapM_typedParam_eq (type : FieldType) (vs : List Json) (q : QueryBuf) :
    (vs.mapM (typedParam · type)) q =
      (textsFrom q.next (vs.map (Sql.typedParam · type)), q.extend 0 (vs.map .ofJson)) := by
  induction vs generalizing q with
  | nil => simp [textsFrom, extend_zero]
  | cons v rest ih => simp [textsFrom, ih]

/-- The hops of a condition are opened one in another, with names that count on, and its closing parentheses
are as many. -/
theorem exists_opening (schema : String) (hops : List Hop) (parent : Nat) (q : QueryBuf) : ∃ opened last,
    (∀ before, (hops.foldlM (openHop schema) (before, parent)) q =
      ((before ++ opened, last), q.extend hops.length [])) ∧
      ∀ c n, textFrom n (Sql.within schema q.aliases parent c hops) =
        opened ++ textFrom n (c last) ++ String.ofList (List.replicate hops.length ')') := by
  induction hops generalizing parent q with
  | nil => exact ⟨"", parent, fun before => by simp [extend_zero], fun c n => by simp [Sql.within]⟩
  | cons hop rest ih =>
    obtain ⟨opened, last, hrun, htext⟩ := ih q.aliases (q.extend 1 [])
    refine ⟨"EXISTS (SELECT 1 FROM " ++ Statement.text (table schema hop.target) ++ " t" ++ toString q.aliases ++
      " WHERE " ++ Statement.text (join parent q.aliases hop) ++ " AND " ++ opened, last, fun before => ?_,
      fun c n => ?_⟩
    · simp [openHop, hrun, String.append_assoc, Nat.add_comm]
    · have hclose : List.replicate (hop :: rest).length ')' = List.replicate rest.length ')' ++ [')'] :=
        List.replicate_succ'
      have hsubquery : Sql.within schema q.aliases parent c (hop :: rest) = .plain "EXISTS " :: parens
        (.plain "SELECT 1 FROM " :: table schema hop.target ++ [.plain " ", .alias q.aliases, .plain " WHERE "] ++
          join parent q.aliases hop ++ .plain " AND " :: Sql.within schema (q.aliases + 1) q.aliases c rest) := rfl
      have hrest := htext c n
      rw [aliases_extend] at hrest
      apply String.toList_injective
      simp only [hclose]
      simp [hsubquery, hrest, textFrom_eq_text (Statement.params_table _),
        textFrom_eq_text (Statement.params_join _ _ _)]

theorem within_eq {condition : Nat → Building String} {c : Nat → List Token} {vs : List Value}
    (hcondition : ∀ t q, condition t q = (textFrom q.next (c t), q.extend 0 vs)) (hops : List Hop) (q : QueryBuf) :
    within schema hops condition q =
      (textFrom q.next (Sql.within schema q.aliases 0 c hops), q.extend hops.length vs) := by
  obtain ⟨opened, last, hrun, htext⟩ := exists_opening schema hops 0 q
  simp [within, hrun, hcondition, htext]

mutual

/-- A predicate is written as its condition, with the numbers that come next. -/
theorem predicate_eq : ∀ (p : Predicate) (q : QueryBuf), predicate schema p q =
    (textFrom q.next (condition schema q.aliases p), q.extend (hopCount p) p.boundValues)
  | .compare path op v, q => by
    rw [predicate, condition, hopCount, Predicate.boundValues]
    refine within_eq (fun t q => ?_) path.hops q
    split
    · simp [textFrom_eq_text, String.append_assoc]
    · simp [extend_zero, falsity]
  | .isNull path, q => by
    rw [predicate, condition, hopCount, Predicate.boundValues]
    exact within_eq (fun t q => by simp [extend_zero, textFrom_eq_text]) path.hops q
  | .isNotNull path, q => by
    rw [predicate, condition, hopCount, Predicate.boundValues]
    exact within_eq (fun t q => by simp [extend_zero, textFrom_eq_text]) path.hops q
  | .like path pattern, q => by
    rw [predicate, condition, hopCount, Predicate.boundValues]
    exact within_eq (fun t q => by simp [textFrom_eq_text, String.append_assoc]) path.hops q
  | .among path vs, q => by
    rw [predicate, condition, hopCount, Predicate.boundValues]
    refine within_eq (fun t q => ?_) path.hops q
    cases husable : vs.filter (bindable · path.type) with
    | nil => simp [extend_zero, falsity]
    | cons v rest =>
      have hgroup := group_textsFrom ", " q.next ((v :: rest).map (Sql.typedParam · path.type))
      simp only [List.map_cons, textsFrom, Statement.params_typedParam, List.length_singleton] at hgroup
      rw [bind_apply, mapM_typedParam_eq]
      simp [textsFrom, hgroup, textFrom_eq_text, String.append_assoc]
  | .between path low high, q => by
    rw [predicate, condition, hopCount, Predicate.boundValues]
    refine within_eq (fun t q => ?_) path.hops q
    split
    · simp [textFrom_eq_text, String.append_assoc]
    · simp [extend_zero, falsity]
  | .and [], q => congrArg (Prod.mk "TRUE") (extend_zero q).symm
  | .and (p :: rest), q => by
    rw [predicate, condition, hopCount, Predicate.boundValues, bind_apply, predicates_eq, textFrom_parens,
      ← group_textsFrom]
    · rfl
    all_goals exact fun h => nomatch h
  | .or [], q => congrArg (Prod.mk "FALSE") (extend_zero q).symm
  | .or (p :: rest), q => by
    rw [predicate, condition, hopCount, Predicate.boundValues, bind_apply, predicates_eq, textFrom_parens,
      ← group_textsFrom]
    · rfl
    all_goals exact fun h => nomatch h
  | .never, q => congrArg (Prod.mk "FALSE") (extend_zero q).symm

theorem predicates_eq : ∀ (ps : List Predicate) (q : QueryBuf), predicates schema ps q =
    (textsFrom q.next (conditions schema q.aliases ps),
      q.extend (hopCount.hopCounts ps) (Predicate.boundValues.ofParts ps))
  | [], q => (congrArg (Prod.mk []) (extend_zero q)).symm
  | p :: rest, q => by
    simp [predicates, conditions, textsFrom, predicate_eq p, predicates_eq rest, Statement.params_condition,
      hopCount.hopCounts, Predicate.boundValues.ofParts]

end

def ofStatement (s : Statement) (hops : Nat) : QueryBuf where
  sql := s.text
  params := s.params
  aliases := 1 + hops

theorem finish_eq {b : Building String} {s : Statement} {hops : Nat} (hsql : (b {}).1.toList = write 1 s)
    (hq : (b {}).2 = ({} : QueryBuf).extend hops s.params) : finish b = ofStatement s hops := by
  have htext : (b {}).1 = s.text := by rw [Statement.text, ← hsql, String.ofList_toList]
  have hfinish : finish b = { (b {}).2 with sql := (b {}).1 } := rfl
  rw [hfinish, htext, hq]
  rfl

variable (schema : String) (m : Model)

theorem whereClause_eq (p : Option Predicate) : whereClause schema p {} =
    (textFrom 1 (Sql.whereClause schema p), ({} : QueryBuf).extend (p.elim 0 hopCount) (boundBy p)) := by
  cases p with
  | none => rfl
  | some p =>
    have hp : predicate schema p {} = (textFrom 1 (condition schema 1 p), extend {} (hopCount p) p.boundValues) :=
      predicate_eq p {}
    simp [whereClause, Sql.whereClause, hp, boundBy]

theorem select_eq (p : Option Predicate) (sort : Option SortOrder) (offset limit : Option Nat) :
    select schema m p sort offset limit =
      ofStatement (Sql.select schema m p sort offset limit) (p.elim 0 hopCount) := by
  refine finish_eq ?_ ?_
  · simp [whereClause_eq, Sql.select, write, write_append, write_eq_text _ params_selected,
      write_eq_text _ (Statement.params_table _), write_eq_text _ (params_orderBy _),
      write_eq_text _ (params_window _ _)]
  · simp [whereClause_eq, params_select]

theorem count_eq (p : Option Predicate) :
    count schema m p = ofStatement (Sql.count schema m p) (p.elim 0 hopCount) := by
  refine finish_eq ?_ ?_
  · simp [whereClause_eq, Sql.count, parens, write, write_append, write_eq_text _ (Statement.params_table _)]
  · simp [whereClause_eq, params_count]

theorem selectById_eq (id : Json) : selectById schema m id = ofStatement (Sql.selectById schema m id) 0 := by
  refine finish_eq ?_ rfl
  simp [Sql.selectById, typedIdentity, idColumn, placeholder, write, write_append, Text.quoted, Text.double,
    write_eq_text _ params_selected, write_eq_text _ (Statement.params_table _)]

theorem insert_eq (id : Option Json) (content : Json) :
    insert schema m id content = ofStatement (Sql.insert schema m id content) 0 := by
  cases id with
  | none =>
    refine finish_eq ?_ rfl
    simp [Sql.insert, parens, placeholder, write, write_append, Text.quoted, Text.double,
      write_eq_text _ params_returned, write_eq_text _ (Statement.params_table _)]
  | some id =>
    refine finish_eq ?_ rfl
    simp [Sql.insert, typedIdentity, parens, placeholder, write, write_append, Text.quoted, Text.double,
      write_eq_text _ params_returned, write_eq_text _ (Statement.params_table _)]

theorem upsert_eq (id content : Json) :
    upsert schema m id content = ofStatement (Sql.upsert schema m id content) 0 := by
  refine finish_eq ?_ rfl
  simp [Sql.upsert, typedIdentity, parens, placeholder, write, write_append, Text.quoted, Text.double,
    write_eq_text _ params_returned, write_eq_text _ (Statement.params_table _)]

theorem delete_eq (id : Json) : delete schema m id = ofStatement (Sql.delete schema m id) 0 := by
  refine finish_eq ?_ rfl
  simp [Sql.delete, typedIdentity, placeholder, write, write_append, Text.quoted, Text.double,
    write_eq_text _ (Statement.params_table _)]

end QueryBuf

end EntityGraph.Sql
