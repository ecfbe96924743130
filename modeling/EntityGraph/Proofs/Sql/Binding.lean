import EntityGraph.Proofs.Sql.Scope

namespace EntityGraph.Sql

open Lexeme Token

section Numbers

variable {s t : String}

theorem role_toDigits (n : Nat) : (Lexeme.word (Nat.toDigits 10 n)).role = .other := by
  obtain ⟨c, cs, hcs⟩ := List.exists_cons_of_ne_nil (Nat.toDigits_ne_nil (n := n) (b := 10))
  have hc : c.isDigit = true :=
    Nat.isDigit_of_mem_toDigits (b := 10) (n := n) (by decide) (by decide) (hcs ▸ List.mem_cons_self)
  have hne (d : Char) (hd : d.isDigit = false) : c ≠ d := fun h => by rw [h, hd] at hc; cases hc
  simp [role, hcs, hne '$' rfl, hne 't' rfl, hne 'E' rfl]

theorem isNeutral_toString (n : Nat) : isNeutral (toString n) = true := by
  have hdigits : (toString n).toList = Nat.toDigits 10 n := Nat.toList_repr
  refine isNeutral_iff.mpr ⟨fun h => ?_, [.word (Nat.toDigits 10 n)], ?_, ?_⟩
  · rw [h] at hdigits
    exact Nat.toDigits_ne_nil hdigits.symm
  · rw [hdigits]
    exact read?_word Nat.toDigits_ne_nil fun _ => isWordChar_of_mem_toDigits
  · exact fun x hx => List.mem_singleton.mp hx ▸ role_toDigits n

theorem isNeutral_append (hs : isNeutral s = true) (ht : isNeutral t = true)
    (hend : endsSolid (.plain s) = false) : isNeutral (s ++ t) = true := by
  obtain ⟨hne, xs, hxs, hothers⟩ := isNeutral_iff.mp hs
  obtain ⟨-, ys, hys, hothert⟩ := isNeutral_iff.mp ht
  have hapart : Apart s.toList t.toList := by
    intro c hc d hd
    left
    rw [Bool.eq_false_iff]
    exact fun hsolid => Bool.eq_false_iff.mp hend ((Option.any_eq_true _ _).mpr ⟨c, hc, hsolid⟩)
  refine isNeutral_iff.mpr ⟨by simp [hne], xs ++ ys, ?_, ?_⟩
  · rw [String.toList_append, read?_append hapart hxs, hys, Option.map_some]
  · exact fun x hx => (List.mem_append.mp hx).elim (hothers x) (hothert x)

end Numbers

namespace Token.Beside

theorem numbered {word : String} (hne : word ≠ "") (h : startsSolid (.plain word) = false) (xs : List Token)
    (n : Option Nat) : Beside xs (n.map fun n => Token.plain (word ++ toString n)).toList := by
  right
  cases n with
  | none => rfl
  | some n => exact (startsSolid_append hne _).trans h

theorem window (xs : List Token) (offset limit : Option Nat) : Beside xs (window offset limit) := by
  cases limit with
  | none => exact numbered (by decide) rfl xs (offset.filter (0 < ·))
  | some n => exact .inr (startsSolid_append (by decide) _)

theorem whereClause (xs : List Token) (schema : String) (p : Option Predicate) :
    Beside xs (whereClause schema p) := by
  cases p <;> exact .inr rfl

end Token.Beside

namespace Fragment

variable {scope : List Nat} {s : List Token} {tables : List (String × Nat)}

theorem selected (h : 0 ∈ scope) : Fragment scope selected [] := by
  have hidentity : Fragment scope (.plain "to_jsonb" :: Sql.parens (idColumn 0)) [] :=
    (plain rfl).append (column h "id").parens (.inr rfl)
  have hnamed : Fragment scope [.plain " AS ", .name "id", .plain ", "] [] :=
    ((plain rfl).append (name "id") (.inl rfl)).append (plain rfl) (.inr rfl)
  have hpayload : Fragment scope [.plain " AS ", .name "payload"] [] :=
    (plain rfl).append (name "payload") (.inl rfl)
  exact ((hidentity.append hnamed (.inl rfl)).append (column h "payload") (.inl rfl)).append hpayload (.inr rfl)

theorem direction (d : SortDirection) : Fragment scope [.plain (directionWord d)] [] :=
  plain (by cases d <;> rfl)

theorem startsSolid_directionWord (d : SortDirection) : startsSolid (.plain (directionWord d)) = false := by
  cases d <;> rfl

theorem orderBy (h : 0 ∈ scope) (sort : Option SortOrder) : Fragment scope (orderBy sort) [] := by
  have hidentity (d : SortDirection) : Fragment scope (idColumn 0 ++ [.plain (directionWord d)]) [] :=
    (column h "id").append (direction d) (.inr (startsSolid_directionWord d))
  unfold Sql.orderBy
  split
  · exact hidentity .asc
  · split
    · exact hidentity _
    · next order _ =>
      have hnext : Fragment scope (.plain ", " :: idColumn 0) [] := (plain rfl).append (column h "id") (.inl rfl)
      have hfield := (payloadValue h order.field order.type).append
        ((direction order.direction).append hnext (.inr rfl)) (.inr (startsSolid_directionWord order.direction))
      exact hfield.append (direction .asc) (.inr rfl)

theorem window (offset limit : Option Nat) : Fragment scope (window offset limit) [] := by
  have hnumber {word : String} (hword : isNeutral word = true) (hend : endsSolid (.plain word) = false)
      (n : Option Nat) : Fragment scope (n.map fun n => Token.plain (word ++ toString n)).toList [] := by
    cases n with
    | none => exact nil
    | some n => exact plain (isNeutral_append hword (isNeutral_toString n) hend)
  refine (hnumber rfl rfl limit).append (hnumber rfl rfl (offset.filter (0 < ·))) ?_
  exact .numbered (by decide) rfl _ _

theorem whereClause (h : 0 ∈ scope) (schema : String) (p : Option Predicate) :
    Fragment scope (whereClause schema p) (introduced 1 (p.elim [] Predicate.hops)) := by
  cases p with
  | none => exact nil
  | some p => exact (plain rfl).append (condition_fragment h p 1) (.inl rfl)

theorem root (h : 0 ∈ scope) (schema path : String) :
    Fragment scope (.plain " FROM " :: Sql.table schema path ++ [.plain " ", .alias 0]) [] :=
  ((plain rfl).append (table schema path) (.inl rfl)).append ((plain rfl).append (tableAlias h) (.inl rfl))
    (.inr rfl)

end Fragment

section Queries

variable (schema : String) (m : Model) (p : Option Predicate) (sort : Option SortOrder) (offset limit : Option Nat)

theorem count_fragment : Fragment [0] (count schema m p) (introduced 1 (p.elim [] Predicate.hops)) := by
  have hcount : Fragment [0] (.plain "SELECT COUNT" :: parens [.plain "*"]) [] :=
    (Fragment.plain rfl).append (Fragment.plain rfl).parens (.inr rfl)
  have h0 : 0 ∈ [0] := List.mem_cons_self
  have h := (hcount.append (.root h0 schema m.path) (.inl rfl)).append (.whereClause h0 schema p)
    (.whereClause _ schema p)
  simpa [count] using! h

theorem select_fragment :
    Fragment [0] (select schema m p sort offset limit) (introduced 1 (p.elim [] Predicate.hops)) := by
  have h0 : 0 ∈ [0] := List.mem_cons_self
  have hselect : Fragment [0] (.plain "SELECT " :: selected) [] :=
    (Fragment.plain rfl).append (.selected h0) (.inl rfl)
  have hwhere := (hselect.append (.root h0 schema m.path) (.inr rfl)).append (.whereClause h0 schema p)
    (.whereClause _ schema p)
  have horder : Fragment [0] (.plain " ORDER BY " :: orderBy sort) [] :=
    (Fragment.plain rfl).append (.orderBy h0 sort) (.inl rfl)
  have h := (hwhere.append horder (.inr rfl)).append (.window offset limit) (.window _ offset limit)
  simpa [select] using! h

end Queries

/-- What a query says about values and hops, in a text with the pieces given. -/
structure ReadsAs (q : QueryBuf) (vs : List Value) (hops : List Hop) (xs : List Lexeme) : Prop where
  pieces : read? q.sql.toList = some xs
  params : q.params = vs
  placeholders : xs.filter (·.role = .placeholder) =
    (List.range' 1 q.params.length).map fun n => .word (placeholder n)
  balanced : depth? 0 xs = some 0
  /-- Every hop has one subquery, and a table is named in the subquery of its hop alone. -/
  names : Scoped [0] xs (introduced 1 hops)
  /-- No name is that of two tables. -/
  distinct : (tableName 0 :: (introduced 1 hops).map fun t => tableName t.2).Nodup

theorem nodup_introduced (hops : List Hop) :
    (tableName 0 :: (introduced 1 hops).map fun t => tableName t.2).Nodup := by
  have hnumbers : (introduced 1 hops).map Prod.snd = List.range' 1 hops.length := by
    simp [introduced, Function.comp_def]
  have hnames : (introduced 1 hops).map (fun t => tableName t.2) = (List.range' 1 hops.length).map tableName := by
    rw [← hnumbers, List.map_map]
    rfl
  have hall : 0 :: List.range' 1 hops.length = List.range' 0 (hops.length + 1) := by
    rw [List.range'_succ]
  rw [hnames, ← List.map_cons, hall]
  exact List.Nodup.map tableName_injective List.nodup_range'

theorem readsAs_of_fragment {s : Statement} {k : Nat} {vs : List Value} {hops : List Hop}
    (h : Fragment [0] s (introduced 1 hops)) (hvs : s.params = vs) :
    ReadsAs (.ofStatement s k) vs hops (lexemes 1 s) where
  pieces := by rw [QueryBuf.ofStatement, Statement.text, String.toList_ofList, read?_write h.legible]
  params := hvs
  placeholders := placeholders_lexemes h.legible.each 1
  balanced := (h.inScope 1).depth?_eq 0
  names := h.inScope 1
  distinct := nodup_introduced hops

/-- A query binds the values of its predicate that can be bound, and its placeholders are numbered from one on, one
for each value. Parentheses balance, and each hop names one table, in a subquery that is the scope of the name. -/
theorem queries_bind_and_scope (schema : String) (m : Model) (p : Option Predicate) (sort : Option SortOrder)
    (offset limit : Option Nat) :
    (∃ xs, ReadsAs (QueryBuf.select schema m p sort offset limit) (boundBy p) (p.elim [] Predicate.hops) xs) ∧
      ∃ xs, ReadsAs (QueryBuf.count schema m p) (boundBy p) (p.elim [] Predicate.hops) xs := by
  rw [QueryBuf.select_eq, QueryBuf.count_eq]
  exact ⟨⟨_, readsAs_of_fragment (select_fragment schema m p sort offset limit) (params_select ..)⟩,
    ⟨_, readsAs_of_fragment (count_fragment schema m p) (params_count ..)⟩⟩

end EntityGraph.Sql
