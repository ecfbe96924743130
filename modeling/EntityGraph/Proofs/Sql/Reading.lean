import EntityGraph.Proofs.Calendar.Text
import EntityGraph.Proofs.Sql.Lexeme
import EntityGraph.Proofs.Sql.Placeholder
import Mathlib.Data.List.Chain

namespace EntityGraph.Sql

inductive Lexeme.Role
  | placeholder
  | alias
  | subquery
  | opening
  | closing
  | other
  deriving DecidableEq

def Lexeme.role : Lexeme → Lexeme.Role
  | .word cs =>
      if cs.head? = some '$' then .placeholder
      else if cs.head? = some 't' ∧ Text.isNumeral cs.tail then .alias
      else if cs = ['E', 'X', 'I', 'S', 'T', 'S'] then .subquery
      else .other
  | .sign c => if c = '(' then .opening else if c = ')' then .closing else .other
  | .quoted _ _ => .other

def tableName (k : Nat) : List Char :=
  't' :: Nat.toDigits 10 k

def placeholder (n : Nat) : List Char :=
  '$' :: Nat.toDigits 10 n

open Lexeme

theorem isWordChar_of_mem_toDigits {n : Nat} {c : Char} (h : c ∈ Nat.toDigits 10 n) : isWordChar c = true := by
  have hc : c.isDigit = true := Nat.isDigit_of_mem_toDigits (by decide) (by decide) h
  simp [isWordChar, Char.isAlphanum, hc]

theorem isNumeral_toDigits (n : Nat) : Text.isNumeral (Nat.toDigits 10 n) = true :=
  Text.isNumeral_of_isDigit (fun _ => Nat.isDigit_of_mem_toDigits (by decide) (by decide)) Nat.toDigits_ne_nil

theorem tableName_injective : Function.Injective tableName := by
  intro j k h
  rw [← Nat.ofDigitChars_ten_toDigits (n := j), (List.cons.inj h).2, Nat.ofDigitChars_ten_toDigits]

theorem read?_tableName (k : Nat) : read? (tableName k) = some [.word (tableName k)] :=
  read?_word (List.cons_ne_nil _ _)
    (List.forall_mem_cons.mpr ⟨rfl, fun _ => isWordChar_of_mem_toDigits⟩)

theorem read?_placeholder (n : Nat) : read? (placeholder n) = some [.word (placeholder n)] :=
  read?_word (List.cons_ne_nil _ _)
    (List.forall_mem_cons.mpr ⟨rfl, fun _ => isWordChar_of_mem_toDigits⟩)

theorem role_tableName (k : Nat) : (Lexeme.word (tableName k)).role = .alias := by
  simp [role, tableName, isNumeral_toDigits]

theorem role_placeholder (n : Nat) : (Lexeme.word (placeholder n)).role = .placeholder :=
  rfl

namespace Token

def chars (n : Nat) : Token → List Char
  | .plain s => s.toList
  | .name s => Text.quoted '"' s
  | .literal s => Text.quoted '\'' s
  | .alias k => tableName k
  | .param _ => placeholder n
  | .openParen => ['(']
  | .closeParen => [')']

def next (n : Nat) : Token → Nat
  | .param _ => n + 1
  | _ => n

def lexemesOf (n : Nat) : Token → List Lexeme
  | .plain s => (read? s.toList).getD []
  | .name s => [.quoted .name s.toList]
  | .literal s => [.quoted .literal s.toList]
  | .alias k => [.word (tableName k)]
  | .param _ => [.word (placeholder n)]
  | .openParen => [.sign '(']
  | .closeParen => [.sign ')']

def lexemes (n : Nat) : List Token → List Lexeme
  | [] => []
  | x :: rest => x.lexemesOf n ++ lexemes (x.next n) rest

/-- Whether a token can be read by itself, and has no placeholder unless it is one. -/
def isLegible : Token → Bool
  | .plain s => s != "" && (read? s.toList).any (·.all (·.role != .placeholder))
  | _ => true

def startsSolid : Token → Bool
  | .plain s => s.toList.head?.any isSolid
  | .openParen | .closeParen => false
  | _ => true

def endsSolid : Token → Bool
  | .plain s => s.toList.getLast?.any isSolid
  | .openParen | .closeParen => false
  | _ => true

variable {n : Nat} {x y : Token} {xs ys s : List Token} {c : Char} {cs : List Char}

theorem write_cons (n : Nat) (x : Token) (s : List Token) : write n (x :: s) = x.chars n ++ write (x.next n) s := by
  cases x <;> simp [write, chars, next, tableName, placeholder, Nat.toList_repr]

theorem read?_chars (h : x.isLegible = true) : read? (x.chars n) = some (x.lexemesOf n) := by
  match x with
  | .plain s =>
    obtain ⟨ls, hls, -⟩ := (Option.any_eq_true _ _).mp (Bool.and_eq_true_iff.mp h).2
    rw [chars, lexemesOf, hls, Option.getD_some]
  | .name s => exact read?_quoted .name s
  | .literal s => exact read?_quoted .literal s
  | .alias k => exact read?_tableName k
  | .param v => exact read?_placeholder n
  | .openParen => rfl
  | .closeParen => rfl

theorem chars_ne_nil (h : x.isLegible = true) : x.chars n ≠ [] := by
  match x with
  | .plain s => simpa [chars] using bne_iff_ne.mp (Bool.and_eq_true_iff.mp h).1
  | .name s | .literal s | .alias k | .param v | .openParen | .closeParen => exact List.cons_ne_nil _ _

theorem startsSolid_of_mem (hc : c ∈ (x.chars n).head?) (hsolid : isSolid c = true) : x.startsSolid = true := by
  match x with
  | .plain s => exact (Option.any_eq_true _ _).mpr ⟨c, hc, hsolid⟩
  | .name s | .literal s | .alias k | .param v => rfl
  | .openParen | .closeParen =>
    obtain rfl := Option.some.inj hc
    exact absurd hsolid (by decide)

theorem endsSolid_of_mem (hc : c ∈ (x.chars n).getLast?) (hsolid : isSolid c = true) : x.endsSolid = true := by
  match x with
  | .plain s => exact (Option.any_eq_true _ _).mpr ⟨c, hc, hsolid⟩
  | .name s | .literal s | .alias k | .param v => rfl
  | .openParen | .closeParen =>
    obtain rfl := Option.some.inj hc
    exact absurd hsolid (by decide)

/-- Tokens of which none runs into the one behind it. -/
structure Legible (s : List Token) : Prop where
  each : ∀ x ∈ s, x.isLegible = true
  apart : s.IsChain fun x y => x.endsSolid = false ∨ y.startsSolid = false

theorem Legible.single (hx : x.isLegible = true) : Legible [x] :=
  ⟨fun _ hy => List.mem_singleton.mp hy ▸ hx, List.isChain_singleton x⟩

def Beside (xs ys : List Token) : Prop :=
  xs.getLast?.any endsSolid = false ∨ ys.head?.any startsSolid = false

theorem Legible.append (hxs : Legible xs) (hys : Legible ys) (h : Beside xs ys) : Legible (xs ++ ys) := by
  refine ⟨fun x hx => (List.mem_append.mp hx).elim (hxs.each x) (hys.each x),
    List.isChain_append.mpr ⟨hxs.apart, hys.apart, fun x hx y hy => ?_⟩⟩
  rcases h with h | h
  · rw [Option.mem_def.mp hx] at h
    exact .inl h
  · rw [Option.mem_def.mp hy] at h
    exact .inr h

theorem Legible.tail (h : Legible (x :: s)) : Legible s :=
  ⟨(List.forall_mem_cons.mp h.each).2, (List.isChain_cons.mp h.apart).2⟩

theorem Legible.apart_write (h : Legible (x :: s)) : Apart (x.chars n) (write (x.next n) s) := by
  intro c hc d hd
  cases s with
  | nil => cases hd
  | cons y more =>
    have hy : y.isLegible = true := h.each y (List.mem_cons_of_mem x List.mem_cons_self)
    rw [write_cons, List.head?_append_of_ne_nil _ (chars_ne_nil hy)] at hd
    refine ((List.isChain_cons.mp h.apart).1 y rfl).imp (fun hx => ?_) fun hy => ?_
    · rw [Bool.eq_false_iff]
      exact fun hsolid => Bool.eq_false_iff.mp hx (endsSolid_of_mem hc hsolid)
    · rw [Bool.eq_false_iff]
      exact fun hsolid => Bool.eq_false_iff.mp hy (startsSolid_of_mem hd hsolid)

/-- The text of legible tokens is read as they are, one after the other. -/
theorem read?_write (h : Legible s) : read? (write n s) = some (lexemes n s) := by
  induction s generalizing n with
  | nil => rfl
  | cons x rest ih =>
    have hx : x.isLegible = true := h.each x List.mem_cons_self
    rw [write_cons, read?_append h.apart_write (read?_chars hx), ih h.tail]
    rfl

theorem lexemes_append (n : Nat) (xs ys : List Token) :
    lexemes n (xs ++ ys) = lexemes n xs ++ lexemes (n + (Statement.params xs).length) ys := by
  induction xs generalizing n with
  | nil => rfl
  | cons x rest ih =>
    have hnext : x.next n = n + x.param?.toList.length := by cases x <;> rfl
    rw [List.cons_append, lexemes, lexemes, ih, hnext, Statement.params_cons, List.length_append,
      Nat.add_assoc, List.append_assoc]

/-- The placeholders of legible tokens are numbered without a gap, as many as there are values. -/
theorem placeholders_lexemes (h : ∀ x ∈ s, x.isLegible = true) (n : Nat) :
    (lexemes n s).filter (·.role = .placeholder) =
      (List.range' n (Statement.params s).length).map fun k => .word (placeholder k) := by
  induction s generalizing n with
  | nil => rfl
  | cons x rest ih =>
    obtain ⟨hx, hrest⟩ := List.forall_mem_cons.mp h
    rw [lexemes, List.filter_append, ih hrest, Statement.params_cons]
    match x with
    | .plain s =>
      obtain ⟨ls, hls, hroles⟩ := (Option.any_eq_true _ _).mp (Bool.and_eq_true_iff.mp hx).2
      have hnone : ls.filter (·.role = .placeholder) = [] := by
        simpa using hroles
      rw [lexemesOf, hls, Option.getD_some, hnone]
      rfl
    | .alias k =>
      have hnone : [Lexeme.word (tableName k)].filter (·.role = .placeholder) = [] := by
        simp [role_tableName]
      rw [lexemesOf, hnone]
      rfl
    | .param v =>
      have hone : [Lexeme.word (placeholder n)].filter (·.role = .placeholder) = [.word (placeholder n)] := rfl
      have hlength : ((Token.param v).param?.toList ++ Statement.params rest).length =
          (Statement.params rest).length + 1 := rfl
      rw [lexemesOf, hone, hlength, List.range'_succ]
      rfl
    | .name s | .literal s | .openParen | .closeParen => rfl

end Token

end EntityGraph.Sql
