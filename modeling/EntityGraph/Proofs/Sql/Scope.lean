import EntityGraph.Proofs.Sql.Reading

namespace EntityGraph

/-- The hops of all paths of a predicate in the order of the predicate. -/
def Predicate.hops : Predicate → List Hop
  | .compare path _ _ | .isNull path | .isNotNull path | .like path _ | .among path _
  | .between path _ _ => path.hops
  | .and parts | .or parts => ofParts parts
  | .never => []
termination_by structural p => p
where
  ofParts : List Predicate → List Hop
    | [] => []
    | p :: rest => hops p ++ ofParts rest
  termination_by structural ps => ps

namespace Sql

open Lexeme Token

def subqueryHead (schema table : String) (k : Nat) : List Lexeme :=
  [.word "EXISTS".toList, .sign '(', .word "SELECT".toList, .word ['1'], .word "FROM".toList,
    .quoted .name schema.toList, .sign '.', .quoted .name table.toList, .word (tableName k),
    .word "WHERE".toList]

example : read? "EXISTS (SELECT 1 FROM \"app\".\"pets\" t1 WHERE ".toList =
    some (subqueryHead "app" "pets" 1) := by
  decide

/-- Texts in which parentheses are in pairs and every name of a table is in scope where it is used: its number is
one of those that are given, or a subquery around it introduces it. The last list has the tables of the
subqueries and the numbers of their names, in the order of the text. -/
inductive Scoped : List Nat → List Lexeme → List (String × Nat) → Prop
  | nil {scope} : Scoped scope [] []
  | piece {scope xs tables} (x : Lexeme) (hx : x.role = .other ∨ x.role = .placeholder)
      (h : Scoped scope xs tables) : Scoped scope (x :: xs) tables
  | use {scope xs tables k} (hk : k ∈ scope) (h : Scoped scope xs tables) :
      Scoped scope (.word (tableName k) :: xs) tables
  | group {scope inner xs within tables} (hinner : Scoped scope inner within) (h : Scoped scope xs tables) :
      Scoped scope (.sign '(' :: inner ++ .sign ')' :: xs) (within ++ tables)
  | subquery {scope inner xs within tables} (schema table : String) (k : Nat)
      (hinner : Scoped (k :: scope) inner within) (h : Scoped scope xs tables) :
      Scoped scope (subqueryHead schema table k ++ inner ++ .sign ')' :: xs)
        ((table, k) :: within ++ tables)

/-- How many parentheses are open behind a text, if none is closed that is not open. -/
def depth? (d : Nat) : List Lexeme → Option Nat
  | [] => some d
  | x :: rest =>
      if x.role = .opening then depth? (d + 1) rest
      else if x.role = .closing then if d = 0 then none else depth? (d - 1) rest
      else depth? d rest

section Lexemes

variable {scope : List Nat} {xs ys : List Lexeme} {tables others : List (String × Nat)} {x : Lexeme} {d k : Nat}

theorem Scoped.append (h : Scoped scope xs tables) (h' : Scoped scope ys others) :
    Scoped scope (xs ++ ys) (tables ++ others) := by
  induction h with
  | nil => exact h'
  | piece x hx _ ih => exact .piece x hx (ih h')
  | use hk _ ih => exact .use hk (ih h')
  | group hinner _ _ ih => simpa using .group hinner (ih h')
  | subquery schema table k hinner _ _ ih => simpa using .subquery schema table k hinner (ih h')

theorem Scoped.pieces (h : ∀ x ∈ xs, x.role = .other ∨ x.role = .placeholder) : Scoped scope xs [] := by
  induction xs with
  | nil => exact .nil
  | cons x rest ih =>
    obtain ⟨hx, hrest⟩ := List.forall_mem_cons.mp h
    exact .piece x hx (ih hrest)

theorem depth?_append (d : Nat) (xs ys : List Lexeme) :
    depth? d (xs ++ ys) = (depth? d xs).bind (depth? · ys) := by
  induction xs generalizing d with
  | nil => rfl
  | cons x rest ih =>
    rw [List.cons_append, depth?, depth?]
    split_ifs
    · exact ih _
    · rfl
    · exact ih _
    · exact ih _

theorem depth?_cons_of_ne (ho : x.role ≠ .opening) (hc : x.role ≠ .closing) :
    depth? d (x :: xs) = depth? d xs := by
  rw [depth?, if_neg ho, if_neg hc]

theorem depth?_tableName (d k : Nat) (xs : List Lexeme) : depth? d (.word (tableName k) :: xs) = depth? d xs :=
  depth?_cons_of_ne (by rw [role_tableName]; decide) (by rw [role_tableName]; decide)

theorem depth?_subqueryHead (d : Nat) (schema table : String) (k : Nat) (xs : List Lexeme) :
    depth? d (subqueryHead schema table k ++ xs) = depth? (d + 1) xs :=
  (depth?_tableName (d + 1) k (.word "WHERE".toList :: xs)).trans (depth?_cons_of_ne (by decide) (by decide))

theorem Scoped.depth?_eq (h : Scoped scope xs tables) (d : Nat) : depth? d xs = some d := by
  have hopen (d : Nat) (xs : List Lexeme) : depth? d (.sign '(' :: xs) = depth? (d + 1) xs := rfl
  have hclose (d : Nat) (xs : List Lexeme) : depth? (d + 1) (.sign ')' :: xs) = depth? d xs := rfl
  induction h generalizing d with
  | nil => rfl
  | piece x hx _ ih =>
    rw [depth?_cons_of_ne, ih]
    · rcases hx with hx | hx <;> rw [hx] <;> decide
    · rcases hx with hx | hx <;> rw [hx] <;> decide
  | use hk _ ih => rw [depth?_tableName, ih]
  | group _ _ ihinner ih =>
    rw [List.cons_append, hopen, depth?_append, ihinner, Option.bind_some, hclose, ih]
  | subquery schema table k _ _ ihinner ih =>
    rw [List.append_assoc, depth?_subqueryHead, depth?_append, ihinner, Option.bind_some, hclose, ih]

end Lexemes

/-- Tokens that are read as they are and whose text is scoped, whatever number its first placeholder has. -/
structure Fragment (scope : List Nat) (s : List Token) (tables : List (String × Nat)) : Prop where
  legible : Legible s
  inScope : ∀ n, Scoped scope (lexemes n s) tables

def isNeutral (s : String) : Bool :=
  s != "" && (read? s.toList).any (·.all (·.role == .other))

theorem isNeutral_iff {s : String} : isNeutral s = true ↔
    s ≠ "" ∧ ∃ xs, read? s.toList = some xs ∧ ∀ x ∈ xs, x.role = .other := by
  simp [isNeutral, Option.any_eq_true]

theorem startsSolid_append {s : String} (hs : s ≠ "") (t : String) :
    startsSolid (.plain (s ++ t)) = startsSolid (.plain s) := by
  have hne : s.toList ≠ [] := by simpa using hs
  rw [startsSolid, startsSolid, String.toList_append, List.head?_append_of_ne_nil _ hne]

def isSeparator (s : String) : Bool :=
  isNeutral s && !startsSolid (.plain s) && !endsSolid (.plain s)

namespace Fragment

variable {scope : List Nat} {s t : List Token} {tables others : List (String × Nat)} {k : Nat}

theorem nil : Fragment scope [] [] :=
  ⟨⟨nofun, .nil⟩, fun _ => .nil⟩

theorem append (h : Fragment scope s tables) (h' : Fragment scope t others) (hbeside : Beside s t) :
    Fragment scope (s ++ t) (tables ++ others) :=
  ⟨h.legible.append h'.legible hbeside,
    fun n => by rw [lexemes_append]; exact (h.inScope n).append (h'.inScope _)⟩

theorem single {x : Token} (hx : x.isLegible = true) (h : ∀ n, Scoped scope (x.lexemesOf n) tables) :
    Fragment scope [x] tables :=
  ⟨.single hx, fun n => by rw [lexemes, lexemes, List.append_nil]; exact h n⟩

theorem plain {s : String} (hs : isNeutral s = true) : Fragment scope [.plain s] [] := by
  obtain ⟨hne, xs, hxs, hother⟩ := isNeutral_iff.mp hs
  refine single ?_ fun n => ?_
  · have hroles : xs.all (·.role != .placeholder) = true :=
      List.all_eq_true.mpr fun x hx => by rw [hother x hx]; rfl
    simp [isLegible, hne, hxs, hroles]
  · rw [lexemesOf, hxs, Option.getD_some]
    exact .pieces fun x hx => .inl (hother x hx)

theorem name (s : String) : Fragment scope [.name s] [] :=
  single rfl fun _ => .piece _ (.inl rfl) .nil

theorem literal (s : String) : Fragment scope [.literal s] [] :=
  single rfl fun _ => .piece _ (.inl rfl) .nil

theorem param (v : Value) : Fragment scope [.param v] [] :=
  single rfl fun n => .piece _ (.inr (role_placeholder n)) .nil

theorem tableAlias (hk : k ∈ scope) : Fragment scope [.alias k] [] :=
  single rfl fun _ => .use hk .nil

theorem parens (h : Fragment scope s tables) : Fragment scope (parens s) tables := by
  have hopen : Legible [.openParen] := .single rfl
  have hclose : Legible [.closeParen] := .single rfl
  refine ⟨(hopen.append h.legible (.inl rfl)).append hclose (.inr rfl), fun n => ?_⟩
  have hgroup := Scoped.group (h.inScope n) .nil
  rw [List.append_nil] at hgroup
  rw [Sql.parens, lexemes_append]
  exact hgroup

theorem column (hk : k ∈ scope) (s : String) : Fragment scope [.alias k, .plain ".", .name s] [] :=
  ((tableAlias hk).append (plain rfl) (.inr rfl)).append (name s) (.inl rfl)

theorem table (schema path : String) : Fragment scope (table schema path) [] :=
  ((name schema).append (plain rfl) (.inr rfl)).append (name path) (.inl rfl)

theorem payloadText (hk : k ∈ scope) (field : String) : Fragment scope (payloadText k field) [] :=
  ((column hk "payload").append ((plain rfl).append (literal field) (.inl rfl)) (.inr rfl)).parens

theorem cast {type : FieldType} {cast : String} (h : castOf? type = some cast) :
    Fragment scope [.plain ("::" ++ cast)] [] := by
  refine plain ?_
  cases type <;> cases h <;> decide

theorem payloadValue (hk : k ∈ scope) (field : String) (type : FieldType) :
    Fragment scope (payloadValue k field type) [] := by
  unfold Sql.payloadValue
  split
  · next cast hcast =>
    refine ((payloadText hk field).append (Fragment.cast hcast) (.inl rfl)).parens
  · exact payloadText hk field

theorem typedParam (v : Json) (type : FieldType) : Fragment scope (typedParam v type) [] := by
  unfold Sql.typedParam
  cases hcast : castOf? type with
  | none => exact param _
  | some cast =>
    exact (param (.ofJson v)).append (Fragment.cast hcast) (.inr (startsSolid_append (by decide) cast))

theorem join {parent child : Nat} (hparent : parent ∈ scope) (hchild : child ∈ scope) (hop : Hop) :
    Fragment scope (join parent child hop) [] := by
  have slot {holder referenced : Nat} (hh : holder ∈ scope) (hr : referenced ∈ scope) (field : String)
      (many : Bool) : Fragment scope (payload holder ++ [.plain " -> ", .literal field] ++
        (if many then .plain " @> jsonb_build_array" :: Sql.parens (idColumn referenced)
          else .plain " = to_jsonb" :: Sql.parens (idColumn referenced))) [] := by
    have hfield : Fragment scope [.plain " -> ", .literal field] [] :=
      (plain rfl).append (literal field) (.inl rfl)
    have hslot := (column hh "payload").append hfield (.inr rfl)
    have hreference := (column hr "id").parens
    cases many with
    | true => exact hslot.append ((plain rfl).append hreference (.inr rfl)) (.inr rfl)
    | false => exact hslot.append ((plain rfl).append hreference (.inr rfl)) (.inr rfl)
  unfold Sql.join
  split
  · exact slot hparent hchild hop.relation _
  · exact slot hchild hparent _ _

theorem endText (hk : k ∈ scope) (path : AccessPath) : Fragment scope (endText path k) [] := by
  unfold Sql.endText
  split
  · exact (column hk "id").append (plain rfl) (.inr rfl)
  · exact payloadText hk path.field

theorem endValue (hk : k ∈ scope) (path : AccessPath) : Fragment scope (endValue path k) [] := by
  unfold Sql.endValue
  split
  · exact column hk "id"
  · exact payloadValue hk path.field path.type

theorem subquery (schema target : String) (k : Nat) (h : Fragment (k :: scope) s tables) :
    Fragment scope (.plain "EXISTS " :: Sql.parens (.plain "SELECT 1 FROM " :: Sql.table schema target ++
      [.plain " ", .alias k, .plain " WHERE "] ++ s)) ((target, k) :: tables) := by
  have halias : Fragment (k :: scope) [.plain " ", .alias k, .plain " WHERE "] [] :=
    (plain rfl).append ((tableAlias List.mem_cons_self).append (plain rfl) (.inr rfl)) (.inl rfl)
  have hbody := (((plain (s := "SELECT 1 FROM ") rfl).append (table schema target) (.inl rfl)).append halias
    (.inr rfl)).append h (.inl rfl)
  have hexists : Legible [.plain "EXISTS "] := .single rfl
  refine ⟨hexists.append hbody.parens.legible (.inl rfl), fun n => ?_⟩
  have hsubquery := Scoped.subquery schema target k (h.inScope n) .nil
  simp only [List.append_nil] at hsubquery
  have hlexemes : lexemes n (.plain "EXISTS " :: Sql.parens (.plain "SELECT 1 FROM " :: Sql.table schema target ++
      [.plain " ", .alias k, .plain " WHERE "] ++ s)) =
      subqueryHead schema target k ++ lexemes n (s ++ [.closeParen]) := rfl
  rw [hlexemes, lexemes_append, ← List.append_assoc]
  exact hsubquery

end Fragment

/-- The tables of hops with the numbers of their names. -/
def introduced (next : Nat) (hops : List Hop) : List (String × Nat) :=
  (hops.zipIdx next).map fun i => (i.1.target, i.2)

namespace Fragment

variable {scope : List Nat} {s t : List Token} {tables others : List (String × Nat)} {k : Nat} {schema : String}

/-- The record of a hop is the parent of the next one, and the condition stands in the innermost subquery. -/
theorem within {c : Nat → List Token} (hc : ∀ scope k, k ∈ scope → Fragment scope (c k) [])
    (hops : List Hop) (next : Nat) {parent : Nat} (hparent : parent ∈ scope) :
    Fragment scope (within schema next parent c hops) (introduced next hops) := by
  induction hops generalizing next parent scope with
  | nil => exact hc scope parent hparent
  | cons hop rest ih =>
    have hnext : next ∈ next :: scope := List.mem_cons_self
    have hjoin := join (List.mem_cons_of_mem next hparent) hnext hop
    have hrest := (plain (s := " AND ") rfl).append (ih (next + 1) hnext) (.inl rfl)
    have hsubquery := (hjoin.append hrest (.inr rfl)).subquery schema hop.target
    rw [Sql.within]
    simpa using! hsubquery

theorem falsity : Fragment scope falsity [] :=
  plain rfl

theorem joined_cons {separator : String} (hs : isSeparator separator = true) {ss : List (List Token)}
    (h : Fragment scope s tables) (hrest : Fragment scope (joined separator (t :: ss)) others) :
    Fragment scope (joined separator (s :: t :: ss)) (tables ++ others) := by
  simp only [isSeparator, Bool.and_eq_true, Bool.not_eq_true'] at hs
  obtain ⟨⟨hneutral, hstart⟩, hend⟩ := hs
  exact h.append ((plain hneutral).append hrest (.inl hend)) (.inr hstart)

theorem members (type : FieldType) : ∀ vs : List Json,
    Fragment scope (joined ", " (vs.map (Sql.typedParam · type))) []
  | [] => .nil
  | [v] => typedParam v type
  | v :: w :: rest => (typedParam v type).joined_cons rfl (members type (w :: rest))

end Fragment

theorem introduced_append (next : Nat) (hops more : List Hop) :
    introduced next (hops ++ more) = introduced next hops ++ introduced (next + hops.length) more := by
  simp [introduced, List.zipIdx_append]

mutual

theorem hopCount_eq : ∀ p : Predicate, hopCount p = p.hops.length
  | .compare .. | .isNull _ | .isNotNull _ | .like .. | .among .. | .between .. => rfl
  | .and parts | .or parts => hopCounts_eq parts
  | .never => rfl

theorem hopCounts_eq : ∀ ps : List Predicate, hopCount.hopCounts ps = (Predicate.hops.ofParts ps).length
  | [] => rfl
  | p :: rest => by
    rw [hopCount.hopCounts, hopCount_eq p, hopCounts_eq rest, Predicate.hops.ofParts, List.length_append]

end

section Conditions

variable {scope : List Nat} {schema : String}

mutual

/-- In a condition on table zero the tables of all hops have numbers of their own, in order. -/
theorem condition_fragment (h : 0 ∈ scope) : ∀ (p : Predicate) (next : Nat),
    Fragment scope (condition schema next p) (introduced next p.hops)
  | .compare path op v, next => by
    refine Fragment.within (fun _ k hk => ?_) path.hops next h
    split
    · exact ((Fragment.endValue hk path).append ((Fragment.plain (by cases op <;> rfl)).append
        (.typedParam v path.type) (.inl (by cases op <;> rfl))) (.inr (by cases op <;> rfl)))
    · exact .falsity
  | .isNull path, next =>
    Fragment.within (fun _ _ hk => (Fragment.endText hk path).append (.plain rfl) (.inr rfl)) path.hops next h
  | .isNotNull path, next =>
    Fragment.within (fun _ _ hk => (Fragment.endText hk path).append (.plain rfl) (.inr rfl)) path.hops next h
  | .like path pattern, next =>
    Fragment.within (fun _ _ hk => (Fragment.endText hk path).append
      ((Fragment.plain rfl).append (.param _) (.inl rfl)) (.inr rfl)) path.hops next h
  | .among path vs, next => by
    refine Fragment.within (fun _ k hk => ?_) path.hops next h
    split
    · exact .falsity
    · exact (Fragment.endValue hk path).append ((Fragment.plain rfl).append (Fragment.members _ _).parens
        (.inl rfl)) (.inr rfl)
  | .between path low high, next => by
    refine Fragment.within (fun _ k hk => ?_) path.hops next h
    split
    · exact ((Fragment.endValue hk path).append ((Fragment.plain rfl).append (.typedParam low path.type)
        (.inl rfl)) (.inr rfl)).append ((Fragment.plain rfl).append (.typedParam high path.type) (.inl rfl))
        (.inr rfl)
    · exact .falsity
  | .and [], _ => .plain rfl
  | .and (p :: rest), next => (conditions_fragment h rfl (p :: rest) next).parens
  | .or [], _ => .falsity
  | .or (p :: rest), next => (conditions_fragment h rfl (p :: rest) next).parens
  | .never, _ => .falsity

theorem conditions_fragment (h : 0 ∈ scope) {separator : String} (hs : isSeparator separator = true) :
    ∀ (ps : List Predicate) (next : Nat), Fragment scope (joined separator (conditions schema next ps))
      (introduced next (Predicate.hops.ofParts ps))
  | [], _ => .nil
  | [p], next => by
    have hp : Fragment scope (condition schema next p) _ := condition_fragment h p next
    rw [Predicate.hops.ofParts, Predicate.hops.ofParts, List.append_nil]
    exact hp
  | p :: q :: rest, next => by
    rw [Predicate.hops.ofParts, introduced_append, ← hopCount_eq]
    exact (condition_fragment h p next).joined_cons hs (conditions_fragment h hs (q :: rest) _)

end

end Conditions

end Sql

end EntityGraph
