import EntityGraph.Proofs.Service.Run
import EntityGraph.Proofs.Sql.Builder
import Mathlib.Data.List.Forall2
import Mathlib.Data.Option.Basic

namespace EntityGraph

/-- Predicates that are built in the same way over the same paths. Their values may differ, but not in
whether they are bindable. -/
inductive Predicate.SameForm : Predicate → Predicate → Prop
  | compare {path : AccessPath} {v w : Json} (op : Comparison)
      (h : Sql.bindable v path.type = Sql.bindable w path.type) :
      SameForm (.compare path op v) (.compare path op w)
  | isNull (path : AccessPath) : SameForm (.isNull path) (.isNull path)
  | isNotNull (path : AccessPath) : SameForm (.isNotNull path) (.isNotNull path)
  | like (path : AccessPath) (pattern other : String) :
      SameForm (.like path pattern) (.like path other)
  | among {path : AccessPath} {vs ws : List Json}
      (h : List.Forall₂ (fun v w => Sql.bindable v path.type = Sql.bindable w path.type) vs ws) :
      SameForm (.among path vs) (.among path ws)
  | between {path : AccessPath} {low low' high high' : Json}
      (hlow : Sql.bindable low path.type = Sql.bindable low' path.type)
      (hhigh : Sql.bindable high path.type = Sql.bindable high' path.type) :
      SameForm (.between path low high) (.between path low' high')
  | and {ps qs : List Predicate} (h : List.Forall₂ SameForm ps qs) : SameForm (.and ps) (.and qs)
  | or {ps qs : List Predicate} (h : List.Forall₂ SameForm ps qs) : SameForm (.or ps) (.or qs)
  | never : SameForm .never .never

namespace Sql

open Token

/-- Statements that differ in nothing but the values of their placeholders. -/
inductive Alike : List Token → List Token → Prop
  | nil : Alike [] []
  | cons {s t : List Token} (x : Token) (h : Alike s t) : Alike (x :: s) (x :: t)
  | param {s t : List Token} (v w : Value) (h : Alike s t) : Alike (.param v :: s) (.param w :: t)

namespace Alike

variable {s s' t t' : List Token} {schema : String} {hops : List Hop}

theorem refl : ∀ s : List Token, Alike s s
  | [] => .nil
  | x :: s => .cons x (refl s)

theorem append (h : Alike s t) (h' : Alike s' t') : Alike (s ++ s') (t ++ t') := by
  induction h with
  | nil => exact h'
  | cons x _ ih => exact .cons x ih
  | param v w _ ih => exact .param v w ih

theorem parens (h : Alike s t) : Alike (parens s) (parens t) :=
  (h.cons .openParen).append (refl _)

theorem joined (separator : String) {ss ts : List (List Token)} (h : List.Forall₂ Alike ss ts) :
    Alike (joined separator ss) (joined separator ts) := by
  induction h with
  | nil => exact .nil
  | cons hst hrest ih =>
    cases hrest with
    | nil => exact hst
    | cons => exact hst.append (ih.cons _)

theorem write_eq (h : Alike s t) (n : Nat) : write n s = write n t := by
  induction h generalizing n with
  | nil => rfl
  | cons x _ ih => cases x <;> simp only [write, ih]
  | param v w _ ih => simp only [write, ih]

theorem text_eq {s t : Statement} (h : Alike s t) : s.text = t.text := by
  rw [Statement.text, Statement.text, h.write_eq]

theorem typedParam (v w : Json) (type : FieldType) : Alike (typedParam v type) (typedParam w type) :=
  .param _ _ (refl _)

theorem members (type : FieldType) {vs ws : List Json} (h : vs.length = ws.length) :
    List.Forall₂ Alike (vs.map (Sql.typedParam · type)) (ws.map (Sql.typedParam · type)) := by
  induction vs generalizing ws with
  | nil => rw [List.length_eq_zero_iff.mp h.symm]; exact .nil
  | cons v vs ih =>
    cases ws with
    | nil => cases h
    | cons w ws => exact .cons (typedParam v w type) (ih (Nat.succ.inj h))

theorem within {c d : Nat → List Token} (h : ∀ t, Alike (c t) (d t)) (next parent : Nat) :
    Alike (within schema next parent c hops) (within schema next parent d hops) := by
  induction hops generalizing next parent with
  | nil => exact h parent
  | cons hop rest ih => exact (((refl _).append ((ih _ _).cons _)).parens).cons _

end Alike

section Forms

variable {schema : String}

theorem length_usable {type : FieldType} {vs ws : List Json}
    (h : List.Forall₂ (fun v w => bindable v type = bindable w type) vs ws) :
    (vs.filter (bindable · type)).length = (ws.filter (bindable · type)).length :=
  (List.rel_filter (fun _ _ he => iff_of_eq (congrArg (· = true) he)) h).length_eq

mutual

theorem hopCount_eq_of_sameForm : ∀ {p q : Predicate}, p.SameForm q → hopCount p = hopCount q
  | _, _, .compare _ _ => rfl
  | _, _, .isNull _ => rfl
  | _, _, .isNotNull _ => rfl
  | _, _, .like _ _ _ => rfl
  | _, _, .among _ => rfl
  | _, _, .between _ _ => rfl
  | _, _, .and h => hopCounts_eq_of_sameForm h
  | _, _, .or h => hopCounts_eq_of_sameForm h
  | _, _, .never => rfl

theorem hopCounts_eq_of_sameForm : ∀ {ps qs : List Predicate},
    List.Forall₂ Predicate.SameForm ps qs → hopCount.hopCounts ps = hopCount.hopCounts qs
  | _, _, .nil => rfl
  | _, _, .cons h hrest =>
      congrArg₂ (· + ·) (hopCount_eq_of_sameForm h) (hopCounts_eq_of_sameForm hrest)

end

mutual

theorem condition_alike : ∀ {p q : Predicate}, p.SameForm q → ∀ next,
    Alike (condition schema next p) (condition schema next q)
  | .compare path op v, .compare _ _ w, .compare _ h, next => by
    refine Alike.within (fun t => ?_) next 0
    rw [h]
    split
    · exact (Alike.refl _).append ((Alike.typedParam v w path.type).cons _)
    · exact .refl _
  | _, _, .isNull _, _ => .refl _
  | _, _, .isNotNull _, _ => .refl _
  | .like _ s, .like _ t, .like path _ _, next =>
    Alike.within (fun _ => (Alike.refl _).append (.cons _ (.param _ _ .nil))) next 0
  | .among path vs, .among _ ws, .among h, next => by
    have hlength := length_usable h
    have hempty : (vs.filter (bindable · path.type)).isEmpty =
        (ws.filter (bindable · path.type)).isEmpty := by
      rw [Bool.eq_iff_iff, List.isEmpty_iff_length_eq_zero, List.isEmpty_iff_length_eq_zero, hlength]
    refine Alike.within (fun t => ?_) next 0
    rw [hempty]
    split
    · exact .refl _
    · exact (Alike.refl _).append ((Alike.joined ", " (Alike.members _ hlength)).parens.cons _)
  | .between path low high, .between _ low' high', .between hlow hhigh, next => by
    refine Alike.within (fun t => ?_) next 0
    rw [hlow, hhigh]
    split
    · exact ((Alike.refl _).append ((Alike.typedParam low low' _).cons _)).append
        ((Alike.typedParam high high' _).cons _)
    · exact .refl _
  | .and _, .and _, .and .nil, _ => .refl _
  | .and _, .and _, .and h@(.cons _ _), next =>
    (Alike.joined " AND " (conditions_alike h next)).parens
  | .or _, .or _, .or .nil, _ => .refl _
  | .or _, .or _, .or h@(.cons _ _), next =>
    (Alike.joined " OR " (conditions_alike h next)).parens
  | _, _, .never, _ => .refl _

theorem conditions_alike : ∀ {ps qs : List Predicate}, List.Forall₂ Predicate.SameForm ps qs →
    ∀ next, List.Forall₂ Alike (conditions schema next ps) (conditions schema next qs)
  | _, _, .nil, _ => .nil
  | _, _, .cons h hrest, next => by
    unfold conditions
    rw [hopCount_eq_of_sameForm h]
    exact .cons (condition_alike h next) (conditions_alike hrest _)

end

end Forms

section Statements

variable (schema : String) (m : Model) {p q : Option Predicate}

/-- Two statements of one text, each with values of its own behind the placeholders. -/
structure ShareText (q r : QueryBuf) (vs ws : List Value) : Prop where
  text : q.sql = r.sql
  left : q.params = vs
  right : r.params = ws

theorem Alike.shareText {s t : Statement} {k l : Nat} {vs ws : List Value} (h : Alike s t) (hs : s.params = vs)
    (ht : t.params = ws) : ShareText (.ofStatement s k) (.ofStatement t l) vs ws :=
  ⟨h.text_eq, hs, ht⟩

theorem whereClause_alike (h : Option.Rel Predicate.SameForm p q) :
    Alike (whereClause schema p) (whereClause schema q) := by
  cases h with
  | some h => exact (condition_alike h 1).cons _
  | none => exact .nil

theorem select_alike (h : Option.Rel Predicate.SameForm p q) (sort : Option SortOrder)
    (offset limit : Option Nat) :
    Alike (select schema m p sort offset limit) (select schema m q sort offset limit) :=
  (((Alike.refl _).append (whereClause_alike schema h)).append (.refl _)).append (.refl _)

theorem count_alike (h : Option.Rel Predicate.SameForm p q) :
    Alike (count schema m p) (count schema m q) :=
  (Alike.refl _).append (whereClause_alike schema h)

variable (id other content content' : Json)

theorem typedIdentity_alike : Alike (typedIdentity m id) (typedIdentity m other) :=
  .param _ _ (.refl _)

theorem selectById_alike : Alike (selectById schema m id) (selectById schema m other) :=
  (Alike.refl _).append ((typedIdentity_alike m id other).cons _)

theorem insert_alike :
    Alike (insert schema m (some id) content) (insert schema m (some other) content') := by
  have hvalues := ((typedIdentity_alike m id other).append (.refl [plain ", "])).append
    (.param (.json content) (.json content') .nil)
  exact ((Alike.refl _).append (hvalues.parens.cons _)).append (.refl _)

theorem upsert_alike : Alike (upsert schema m id content) (upsert schema m other content') := by
  have hvalues := (typedIdentity_alike m id other).append
    (.cons (plain ", ") (.param (.json content) (.json content') .nil))
  exact (((((Alike.refl _).append (hvalues.parens.cons _)).append (.refl _)).append (.refl _)).append
    (.refl _)).append (.refl _)

theorem delete_alike : Alike (delete schema m id) (delete schema m other) :=
  (Alike.refl _).append (typedIdentity_alike m id other)

/-- The text of a query depends on the form of its predicate alone, and the text of a statement about one
record on none of the values that it is given. Their values are behind the placeholders, in order. -/
theorem values_stay_out_of_text (h : Option.Rel Predicate.SameForm p q) (sort : Option SortOrder)
    (offset limit : Option Nat) :
    ShareText (QueryBuf.select schema m p sort offset limit) (QueryBuf.select schema m q sort offset limit)
        (boundBy p) (boundBy q) ∧
      ShareText (QueryBuf.count schema m p) (QueryBuf.count schema m q) (boundBy p) (boundBy q) ∧
      ShareText (QueryBuf.selectById schema m id) (QueryBuf.selectById schema m other)
        [.ofJson id] [.ofJson other] ∧
      ShareText (QueryBuf.insert schema m (some id) content) (QueryBuf.insert schema m (some other) content')
        [.ofJson id, .json content] [.ofJson other, .json content'] ∧
      ShareText (QueryBuf.upsert schema m id content) (QueryBuf.upsert schema m other content')
        [.ofJson id, .json content] [.ofJson other, .json content'] ∧
      ShareText (QueryBuf.delete schema m id) (QueryBuf.delete schema m other) [.ofJson id] [.ofJson other] := by
  simp only [QueryBuf.select_eq, QueryBuf.count_eq, QueryBuf.selectById_eq, QueryBuf.insert_eq, QueryBuf.upsert_eq,
    QueryBuf.delete_eq]
  exact ⟨(select_alike schema m h sort offset limit).shareText (params_select ..) (params_select ..),
    (count_alike schema m h).shareText (params_count ..) (params_count ..),
    (selectById_alike schema m id other).shareText rfl rfl,
    (insert_alike schema m id other content content').shareText rfl rfl,
    (upsert_alike schema m id other content content').shareText rfl rfl,
    (delete_alike schema m id other).shareText rfl rfl⟩

end Statements

end Sql

namespace Household

/-- The path from a person to the numbers of the pets. -/
def petIds : AccessPath :=
  ⟨[⟨"pets", "id", "pets", "id", .mapped "owner" false⟩], "id", .long, true⟩

/-- The people of a name who have one of some pets, or whose name is like a pattern. -/
def search (called : String) (petNumbers : List Json) (pattern : String) : Predicate :=
  let name : AccessPath := ⟨[], "name", .string, false⟩
  .or [.and [.compare name .eq (.str called), .among petIds petNumbers], .like name pattern]

end Household

namespace Sql

open Household

/-- Neither a name that would end a literal nor a number of a pet shows, and a text that is no number is
left out. -/
theorem names_of_people_stay_out_of_text :
    let p := search "Ada" [.ofNat 1, .str "many"] "A%"
    let q := search "' OR TRUE; --" [.ofNat 7, .null] "%'"
    p.SameForm q ∧
      ShareText (QueryBuf.select "app" person (some p) none none (some 20))
        (QueryBuf.select "app" person (some q) none none (some 20))
        [.text "Ada", .int 1, .text "A%"] [.text "' OR TRUE; --", .int 7, .text "%'"] ∧
      ShareText (QueryBuf.delete "app" person (.ofNat 1)) (QueryBuf.delete "app" person (.str "1"))
        [.int 1] [.text "1"] := by
  have h : (search "Ada" [.ofNat 1, .str "many"] "A%").SameForm
      (search "' OR TRUE; --" [.ofNat 7, .null] "%'") :=
    .or (.cons (.and (.cons (.compare .eq rfl) (.cons (.among (.cons rfl (.cons rfl .nil))) .nil)))
      (.cons (.like _ _ _) .nil))
  obtain ⟨hselect, -, -, -, -, hdelete⟩ :=
    values_stay_out_of_text "app" person (.ofNat 1) (.str "1") .null .null (.some h) none none (some 20)
  exact ⟨h, hselect, hdelete⟩

example : (QueryBuf.count "app" person (some (.among petIds [.ofNat 7, .null]))).sql =
    "SELECT COUNT(*) FROM \"app\".\"people\" t0 WHERE EXISTS (SELECT 1 FROM \"app\".\"pets\" t1 WHERE " ++
    "t1.\"payload\" -> 'owner' = to_jsonb(t0.\"id\") AND t1.\"id\" IN ($1::bigint))" := by
  cbv

end Sql

end EntityGraph
