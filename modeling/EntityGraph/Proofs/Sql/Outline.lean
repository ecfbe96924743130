import EntityGraph.Proofs.Sql.Scope

namespace EntityGraph

def Link.unnamed : Link → Link
  | .owned many => .owned many
  | .mapped _ many => .mapped "" many

def Hop.slot (hop : Hop) : String :=
  match hop.link with
  | .owned _ => hop.relation
  | .mapped owner _ => owner

def Hop.unnamed (hop : Hop) : Hop :=
  ⟨"", "", "", "", hop.link.unnamed⟩

def AccessPath.unnamed (path : AccessPath) : AccessPath :=
  ⟨path.hops.map Hop.unnamed, "", path.type, path.isIdentity⟩

/-- A predicate without the names of its models, relations and fields. Values and types are kept. -/
def Predicate.unnamed : Predicate → Predicate
  | .compare path op v => .compare path.unnamed op v
  | .isNull path => .isNull path.unnamed
  | .isNotNull path => .isNotNull path.unnamed
  | .like path pattern => .like path.unnamed pattern
  | .among path vs => .among path.unnamed vs
  | .between path low high => .between path.unnamed low high
  | .and parts => .and (ofParts parts)
  | .or parts => .or (ofParts parts)
  | .never => .never
termination_by structural p => p
where
  ofParts : List Predicate → List Predicate
    | [] => []
    | p :: rest => unnamed p :: ofParts rest
  termination_by structural ps => ps

namespace Sql

def hopTexts (schema : String) (hop : Hop) : List String :=
  [schema, hop.target, "payload", hop.slot, "id"]

def endTexts (path : AccessPath) : List String :=
  if path.isIdentity then ["id"] else ["payload", path.field]

def pathTexts (schema : String) (path : AccessPath) (compared : Bool) : List String :=
  path.hops.flatMap (hopTexts schema) ++ if compared then endTexts path else []

def conditionTexts (schema : String) : Predicate → List String
  | .compare path _ v => pathTexts schema path (bindable v path.type)
  | .isNull path | .isNotNull path | .like path _ => pathTexts schema path true
  | .among path vs => pathTexts schema path (vs.any (bindable · path.type))
  | .between path low high => pathTexts schema path (bindable low path.type && bindable high path.type)
  | .and parts | .or parts => ofParts parts
  | .never => []
termination_by structural p => p
where
  ofParts : List Predicate → List String
    | [] => []
    | p :: rest => conditionTexts schema p ++ ofParts rest
  termination_by structural ps => ps

namespace Lexeme

def outline : Lexeme → Lexeme
  | .quoted q _ => .quoted q []
  | x => x

def quotedText? : Lexeme → Option String
  | .quoted _ cs => some (String.ofList cs)
  | _ => none

def isUnquoted (cs : List Char) : Bool :=
  cs.all fun c => (quote? c).isNone

variable {c : Char} {cs ds : List Char} {xs : List Lexeme}

theorem isNone_quote? (h : isWordChar c = true) : (quote? c).isNone = true := by
  unfold quote?
  split_ifs with hname hliteral
  · rw [hname] at h
    cases h
  · rw [hliteral] at h
    cases h
  · rfl

theorem start_of_isUnquoted (h : (quote? c).isNone = true) :
    (start c).1.filterMap quotedText? = [] ∧ ∃ ds, (start c).2 = .word ds := by
  rw [Option.isNone_iff_eq_none] at h
  unfold start
  split
  · exact ⟨rfl, _, rfl⟩
  · rw [h]
    dsimp only
    split
    · exact ⟨rfl, _, rfl⟩
    · exact ⟨rfl, _, rfl⟩

theorem step_of_isUnquoted (ds : List Char) (h : (quote? c).isNone = true) :
    (step (.word ds) c).1.filterMap quotedText? = [] ∧ ∃ es, (step (.word ds) c).2 = .word es := by
  cases ds with
  | nil => exact start_of_isUnquoted h
  | cons d ds =>
    rw [step]
    split
    · exact ⟨rfl, _, rfl⟩
    · exact start_of_isUnquoted h
    · exact List.cons_ne_nil d ds

theorem scan_of_isUnquoted (ds : List Char) (h : isUnquoted cs = true) :
    (scan (.word ds) cs).1.filterMap quotedText? = [] ∧ ∃ es, (scan (.word ds) cs).2 = .word es := by
  induction cs generalizing ds with
  | nil => exact ⟨rfl, ds, rfl⟩
  | cons c rest ih =>
    obtain ⟨hc, hrest⟩ := Bool.and_eq_true_iff.mp h
    obtain ⟨htexts, es, hes⟩ := step_of_isUnquoted ds hc
    rw [scan, List.filterMap_append, htexts, hes]
    exact ih es hrest

theorem filterMap_quotedText?_of_isUnquoted (h : isUnquoted cs = true) :
    ((read? cs).getD []).filterMap quotedText? = [] := by
  obtain ⟨htexts, ds, hds⟩ := scan_of_isUnquoted [] h
  rw [read?, hds]
  cases ds with
  | nil => simpa [Pending.finish?] using htexts
  | cons d ds => simpa [Pending.finish?, quotedText?] using htexts

/-- Whether a character belongs to a text that is in quotes, or ends it. -/
def Pending.holds (c : Char) : Pending → Bool
  | .word _ => false
  | .inside _ _ => true
  | .closed q _ => c == q.mark

/-- What stands outside of quotes, with one quote in the place of each quoted text. -/
def outside (p : Pending) : List Char → List Char
  | [] => []
  | c :: rest => if p.holds c then outside (step p c).2 rest else c :: outside (step p c).2 rest

theorem outside_append (p : Pending) (cs ds : List Char) :
    outside p (cs ++ ds) = outside p cs ++ outside (scan p cs).2 ds := by
  induction cs generalizing p with
  | nil => rfl
  | cons c rest ih =>
    rw [List.cons_append, outside, outside, scan, ih]
    split <;> rfl

theorem outside_of_not_continues {p : Pending} (hfinish : p.finish? = some xs)
    (h : ∀ c ∈ cs.head?, p.continues c = false) : outside p cs = outside (.word []) cs := by
  cases cs with
  | nil => rfl
  | cons c rest =>
    have hc : p.holds c = false := by
      cases p with
      | word ds => rfl
      | inside q ds => cases hfinish
      | closed q ds => exact h c rfl
    have hstart : (step (.word []) c).2 = (start c).2 := rfl
    rw [outside, outside, hc, step_of_not_continues hfinish (h c rfl), hstart]
    rfl

theorem outside_append_of_apart (h : Apart cs ds) (hcs : read? cs = some xs) :
    outside (.word []) (cs ++ ds) = outside (.word []) cs ++ outside (.word []) ds := by
  obtain ⟨ys, hys, -⟩ := Option.map_eq_some_iff.mp hcs
  rw [outside_append, outside_of_not_continues hys (not_continues_of_apart h hys)]

theorem outside_quoted (q : Quote) (s : String) : outside (.word []) (Text.quoted q.mark s) = [q.mark] := by
  have hinside (ds es : List Char) : outside (.inside q es) (Text.double q.mark ds ++ [q.mark]) = [] := by
    induction ds generalizing es with
    | nil => rfl
    | cons d rest ih =>
      rw [Text.double]
      by_cases hd : d = q.mark
      · simp [outside, Pending.holds, step, ih, hd]
      · simp [outside, Pending.holds, step, ih, hd]
  have hstart : (step (.word []) q.mark).2 = .inside q [] := by cases q <;> rfl
  have hopen : outside (.word []) (Text.quoted q.mark s) =
      q.mark :: outside (step (.word []) q.mark).2 (Text.double q.mark s.toList ++ [q.mark]) := rfl
  rw [hopen, hstart, hinside]

end Lexeme

namespace Token

open Lexeme

def isClean : Token → Bool
  | .plain s => isUnquoted s.toList
  | _ => true

def text? : Token → Option String
  | .name s | .literal s => some s
  | _ => none

theorem quotedTexts_lexemesOf {x : Token} (h : x.isClean = true) (n : Nat) :
    (x.lexemesOf n).filterMap quotedText? = x.text?.toList := by
  match x with
  | .plain s => exact filterMap_quotedText?_of_isUnquoted h
  | .name s | .literal s => simp [lexemesOf, quotedText?, text?]
  | .alias k | .param v | .openParen | .closeParen => rfl

end Token

/-- Tokens that are those of a template, with the given texts in the quotes of it. What stands in quotes in every
statement, such as the name of a column, is given as well, so that a template can be filled in one way only. -/
inductive Filled : List Token → List String → List Token → Prop
  | nil : Filled [] [] []
  | same {t s texts} (x : Token) (hx : x.isClean = true) (h : Filled t texts s) :
      Filled (x :: t) (x.text?.toList ++ texts) (x :: s)
  | name {t s texts} (a b : String) (h : Filled t texts s) : Filled (.name a :: t) (b :: texts) (.name b :: s)
  | literal {t s texts} (a b : String) (h : Filled t texts s) :
      Filled (.literal a :: t) (b :: texts) (.literal b :: s)

namespace Filled

open Lexeme Token

variable {s s' t t' : List Token} {texts texts' : List String} {schema : String}

theorem outline_eq (h : Filled t texts s) (n : Nat) :
    (lexemes n s).map outline = (lexemes n t).map outline := by
  induction h generalizing n with
  | nil => rfl
  | same x hx _ ih => simp only [lexemes, List.map_append, ih]
  | name a b _ ih | literal a b _ ih => exact congrArg (List.cons _) (ih n)

theorem quotedTexts_eq (h : Filled t texts s) (n : Nat) : (lexemes n s).filterMap quotedText? = texts := by
  induction h generalizing n with
  | nil => rfl
  | same x hx _ ih => rw [lexemes, List.filterMap_append, quotedTexts_lexemesOf hx, ih]
  | name a b _ ih | literal a b _ ih =>
    rw [lexemes, List.filterMap_append, quotedTexts_lexemesOf rfl, ih]
    rfl

theorem outside_eq (h : Filled t texts s) (ht : Legible t) (hs : Legible s) (n : Nat) :
    outside (.word []) (write n s) = outside (.word []) (write n t) := by
  have hsplit {x : Token} {u : List Token} (hu : Legible (x :: u)) (n : Nat) :
      outside (.word []) (write n (x :: u)) =
        outside (.word []) (x.chars n) ++ outside (.word []) (write (x.next n) u) := by
    rw [write_cons, outside_append_of_apart hu.apart_write (read?_chars (hu.each x List.mem_cons_self))]
  -- both texts are cut behind the same token, which leaves the same characters in each
  induction h generalizing n with
  | nil => rfl
  | same x hx _ ih => rw [hsplit hs, hsplit ht, ih ht.tail hs.tail]
  | name a b _ ih =>
    rw [hsplit hs, hsplit ht, chars, chars]
    exact congrArg₂ _ ((outside_quoted .name b).trans (outside_quoted .name a).symm) (ih ht.tail hs.tail n)
  | literal a b _ ih =>
    rw [hsplit hs, hsplit ht, chars, chars]
    exact congrArg₂ _ ((outside_quoted .literal b).trans (outside_quoted .literal a).symm) (ih ht.tail hs.tail n)

theorem append (h : Filled t texts s) (h' : Filled t' texts' s') :
    Filled (t ++ t') (texts ++ texts') (s ++ s') := by
  induction h with
  | nil => exact h'
  | same x hx _ ih => simpa using ih.same x hx
  | name a b _ ih => exact ih.name a b
  | literal a b _ ih => exact ih.literal a b

theorem self (s : List Token) (h : s.all isClean = true) : Filled s (s.filterMap text?) s := by
  induction s with
  | nil => exact .nil
  | cons x rest ih =>
    obtain ⟨hx, hrest⟩ := Bool.and_eq_true_iff.mp h
    have hself := (ih hrest).same x hx
    cases hx : x.text? <;> simpa [hx] using hself

theorem plain (w : String) (h : isUnquoted w.toList = true) (hs : Filled t texts s) :
    Filled (.plain w :: t) texts (.plain w :: s) :=
  hs.same _ h

theorem append_bare (h : Filled t texts s) (h' : Filled t' [] s') : Filled (t ++ t') texts (s ++ s') := by
  simpa using h.append h'

theorem parens (h : Filled t texts s) : Filled (parens t) texts (parens s) :=
  (h.append_bare (self [.closeParen] rfl)).same .openParen rfl

theorem table (schema path : String) : Filled (table "" "") [schema, path] (table schema path) :=
  .name _ _ (.plain _ rfl (.name _ _ .nil))

theorem idColumn (k : Nat) : Filled (idColumn k) ["id"] (idColumn k) :=
  .self _ rfl

theorem payloadText (k : Nat) (field : String) :
    Filled (payloadText k "") ["payload", field] (payloadText k field) :=
  ((self (payload k) rfl).append (.plain _ rfl (.literal _ _ .nil))).parens

theorem isUnquoted_cast {type : FieldType} {cast : String} (h : castOf? type = some cast) :
    isUnquoted ("::" ++ cast).toList = true := by
  cases type <;> cases h <;> decide

theorem payloadValue (k : Nat) (field : String) (type : FieldType) :
    Filled (payloadValue k "" type) ["payload", field] (payloadValue k field type) := by
  unfold Sql.payloadValue
  split
  · next cast hcast => exact ((payloadText k field).append (.plain _ (isUnquoted_cast hcast) .nil)).parens
  · exact payloadText k field

theorem typedParam (v : Json) (type : FieldType) : Filled (typedParam v type) [] (typedParam v type) := by
  unfold Sql.typedParam
  cases hcast : castOf? type with
  | none => exact .self _ rfl
  | some cast => exact (self [.param (.ofJson v)] rfl).append (.plain _ (isUnquoted_cast hcast) .nil)

theorem join (parent child : Nat) (hop : Hop) :
    Filled (join parent child hop.unnamed) ["payload", hop.slot, "id"] (join parent child hop) := by
  have slot (holder referenced : Nat) (field : String) (many : Bool) :
      Filled (payload holder ++ [.plain " -> ", .literal ""] ++
          (if many then .plain " @> jsonb_build_array" :: Sql.parens (Sql.idColumn referenced)
            else .plain " = to_jsonb" :: Sql.parens (Sql.idColumn referenced))) ["payload", field, "id"]
        (payload holder ++ [.plain " -> ", .literal field] ++
          (if many then .plain " @> jsonb_build_array" :: Sql.parens (Sql.idColumn referenced)
            else .plain " = to_jsonb" :: Sql.parens (Sql.idColumn referenced))) := by
    have hfield : Filled [.plain " -> ", .literal ""] [field] [.plain " -> ", .literal field] :=
      .plain _ rfl (.literal _ _ .nil)
    have hslot := (self (payload holder) rfl).append hfield
    cases many with
    | true => exact hslot.append (.plain _ rfl (idColumn referenced).parens)
    | false => exact hslot.append (.plain _ rfl (idColumn referenced).parens)
  obtain ⟨relation, source, target, identity, link⟩ := hop
  cases link with
  | owned many => exact slot parent child relation many
  | mapped owner many => exact slot child parent owner many

theorem endText (path : AccessPath) (k : Nat) :
    Filled (endText path.unnamed k) (endTexts path) (endText path k) := by
  unfold Sql.endText endTexts AccessPath.unnamed
  dsimp only
  split
  · exact (idColumn k).append (.self _ rfl)
  · exact payloadText k path.field

theorem endValue (path : AccessPath) (k : Nat) :
    Filled (endValue path.unnamed k) (endTexts path) (endValue path k) := by
  unfold Sql.endValue endTexts AccessPath.unnamed
  dsimp only
  split
  · exact idColumn k
  · exact payloadValue k path.field path.type

theorem within {c d : Nat → List Token} (h : ∀ k, Filled (c k) texts (d k)) (hops : List Hop)
    (next parent : Nat) : Filled (within "" next parent c (hops.map Hop.unnamed))
      (hops.flatMap (hopTexts schema) ++ texts) (within schema next parent d hops) := by
  induction hops generalizing next parent with
  | nil => exact h parent
  | cons hop rest ih =>
    have hfrom : Filled (.plain "SELECT 1 FROM " :: Sql.table "" "") [schema, hop.target]
        (.plain "SELECT 1 FROM " :: Sql.table schema hop.target) := .plain _ rfl (table schema hop.target)
    have hwhere := hfrom.append (self [.plain " ", .alias next, .plain " WHERE "] rfl)
    have hbody := (hwhere.append (join parent next hop)).append (.plain " AND " rfl (ih (next + 1) next))
    have hexists := Filled.plain "EXISTS " rfl hbody.parens
    simpa [Sql.within, hopTexts] using! hexists

theorem joined_cons {separator : String} (hs : isUnquoted separator.toList = true) {ts ss : List (List Token)}
    (h : Filled t texts s) (hrest : Filled (joined separator (t' :: ts)) texts' (joined separator (s' :: ss))) :
    Filled (joined separator (t :: t' :: ts)) (texts ++ texts') (joined separator (s :: s' :: ss)) :=
  h.append (.plain _ hs hrest)

theorem members (type : FieldType) : ∀ vs : List Json,
    Filled (joined ", " (vs.map (Sql.typedParam · type))) [] (joined ", " (vs.map (Sql.typedParam · type)))
  | [] => .nil
  | [v] => typedParam v type
  | v :: w :: rest => (typedParam v type).joined_cons rfl (members type (w :: rest))

theorem falsity : Filled falsity [] falsity :=
  .self _ rfl

end Filled

mutual

theorem hopCount_unnamed : ∀ p : Predicate, hopCount p.unnamed = hopCount p
  | .compare .. | .isNull _ | .isNotNull _ | .like .. | .among .. | .between .. => List.length_map _
  | .and parts | .or parts => hopCounts_unnamed parts
  | .never => rfl

theorem hopCounts_unnamed : ∀ ps : List Predicate,
    hopCount.hopCounts (Predicate.unnamed.ofParts ps) = hopCount.hopCounts ps
  | [] => rfl
  | p :: rest => congrArg₂ (· + ·) (hopCount_unnamed p) (hopCounts_unnamed rest)

end

section Conditions

variable {schema : String}

mutual

theorem condition_filled : ∀ (p : Predicate) (next : Nat),
    Filled (condition "" next p.unnamed) (conditionTexts schema p) (condition schema next p)
  | .compare path op v, next => by
    refine Filled.within (fun k => ?_) path.hops next 0
    have hsign : Lexeme.isUnquoted (comparisonSign op).toList = true := by cases op <;> rfl
    unfold AccessPath.unnamed
    dsimp only
    split
    · exact (Filled.endValue path k).append_bare (.plain _ hsign (.typedParam v path.type))
    · exact .falsity
  | .isNull path, next => Filled.within (fun k => (Filled.endText path k).append_bare (.self _ rfl)) path.hops next 0
  | .isNotNull path, next => Filled.within (fun k => (Filled.endText path k).append_bare (.self _ rfl)) path.hops next 0
  | .like path pattern, next =>
    Filled.within (fun k => (Filled.endText path k).append_bare (.plain _ rfl (.self _ rfl))) path.hops next 0
  | .among path vs, next => by
    refine Filled.within (fun k => ?_) path.hops next 0
    have hempty : (vs.filter (bindable · path.type)).isEmpty = !vs.any (bindable · path.type) := by
      rw [Bool.eq_iff_iff]
      simp
    unfold AccessPath.unnamed
    dsimp only
    rw [hempty]
    cases vs.any (bindable · path.type) with
    | false => exact .falsity
    | true =>
      exact (Filled.endValue path k).append_bare (.plain _ rfl (Filled.members path.type _).parens)
  | .between path low high, next => by
    refine Filled.within (fun k => ?_) path.hops next 0
    unfold AccessPath.unnamed
    dsimp only
    split
    · exact ((Filled.endValue path k).append_bare (.plain _ rfl (.typedParam low path.type))).append_bare
        (.plain _ rfl (.typedParam high path.type))
    · exact .falsity
  -- an empty conjunction has no parentheses
  | .and [], _ => .self _ rfl
  | .and (p :: rest), next => (conditions_filled rfl (p :: rest) next).parens
  | .or [], _ => .falsity
  | .or (p :: rest), next => (conditions_filled rfl (p :: rest) next).parens
  | .never, _ => .falsity

theorem conditions_filled {separator : String} (hs : Lexeme.isUnquoted separator.toList = true) :
    ∀ (ps : List Predicate) (next : Nat),
      Filled (joined separator (conditions "" next (Predicate.unnamed.ofParts ps)))
        (conditionTexts.ofParts schema ps) (joined separator (conditions schema next ps))
  | [], _ => .nil
  | [p], next => by
    have hp : Filled (condition "" next p.unnamed) _ (condition schema next p) := condition_filled p next
    rw [conditionTexts.ofParts, conditionTexts.ofParts, List.append_nil]
    exact hp
  | p :: q :: rest, next => by
    have hunnamed : conditions "" next (Predicate.unnamed.ofParts (p :: q :: rest)) =
        condition "" next p.unnamed ::
          conditions "" (next + hopCount p) (Predicate.unnamed.ofParts (q :: rest)) := by
      rw [← hopCount_unnamed p]
      rfl
    rw [hunnamed]
    exact (condition_filled p next).joined_cons hs (conditions_filled hs (q :: rest) _)

end

end Conditions

end Sql

end EntityGraph
