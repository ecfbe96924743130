import EntityGraph.Text
import Mathlib.Data.Option.Basic

namespace EntityGraph.Sql

inductive Quote
  | name
  | literal
  deriving DecidableEq

def Quote.mark : Quote → Char
  | name => '"'
  | literal => '\''

/-- A piece of a text: a run of letters and digits, what stands between two quotes, or any other character. -/
inductive Lexeme
  | word (cs : List Char)
  | quoted (q : Quote) (cs : List Char)
  | sign (c : Char)
  deriving DecidableEq

namespace Lexeme

def isWordChar (c : Char) : Bool :=
  c.isAlphanum || c == '_' || c == '$' || 128 ≤ c.toNat

def isSpace (c : Char) : Bool :=
  c == ' ' || (9 ≤ c.toNat && c.toNat ≤ 13)

def quote? (c : Char) : Option Quote :=
  if c = '"' then some .name else if c = '\'' then some .literal else none

def isSolid (c : Char) : Bool :=
  isWordChar c || (quote? c).isSome

/-- What is being read. Behind a quote it is open whether the quoted text is at its end, since a second quote makes
both of them a part of it. -/
inductive Pending
  | word (cs : List Char)
  | inside (q : Quote) (cs : List Char)
  | closed (q : Quote) (cs : List Char)

namespace Pending

def finish? : Pending → Option (List Lexeme)
  | word [] => some []
  | word cs => some [.word cs]
  | inside _ _ => none
  | closed q cs => some [.quoted q cs]

def continues (c : Char) : Pending → Bool
  | word cs => !cs.isEmpty && isWordChar c
  | inside _ _ => true
  | closed q _ => c == q.mark

end Pending

def start (c : Char) : List Lexeme × Pending :=
  if isWordChar c then ([], .word [c])
  else match quote? c with
    | some q => ([], .inside q [])
    | none => if isSpace c then ([], .word []) else ([.sign c], .word [])

def step (p : Pending) (c : Char) : List Lexeme × Pending :=
  match p with
  | .word [] => start c
  | .word cs => if isWordChar c then ([], .word (cs ++ [c])) else (.word cs :: (start c).1, (start c).2)
  | .inside q cs => if c = q.mark then ([], .closed q cs) else ([], .inside q (cs ++ [c]))
  | .closed q cs =>
      if c = q.mark then ([], .inside q (cs ++ [c])) else (.quoted q cs :: (start c).1, (start c).2)

def scan (p : Pending) : List Char → List Lexeme × Pending
  | [] => ([], p)
  | c :: rest => ((step p c).1 ++ (scan (step p c).2 rest).1, (scan (step p c).2 rest).2)

def read? (cs : List Char) : Option (List Lexeme) :=
  (scan (.word []) cs).2.finish?.map ((scan (.word []) cs).1 ++ ·)

variable {p : Pending} {q : Quote} {c d : Char} {cs ds : List Char} {xs ys : List Lexeme}

theorem scan_append (p : Pending) (cs ds : List Char) : scan p (cs ++ ds) =
    ((scan p cs).1 ++ (scan (scan p cs).2 ds).1, (scan (scan p cs).2 ds).2) := by
  induction cs generalizing p with
  | nil => rfl
  | cons c rest ih => simp [scan, ih]

theorem step_of_not_continues (hp : p.finish? = some xs) (hc : p.continues c = false) :
    step p c = (xs ++ (start c).1, (start c).2) := by
  cases p with
  | word ds =>
    cases ds with
    | nil =>
      obtain rfl := Option.some.inj hp
      rfl
    | cons d ds =>
      obtain rfl := Option.some.inj hp
      have hword : isWordChar c = false := hc
      simp [step, hword]
  | inside q ds => cases hp
  | closed q ds =>
    obtain rfl := Option.some.inj hp
    have hne : c ≠ q.mark := by simpa [Pending.continues] using hc
    simp [step, hne]

theorem isSolid_of_start (hp : (start c).2.finish? = some xs) (h : (start c).2.continues d = true) :
    isSolid c = true ∧ isSolid d = true := by
  unfold start at hp h
  split at hp
  · next hword =>
    rw [if_pos hword] at h
    have hd : isWordChar d = true := h
    exact ⟨by simp [isSolid, hword], by simp [isSolid, hd]⟩
  · next hword =>
    rw [if_neg hword] at h
    split at hp
    · cases hp
    · next hquote =>
      rw [hquote] at h
      dsimp only at h
      split at h <;> cases h

theorem quote?_mark (q : Quote) : quote? q.mark = some q := by
  cases q <;> rfl

theorem isSolid_of_step (hp : (step p c).2.finish? = some xs) (h : (step p c).2.continues d = true) :
    isSolid c = true ∧ isSolid d = true := by
  cases p with
  | word ds =>
    cases ds with
    | nil => exact isSolid_of_start hp h
    | cons e ds =>
      simp only [step] at hp h
      split at hp
      · next hword =>
        rw [if_pos hword] at h
        have hd : isWordChar d = true := by simpa [Pending.continues] using h
        exact ⟨by simp [isSolid, hword], by simp [isSolid, hd]⟩
      · next hword =>
        rw [if_neg hword] at h
        exact isSolid_of_start hp h
  | inside q ds =>
    simp only [step] at hp h
    split at hp
    · next hmark =>
      rw [if_pos hmark] at h
      have hd : d = q.mark := by simpa [Pending.continues] using h
      rw [hmark, hd]
      exact ⟨by simp [isSolid, quote?_mark], by simp [isSolid, quote?_mark]⟩
    · cases hp
  | closed q ds =>
    simp only [step] at hp h
    split at hp
    · cases hp
    · next hmark =>
      rw [if_neg hmark] at h
      exact isSolid_of_start hp h

/-- Texts that can stand side by side without a piece that reaches into both. -/
def Apart (cs ds : List Char) : Prop :=
  ∀ c ∈ cs.getLast?, ∀ d ∈ ds.head?, isSolid c = false ∨ isSolid d = false

theorem read?_append_of_not_continues (hfinish : (scan (.word []) cs).2.finish? = some ys)
    (h : ∀ d ∈ ds.head?, (scan (.word []) cs).2.continues d = false) :
    read? (cs ++ ds) = (read? ds).map ((scan (.word []) cs).1 ++ ys ++ ·) := by
  rw [read?, read?, scan_append]
  dsimp only
  cases ds with
  | nil =>
    have hnothing : (Pending.word []).finish? = some [] := rfl
    simp [scan, hfinish, hnothing]
  | cons d rest =>
    have hstart : step (.word []) d = start d := rfl
    simp only [scan, step_of_not_continues hfinish (h d rfl), hstart]
    cases (scan (start d).2 rest).2.finish? <;> simp

theorem not_continues_of_apart (h : Apart cs ds) (hfinish : (scan (.word []) cs).2.finish? = some ys) :
    ∀ d ∈ ds.head?, (scan (.word []) cs).2.continues d = false := by
  intro d hd
  rcases List.eq_nil_or_concat cs with rfl | ⟨init, c, rfl⟩
  · rfl
  · rw [Bool.eq_false_iff]
    intro hcontinues
    rw [List.concat_eq_append, scan_append] at hfinish hcontinues
    obtain ⟨hc, hsolid⟩ := isSolid_of_step hfinish hcontinues
    rcases h c (by simp) d hd with hfalse | hfalse
    · rw [hc] at hfalse; cases hfalse
    · rw [hsolid] at hfalse; cases hfalse

/-- Texts that are apart are read one after the other. -/
theorem read?_append (h : Apart cs ds) (hcs : read? cs = some xs) :
    read? (cs ++ ds) = (read? ds).map (xs ++ ·) := by
  obtain ⟨ys, hys, rfl⟩ := Option.map_eq_some_iff.mp hcs
  exact read?_append_of_not_continues hys (not_continues_of_apart h hys)

theorem scan_inside (q : Quote) (cs ds : List Char) :
    scan (.inside q cs) (Text.double q.mark ds ++ [q.mark]) = ([], .closed q (cs ++ ds)) := by
  induction ds generalizing cs with
  | nil => simp [Text.double, scan, step]
  | cons d rest ih =>
    rw [Text.double]
    by_cases hd : d = q.mark
    · rw [if_pos hd]
      simp [scan, step, ih, hd]
    · rw [if_neg hd]
      simp [scan, step, ih, hd]

theorem scan_quoted (q : Quote) (s : String) :
    scan (.word []) (Text.quoted q.mark s) = ([], .closed q s.toList) := by
  have hstart : step (.word []) q.mark = ([], .inside q []) := by cases q <;> rfl
  rw [Text.quoted, List.cons_append, scan, hstart, scan_inside]
  rfl

theorem read?_quoted (q : Quote) (s : String) : read? (Text.quoted q.mark s) = some [.quoted q s.toList] := by
  rw [read?, scan_quoted]
  rfl

/-- A quoted text is one piece in front of anything but the same quote. -/
theorem read?_quoted_append (q : Quote) (s : String) (h : cs.head? ≠ some q.mark) :
    read? (Text.quoted q.mark s ++ cs) = (read? cs).map (.quoted q s.toList :: ·) := by
  have hfinish : (scan (.word []) (Text.quoted q.mark s)).2.finish? = some [.quoted q s.toList] := by
    rw [scan_quoted]
    rfl
  rw [read?_append_of_not_continues hfinish, scan_quoted]
  · rfl
  · intro d hd
    rw [scan_quoted]
    exact beq_false_of_ne fun hmark => h (hmark ▸ hd)

theorem scan_word (hne : cs ≠ []) (h : ∀ c ∈ ds, isWordChar c = true) :
    scan (.word cs) ds = ([], .word (cs ++ ds)) := by
  induction ds generalizing cs with
  | nil => simp [scan]
  | cons d rest ih =>
    obtain ⟨hd, hrest⟩ := List.forall_mem_cons.mp h
    obtain ⟨c, cs, rfl⟩ := List.exists_cons_of_ne_nil hne
    simp [scan, step, hd, ih (List.cons_ne_nil c (cs ++ [d])) hrest]

theorem read?_word (hne : cs ≠ []) (h : ∀ c ∈ cs, isWordChar c = true) : read? cs = some [.word cs] := by
  obtain ⟨c, rest, rfl⟩ := List.exists_cons_of_ne_nil hne
  obtain ⟨hc, hrest⟩ := List.forall_mem_cons.mp h
  have hstart : step (.word []) c = ([], .word [c]) := by simp [step, start, hc]
  rw [read?, scan, hstart, scan_word (List.cons_ne_nil c []) hrest]
  rfl

example : read? "t1.\"a\"\"$2\" ->> ') t9'".toList =
    some [.word ['t', '1'], .sign '.', .quoted .name "a\"$2".toList, .sign '-', .sign '>', .sign '>',
      .quoted .literal ") t9".toList] := by
  decide

end Lexeme

end EntityGraph.Sql
