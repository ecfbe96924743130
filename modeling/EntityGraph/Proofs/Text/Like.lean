import EntityGraph.Text
import Mathlib.Data.List.Forall2
import Mathlib.Data.List.Infix

namespace EntityGraph.Text

/-- Piece by piece, a percent sign stands for any run of characters, a low line for one character, and
every other character for itself. -/
inductive Matches : List Char → List Char → Prop
  | nil : Matches [] []
  | run {pattern rest : List Char} (run : List Char) (h : Matches pattern rest) :
      Matches ('%' :: pattern) (run ++ rest)
  | one {pattern rest : List Char} (c : Char) (h : Matches pattern rest) :
      Matches ('_' :: pattern) (c :: rest)
  | self {pattern rest : List Char} {c : Char} (hpercent : c ≠ '%') (hline : c ≠ '_')
      (h : Matches pattern rest) : Matches (c :: pattern) (c :: rest)

variable {pattern text rest : List Char} {c x : Char}

theorem matches_nil_iff : Matches [] text ↔ text = [] := by
  constructor
  · rintro ⟨⟩
    rfl
  · rintro rfl
    exact .nil

theorem matches_percent_iff :
    Matches ('%' :: pattern) text ↔ ∃ run rest, text = run ++ rest ∧ Matches pattern rest := by
  constructor
  · intro h
    generalize hp : '%' :: pattern = p at h
    cases h with
    | nil => cases hp
    | run run h =>
      obtain ⟨-, rfl⟩ := List.cons.inj hp
      exact ⟨run, _, rfl, h⟩
    | one => cases hp
    | self hpercent => exact absurd (List.cons.inj hp).1.symm hpercent
  · rintro ⟨run, rest, rfl, h⟩
    exact .run run h

theorem matches_percent_nil_iff : Matches ('%' :: pattern) [] ↔ Matches pattern [] := by
  simp [matches_percent_iff]

theorem matches_percent_cons_iff : Matches ('%' :: pattern) (x :: text) ↔
    Matches pattern (x :: text) ∨ Matches ('%' :: pattern) text := by
  rw [matches_percent_iff, matches_percent_iff]
  constructor
  · rintro ⟨run, rest, htext, h⟩
    cases run with
    | nil => exact .inl (htext ▸ h)
    | cons y run => exact .inr ⟨run, rest, (List.cons.inj htext).2, h⟩
  · rintro (h | ⟨run, rest, rfl, h⟩)
    · exact ⟨[], _, rfl, h⟩
    · exact ⟨x :: run, rest, rfl, h⟩

theorem matches_line_iff : Matches ('_' :: pattern) (x :: text) ↔ Matches pattern text := by
  constructor
  · intro h
    cases h with
    | one _ h => exact h
    | self _ hline => exact absurd rfl hline
  · exact .one x

theorem matches_self_iff (hpercent : c ≠ '%') (hline : c ≠ '_') :
    Matches (c :: pattern) (x :: text) ↔ x = c ∧ Matches pattern text := by
  constructor
  · intro h
    generalize hp : c :: pattern = p at h
    generalize ht : x :: text = t at h
    cases h with
    | nil => cases hp
    | run => exact absurd (List.cons.inj hp).1 hpercent
    | one => exact absurd (List.cons.inj hp).1 hline
    | self _ _ h =>
      obtain ⟨rfl, rfl⟩ := List.cons.inj hp
      obtain ⟨rfl, rfl⟩ := List.cons.inj ht
      exact ⟨rfl, h⟩
  · rintro ⟨rfl, h⟩
    exact .self hpercent hline h

theorem not_matches_nil (hpercent : c ≠ '%') : ¬Matches (c :: pattern) [] := by
  intro h
  generalize hp : c :: pattern = p at h
  generalize ht : ([] : List Char) = t at h
  cases h with
  | nil => cases hp
  | run => exact absurd (List.cons.inj hp).1 hpercent
  | one => cases ht
  | self => cases ht

theorem matches_percent (run : List Char) : Matches ['%'] run := by
  simpa using Matches.run run .nil

theorem matches_line_only_iff : Matches ['_'] text ↔ ∃ x, text = [x] := by
  cases text with
  | nil => simp [not_matches_nil]
  | cons x text => simp [matches_line_iff, matches_nil_iff]

def Tabulates (text : List Char) (P : List Char → Prop) (bs : List Bool) : Prop :=
  List.Forall₂ (fun suffix b => b = true ↔ P suffix) text.tails bs

section Tables

variable {P Q : List Char → Prop} {b : Bool} {bs : List Bool}

theorem tabulates_cons_iff : Tabulates (x :: text) P (b :: bs) ↔
    (b = true ↔ P (x :: text)) ∧ Tabulates text P bs := by
  rw [Tabulates, List.tails_cons, List.forall₂_cons]
  rfl

theorem Tabulates.headD (h : Tabulates text P bs) : bs.headD false = true ↔ P text := by
  cases text with
  | nil =>
    cases h with
    | cons hb => exact hb
  | cons x text =>
    cases h with
    | cons hb => exact hb

theorem exists_of_tabulates_cons (h : Tabulates (x :: text) P bs) :
    ∃ b rest, bs = b :: rest ∧ (b = true ↔ P (x :: text)) ∧ Tabulates text P rest := by
  cases h with
  | cons hb hrest => exact ⟨_, _, rfl, hb, hrest⟩

theorem tabulates_nil_iff : Tabulates [] P bs ↔ ∃ b, bs = [b] ∧ (b = true ↔ P []) := by
  simp [Tabulates, List.forall₂_cons_left_iff, and_comm]

theorem Tabulates.runs (h : Tabulates text P bs) (hnil : Q [] ↔ P [])
    (hcons : ∀ x text, Q (x :: text) ↔ P (x :: text) ∨ Q text) :
    Tabulates text Q (bs.foldr (fun b later => (b || later.headD false) :: later) []) := by
  induction text generalizing bs with
  | nil =>
    obtain ⟨b, rfl, hb⟩ := tabulates_nil_iff.mp h
    exact tabulates_nil_iff.mpr ⟨_, rfl, by simp [hb, hnil]⟩
  | cons x text ih =>
    obtain ⟨b, rest, rfl, hb, hrest⟩ := exists_of_tabulates_cons h
    have hlater := ih hrest
    refine tabulates_cons_iff.mpr ⟨?_, hlater⟩
    rw [Bool.or_eq_true, hb, hlater.headD, hcons]

theorem Tabulates.advance (h : Tabulates text P bs) (accepts : Char → Bool) (hnil : ¬Q [])
    (hcons : ∀ x text, Q (x :: text) ↔ accepts x = true ∧ P text) :
    Tabulates text Q (List.zipWith (fun x b => accepts x && b) text (bs.drop 1) ++ [false]) := by
  induction text generalizing bs with
  | nil => exact tabulates_nil_iff.mpr ⟨false, rfl, by simp [hnil]⟩
  | cons x text ih =>
    obtain ⟨b, rest, rfl, -, hrest⟩ := exists_of_tabulates_cons h
    cases rest with
    | nil => cases text <;> cases hrest
    | cons b' rest =>
      refine tabulates_cons_iff.mpr ⟨?_, ih hrest⟩
      rw [Bool.and_eq_true, hcons, ← hrest.headD]
      rfl

theorem Tabulates.length_eq (h : Tabulates text P bs) : bs.length = text.length + 1 :=
  (List.Forall₂.length_eq h).symm.trans (List.length_tails text)

theorem tabulates_ends (text : List Char) :
    Tabulates text (· = []) (text.map (fun _ => false) ++ [true]) := by
  induction text with
  | nil => exact tabulates_nil_iff.mpr ⟨true, rfl, by simp⟩
  | cons x text ih => exact tabulates_cons_iff.mpr ⟨by simp, ih⟩

end Tables

theorem tabulates_likeSuffixes (text pattern : List Char) :
    Tabulates text (Matches pattern) (likeSuffixes text pattern) := by
  induction pattern with
  | nil =>
    exact (tabulates_ends text).imp fun _ _ h => h.trans matches_nil_iff.symm
  | cons c pattern ih =>
    by_cases hpercent : c = '%'
    · subst hpercent
      exact ih.runs matches_percent_nil_iff fun x text => matches_percent_cons_iff
    have hnil : ¬Matches (c :: pattern) [] := not_matches_nil hpercent
    by_cases hline : c = '_'
    · subst hline
      have hlength : ((likeSuffixes text pattern).drop 1).length = text.length := by
        rw [List.length_drop, ih.length_eq, Nat.add_sub_cancel]
      have h := ih.advance (fun _ => true) hnil fun x text => by
        simpa using matches_line_iff
      simp only [Bool.true_and] at h
      rwa [show List.zipWith (fun _ b => b) text _ = _ from
        List.map_uncurry_zip_eq_zipWith.symm.trans (List.map_snd_zip (Nat.le_of_eq hlength))] at h
    · have h := ih.advance (fun x => x == c) hnil fun x text => by
        simpa using matches_self_iff hpercent hline
      rw [likeSuffixes]
      · exact h
      · exact hpercent
      · exact hline

/-- The search finds just the texts that the pattern matches. -/
theorem like_iff {pattern text : String} : like pattern text = true ↔ Matches pattern.toList text.toList :=
  (tabulates_likeSuffixes text.toList pattern.toList).headD

section Parts

variable {front : List Char}

theorem Matches.append (hfront : Matches front text) (h : Matches pattern rest) :
    Matches (front ++ pattern) (text ++ rest) := by
  induction hfront with
  | nil => exact h
  | run run _ ih => exact List.append_assoc .. ▸ .run run ih
  | one c _ ih => exact .one c ih
  | self hpercent hline _ ih => exact .self hpercent hline ih

theorem matches_append_iff : Matches (front ++ pattern) text ↔
    ∃ first rest, text = first ++ rest ∧ Matches front first ∧ Matches pattern rest := by
  constructor
  · intro h
    induction front generalizing text with
    | nil => exact ⟨[], text, rfl, .nil, h⟩
    | cons c front ih =>
      generalize hp : c :: front ++ pattern = p at h
      cases h with
      | nil => cases hp
      | run run h =>
        obtain ⟨rfl, rfl⟩ := List.cons.inj hp
        obtain ⟨first, rest, rfl, hfirst, hrest⟩ := ih h
        exact ⟨run ++ first, rest, (List.append_assoc ..).symm, .run run hfirst, hrest⟩
      | one x h =>
        obtain ⟨rfl, rfl⟩ := List.cons.inj hp
        obtain ⟨first, rest, rfl, hfirst, hrest⟩ := ih h
        exact ⟨x :: first, rest, rfl, .one x hfirst, hrest⟩
      | self hpercent hline h =>
        obtain ⟨rfl, rfl⟩ := List.cons.inj hp
        obtain ⟨first, rest, rfl, hfirst, hrest⟩ := ih h
        exact ⟨c :: first, rest, rfl, .self hpercent hline hfirst, hrest⟩
  · rintro ⟨first, rest, rfl, hfirst, hrest⟩
    exact hfirst.append hrest

theorem matches_iff_eq (h : ∀ c ∈ pattern, c ≠ '%' ∧ c ≠ '_') : Matches pattern text ↔ text = pattern := by
  induction pattern generalizing text with
  | nil => exact matches_nil_iff
  | cons c pattern ih =>
    obtain ⟨⟨hpercent, hline⟩, hrest⟩ := List.forall_mem_cons.mp h
    cases text with
    | nil => exact iff_of_false (not_matches_nil hpercent) (List.cons_ne_nil _ _).symm
    | cons x text => rw [matches_self_iff hpercent hline, ih hrest, List.cons.injEq]

theorem matches_anywhere_iff (h : ∀ c ∈ pattern, c ≠ '%' ∧ c ≠ '_') :
    Matches ('%' :: (pattern ++ ['%'])) text ↔ pattern <:+: text := by
  simp only [matches_percent_iff, matches_append_iff, matches_iff_eq h]
  constructor
  · rintro ⟨run, _, rfl, _, rest, rfl, rfl, -⟩
    exact ⟨run, rest, List.append_assoc ..⟩
  · rintro ⟨run, rest, rfl⟩
    exact ⟨run, pattern ++ rest, List.append_assoc .., pattern, rest, rfl, rfl, rest, [],
      (List.append_nil rest).symm, .nil⟩

end Parts

end EntityGraph.Text
