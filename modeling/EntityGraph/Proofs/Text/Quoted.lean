import EntityGraph.Text
import Mathlib.Data.Option.Basic

namespace EntityGraph.Text

variable {q c : Char} {s : String} {cs ds rest : List Char}

theorem double_cons_self (q : Char) (ds : List Char) : double q (q :: ds) = q :: q :: double q ds :=
  if_pos rfl

theorem double_cons_of_ne (h : c ≠ q) (ds : List Char) : double q (c :: ds) = c :: double q ds :=
  if_neg h

theorem readDoubled_pair (q : Char) (cs : List Char) :
    readDoubled q (q :: q :: cs) = (readDoubled q cs).map fun p => (q :: p.1, p.2) := by
  simp [readDoubled]

theorem readDoubled_end (h : rest.head? ≠ some q) : readDoubled q (q :: rest) = some ([], rest) := by
  cases rest with
  | nil => simp [readDoubled]
  | cons d more =>
    have hd : d ≠ q := fun hd => h (congrArg some hd)
    simp [readDoubled, hd]

theorem readDoubled_cons_of_ne (h : c ≠ q) (cs : List Char) :
    readDoubled q (c :: cs) = (readDoubled q cs).map fun p => (c :: p.1, p.2) := by
  rw [readDoubled.eq_def]
  exact if_neg h

theorem readDoubled_double (ds : List Char) (h : rest.head? ≠ some q) :
    readDoubled q (double q ds ++ q :: rest) = some (ds, rest) := by
  induction ds with
  | nil => exact readDoubled_end h
  | cons d ds ih =>
    by_cases hd : d = q
    · rw [hd, double_cons_self, List.cons_append, List.cons_append, readDoubled_pair, ih, Option.map_some]
    · rw [double_cons_of_ne hd, List.cons_append, readDoubled_cons_of_ne hd, ih, Option.map_some]

theorem eq_double_of_readDoubled (h : readDoubled q cs = some (ds, rest)) :
    cs = double q ds ++ q :: rest ∧ rest.head? ≠ some q := by
  induction cs using readDoubled.induct q generalizing ds rest with
  | case1 => cases h
  | case2 more ih =>
    rw [readDoubled_pair] at h
    obtain ⟨p, hp, hds⟩ := Option.map_eq_some_iff.mp h
    obtain ⟨rfl, rfl⟩ := Prod.mk.inj hds
    obtain ⟨rfl, hrest⟩ := ih hp
    exact ⟨by rw [double_cons_self]; rfl, hrest⟩
  | case3 d more hd =>
    have hhead : (d :: more).head? ≠ some q := fun hhead => hd (Option.some.inj hhead)
    rw [readDoubled_end hhead] at h
    obtain ⟨rfl, rfl⟩ := Prod.mk.inj (Option.some.inj h)
    exact ⟨rfl, hhead⟩
  | case4 =>
    rw [readDoubled_end (by simp)] at h
    obtain ⟨rfl, rfl⟩ := Prod.mk.inj (Option.some.inj h)
    exact ⟨rfl, by simp⟩
  | case5 c more hc ih =>
    rw [readDoubled_cons_of_ne hc] at h
    obtain ⟨p, hp, hds⟩ := Option.map_eq_some_iff.mp h
    obtain ⟨rfl, rfl⟩ := Prod.mk.inj hds
    obtain ⟨rfl, hrest⟩ := ih hp
    exact ⟨by rw [double_cons_of_ne hc]; rfl, hrest⟩

theorem readDoubled_eq_some_iff : readDoubled q cs = some (ds, rest) ↔
    cs = double q ds ++ q :: rest ∧ rest.head? ≠ some q :=
  ⟨eq_double_of_readDoubled, fun ⟨hcs, hrest⟩ => hcs ▸ readDoubled_double ds hrest⟩

theorem quoted_append (q : Char) (s : String) (rest : List Char) :
    quoted q s ++ rest = q :: (double q s.toList ++ q :: rest) := by
  simp [quoted]

theorem readQuoted_cons_self (q : Char) (cs : List Char) :
    readQuoted q (q :: cs) = (readDoubled q cs).map fun p => (String.ofList p.1, p.2) :=
  if_pos rfl

/-- A quoted part is what the text is written as, and ends where no further quote follows. -/
theorem readQuoted_eq_some_iff : readQuoted q cs = some (s, rest) ↔
    cs = quoted q s ++ rest ∧ rest.head? ≠ some q := by
  rw [quoted_append]
  constructor
  · intro h
    cases cs with
    | nil => cases h
    | cons c cs =>
      by_cases hc : c = q
      · subst hc
        rw [readQuoted_cons_self] at h
        obtain ⟨p, hp, hs⟩ := Option.map_eq_some_iff.mp h
        obtain ⟨rfl, rfl⟩ := Prod.mk.inj hs
        obtain ⟨hcs, hrest⟩ := readDoubled_eq_some_iff.mp hp
        exact ⟨by rw [hcs, String.toList_ofList], hrest⟩
      · rw [readQuoted, if_neg hc] at h
        cases h
  · rintro ⟨rfl, hrest⟩
    rw [readQuoted_cons_self, readDoubled_double _ hrest, Option.map_some, String.ofList_toList]

example : readQuoted '"' "\"\"\"a\"\"\".\"b\"".toList = some ("\"a\"", ".\"b\"".toList) := by
  cbv

end EntityGraph.Text
