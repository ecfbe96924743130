import Mathlib.Data.List.TakeWhile
import EntityGraph.Json.Token
import EntityGraph.Json.Writer
import EntityGraph.Proofs.Calendar.Text

namespace EntityGraph.Json.Token

variable {c : Char} {cs rest tail : List Char} {l : Literal} {negative : Bool}

section Lengths

variable {ds : List Char} {exponent : Option (Bool × List Char)} {parts : List StringPart}

theorem length_digits (cs : List Char) : (digits cs).2.length ≤ cs.length :=
  List.length_dropWhile_le _ cs

theorem length_fraction? (h : fraction? cs = some (ds, tail)) : tail.length ≤ cs.length := by
  unfold fraction? at h
  split at h
  · next rest =>
    obtain ⟨-, h⟩ := Option.ite_none_left_eq_some.mp h
    obtain ⟨-, rfl⟩ := Prod.mk.inj (Option.some.inj h)
    exact Nat.le_succ_of_le (length_digits rest)
  · obtain ⟨-, rfl⟩ := Prod.mk.inj (Option.some.inj h)
    exact Nat.le_refl _

theorem length_exponentDigits? (h : exponentDigits? negative cs = some (exponent, tail)) :
    tail.length ≤ cs.length := by
  obtain ⟨-, h⟩ := Option.ite_none_left_eq_some.mp h
  obtain ⟨-, rfl⟩ := Prod.mk.inj (Option.some.inj h)
  exact length_digits cs

theorem length_exponent? (h : exponent? cs = some (exponent, tail)) : tail.length ≤ cs.length := by
  unfold exponent? at h
  split at h
  · split at h
    · split at h
      all_goals
        have := length_exponentDigits? h
        simp only [List.length_cons] at this ⊢
        omega
    · obtain ⟨-, rfl⟩ := Prod.mk.inj (Option.some.inj h)
      exact Nat.le_refl _
  · obtain ⟨-, rfl⟩ := Prod.mk.inj (Option.some.inj h)
    exact Nat.le_refl _

theorem unsigned?_eq_some_iff : unsigned? negative cs = some (l, tail) ↔
    ((digits cs).1 ≠ [] ∧ ¬((digits cs).1.head? = some '0' ∧ 1 < (digits cs).1.length)) ∧
      ∃ fraction rest exponent, fraction? (digits cs).2 = some (fraction, rest) ∧
        exponent? rest = some (exponent, tail) ∧ ⟨negative, (digits cs).1, fraction, exponent⟩ = l := by
  rw [ne_eq, ← List.isEmpty_iff, ← not_or, unsigned?]
  dsimp only
  split
  · next h => exact iff_of_false nofun fun h' => h'.1 h
  · next h =>
    simp only [Option.bind_eq_bind, Option.bind_eq_some_iff, Prod.exists, Option.some.injEq, Prod.mk.injEq]
    refine ⟨?_, ?_⟩
    · rintro ⟨fraction, rest, hfraction, exponent, tail', hexponent, hl, rfl⟩
      exact ⟨h, fraction, rest, exponent, hfraction, hexponent, hl⟩
    · rintro ⟨-, fraction, rest, exponent, hfraction, hexponent, hl⟩
      exact ⟨fraction, rest, hfraction, exponent, tail, hexponent, hl, rfl⟩

theorem length_unsigned? (h : unsigned? negative cs = some (l, tail)) : tail.length < cs.length := by
  obtain ⟨⟨hwhole, -⟩, fraction, rest, exponent, hfraction, hexponent, -⟩ := unsigned?_eq_some_iff.mp h
  have hdigits : (digits cs).1.length + (digits cs).2.length = cs.length := by
    rw [← List.length_append]
    exact congrArg List.length List.takeWhile_append_dropWhile
  have := List.length_pos_iff.mpr hwhole
  have := length_fraction? hfraction
  have := length_exponent? hexponent
  omega

theorem length_stringParts (h : stringParts cs = some (parts, tail)) : tail.length < cs.length := by
  fun_induction stringParts cs generalizing parts tail with
  | case1 => cases h
  | case2 rest =>
    obtain ⟨-, rfl⟩ := Prod.mk.inj (Option.some.inj h)
    exact Nat.lt_succ_self _
  | case3 _ _ _ _ _ _ _ _ _ _ _ hrest _ _ _ _ ih =>
    obtain ⟨-, rfl⟩ := Prod.mk.inj (Option.some.inj h)
    have := ih hrest
    simp only [List.length_cons]
    omega
  | case4 => cases h
  | case5 _ _ _ _ _ _ hrest _ ih =>
    obtain ⟨-, rfl⟩ := Prod.mk.inj (Option.some.inj h)
    have := ih hrest
    simp only [List.length_cons]
    omega
  | case6 => cases h
  | case7 => cases h
  | case8 _ _ _ _ _ _ ih =>
    obtain ⟨⟨parts, tail'⟩, hrest, h⟩ := Option.map_eq_some_iff.mp h
    obtain ⟨-, rfl⟩ := Prod.mk.inj h
    exact Nat.lt_succ_of_lt (ih hrest)

theorem length_next (c : Char) (cs : List Char) : (next (c :: cs)).2.length ≤ cs.length := by
  generalize h : c :: cs = text
  have hlength := congrArg List.length h
  unfold next
  split
  case h_10 rest =>
    split
    · next hparts =>
      have := length_stringParts hparts
      simp only [List.length_cons] at hlength ⊢
      omega
    · exact Nat.zero_le _
  case h_11 rest =>
    split
    · next hnumber =>
      have := length_unsigned? hnumber
      simp only [List.length_cons] at hlength ⊢
      omega
    · exact Nat.zero_le _
  case h_12 =>
    split
    · next hnumber =>
      have := length_unsigned? hnumber
      simp only [List.length_cons] at hlength ⊢
      omega
    · exact Nat.zero_le _
  all_goals
    simp only [List.length_cons] at hlength ⊢
    omega

end Lengths

section Scan

theorem scanFrom_congr {n m : Nat} (hn : cs.length ≤ n) (hm : cs.length ≤ m) :
    scanFrom n cs = scanFrom m cs := by
  induction n generalizing cs m with
  | zero =>
    obtain rfl := List.length_eq_zero_iff.mp (Nat.le_zero.mp hn)
    cases m <;> rfl
  | succ n ih =>
    cases m with
    | zero =>
      obtain rfl := List.length_eq_zero_iff.mp (Nat.le_zero.mp hm)
      rfl
    | succ m =>
      have hspace := List.length_dropWhile_le isSpace cs
      unfold scanFrom
      split
      · rfl
      · next c rest hrest =>
        have hnext := length_next c rest
        rw [hrest, List.length_cons] at hspace
        exact congrArg _ (ih (by omega) (by omega))

theorem scan_eq (cs : List Char) : scan cs =
    match cs.dropWhile isSpace with
    | [] => []
    | c :: rest => (next (c :: rest)).1 :: scan (next (c :: rest)).2 := by
  have hspace := List.length_dropWhile_le isSpace cs
  rw [scan, scanFrom_congr (Nat.le_refl _) (Nat.le_succ _), scanFrom]
  cases hrest : cs.dropWhile isSpace with
  | nil => rfl
  | cons c rest =>
    have hnext := length_next c rest
    rw [hrest, List.length_cons] at hspace
    exact congrArg (List.cons _) (scanFrom_congr (by omega) (Nat.le_refl _))

theorem scan_eq_nil_iff : scan cs = [] ↔ cs.dropWhile isSpace = [] := by
  rw [scan_eq]
  split
  · next h => exact iff_of_true rfl h
  · next h => exact iff_of_false nofun (h ▸ nofun)

theorem scan_append_of_nil (h : scan cs = []) (rest : List Char) : scan (cs ++ rest) = scan rest := by
  rw [scan_eq, scan_eq rest, List.dropWhile_append, scan_eq_nil_iff.mp h]
  rfl

theorem scan_cons (hc : isSpace c = false) (cs : List Char) :
    scan (c :: cs) = (next (c :: cs)).1 :: scan (next (c :: cs)).2 := by
  rw [scan_eq, List.dropWhile_cons, hc]
  rfl

theorem scan_comma (cs : List Char) : scan (',' :: cs) = comma :: scan cs :=
  scan_cons rfl cs

theorem scan_closeArray (cs : List Char) : scan (']' :: cs) = closeArray :: scan cs :=
  scan_cons rfl cs

theorem scan_closeObject (cs : List Char) : scan ('\x7d' :: cs) = closeObject :: scan cs :=
  scan_cons rfl cs

end Scan

section Numbers

theorem isSpace_of_isDigit (hc : c.isDigit = true) : isSpace c = false := by
  simp only [isSpace, Bool.or_eq_false_iff, beq_eq_false_iff_ne]
  refine ⟨⟨⟨?_, ?_⟩, ?_⟩, ?_⟩ <;> rintro rfl <;> exact absurd hc (by decide)

/-- What may follow a number: nothing that goes on with it. -/
def EndsNumber (rest : List Char) : Prop :=
  ∀ c ∈ rest.head?, c.isDigit = false ∧ c ≠ '.' ∧ c ≠ 'e' ∧ c ≠ 'E'

theorem endsNumber_nil : EndsNumber [] :=
  nofun

theorem endsNumber_of_mark (hc : c ∈ [',', ']', '\x7d']) (rest : List Char) : EndsNumber (c :: rest) := by
  rintro _ ⟨⟩
  simp only [List.mem_cons, List.not_mem_nil, or_false] at hc
  rcases hc with rfl | rfl | rfl <;> decide

variable {ds : List Char} {exponent : Option (Bool × List Char)}

theorem digits_append (hrest : EndsNumber rest) (cs : List Char) :
    digits (cs ++ rest) = ((digits cs).1, (digits cs).2 ++ rest) := by
  have hhead : ((digits cs).2 ++ rest).head?.all (!·.isDigit) = true := by
    have hstop := List.head?_dropWhile_not Char.isDigit cs
    cases hdrop : (digits cs).2 with
    | nil =>
      cases rest with
      | nil => rfl
      | cons c rest => simp [(hrest c rfl).1]
    | cons c more =>
      rw [show cs.dropWhile Char.isDigit = c :: more from hdrop] at hstop
      simpa using hstop
  obtain ⟨htake, hdrop⟩ := Calendar.takeWhile_isDigit_append
    (fun c hc => (List.mem_takeWhile_imp hc : c.isDigit = true)) _ hhead
  have hcs : (digits cs).1 ++ ((digits cs).2 ++ rest) = cs ++ rest := by
    rw [← List.append_assoc]
    exact congrArg (· ++ rest) List.takeWhile_append_dropWhile
  exact hcs ▸ Prod.ext htake hdrop

theorem fraction?_append (hrest : EndsNumber rest) (h : fraction? cs = some (ds, tail)) :
    fraction? (cs ++ rest) = some (ds, tail ++ rest) := by
  unfold fraction? at h
  split at h
  · next more =>
    obtain ⟨hempty, h⟩ := Option.ite_none_left_eq_some.mp h
    have hdigits : digits more = (ds, tail) := Option.some.inj h
    rw [hdigits] at hempty
    rw [List.cons_append, fraction?, digits_append hrest, hdigits, if_neg hempty]
  · next hpoint =>
    cases h
    unfold fraction?
    split
    · next more heq =>
      cases cs with
      | nil => exact absurd rfl (hrest '.' (congrArg List.head? heq)).2.1
      | cons c cs => exact absurd (congrArg (· :: cs) (List.cons.inj heq).1) (hpoint cs)
    · rfl

theorem exponentDigits?_append (hrest : EndsNumber rest)
    (h : exponentDigits? negative cs = some (exponent, tail)) :
    exponentDigits? negative (cs ++ rest) = some (exponent, tail ++ rest) := by
  obtain ⟨hempty, h⟩ := Option.ite_none_left_eq_some.mp h
  obtain ⟨rfl, rfl⟩ := Prod.mk.inj (Option.some.inj h)
  rw [exponentDigits?, digits_append hrest, if_neg hempty]

theorem exponent?_append (hrest : EndsNumber rest) (h : exponent? cs = some (exponent, tail)) :
    exponent? (cs ++ rest) = some (exponent, tail ++ rest) := by
  unfold exponent? at h
  split at h
  · next e more =>
    split at h
    · next he =>
      unfold exponent?
      rw [List.cons_append]
      dsimp only
      rw [if_pos he]
      split at h
      · exact exponentDigits?_append hrest h
      · exact exponentDigits?_append hrest h
      · next hminus hplus =>
        cases more with
        | nil => cases h
        | cons c more =>
          split
          · next heq => exact absurd (congrArg (· :: more) (List.cons.inj heq).1) (hminus more)
          · next heq => exact absurd (congrArg (· :: more) (List.cons.inj heq).1) (hplus more)
          · exact exponentDigits?_append hrest h
    · next he =>
      cases h
      exact if_neg he
  · cases h
    cases rest with
    | nil => rfl
    | cons c rest => exact if_neg (not_or.mpr (hrest c rfl).2.2)

theorem unsigned?_append (hrest : EndsNumber rest) (h : unsigned? negative cs = some (l, tail)) :
    unsigned? negative (cs ++ rest) = some (l, tail ++ rest) := by
  obtain ⟨hwhole, fraction, more, exponent, hfraction, hexponent, hl⟩ := unsigned?_eq_some_iff.mp h
  rw [unsigned?_eq_some_iff, digits_append hrest]
  exact ⟨hwhole, fraction, more ++ rest, exponent, fraction?_append hrest hfraction,
    exponent?_append hrest hexponent, hl⟩

theorem next_of_isDigit (hc : c.isDigit = true) (cs : List Char) : next (c :: cs) =
    match unsigned? false (c :: cs) with
    | some (l, tail) => (number l, tail)
    | none => (bad, []) := by
  unfold next
  split
  case h_12 => rfl
  all_goals
    next heq =>
      obtain ⟨rfl, -⟩ := List.cons.inj heq
      exact absurd hc (by decide)

theorem next_eq_number_iff : next cs = (number l, tail) ↔
    (∃ rest, cs = '-' :: rest ∧ unsigned? true rest = some (l, tail)) ∨
      unsigned? false cs = some (l, tail) := by
  constructor
  · intro h
    unfold next at h
    split at h
    case h_11 rest =>
      split at h
      · next hnumber =>
        cases h
        exact .inl ⟨rest, rfl, hnumber⟩
      · cases h
    case h_12 =>
      split at h
      · next hnumber =>
        cases h
        exact .inr hnumber
      · cases h
    case h_10 => split at h <;> cases h
    all_goals cases h
  · rintro (⟨rest, rfl, h⟩ | h)
    · change (match unsigned? true rest with | some (l, tail) => (number l, tail) | none => (bad, [])) = _
      rw [h]
    · obtain ⟨⟨hwhole, -⟩, -⟩ := unsigned?_eq_some_iff.mp h
      obtain ⟨c, ds, hds⟩ := List.exists_cons_of_ne_nil hwhole
      cases cs with
      | nil => cases hds
      | cons d cs =>
        have hd : d.isDigit = true := by
          by_contra hd
          rw [digits, List.takeWhile_cons_of_neg hd] at hds
          cases hds
        rw [next_of_isDigit hd, h]

theorem next_append (hrest : EndsNumber rest) (h : next cs = (number l, tail)) :
    next (cs ++ rest) = (number l, tail ++ rest) := by
  rcases next_eq_number_iff.mp h with ⟨more, rfl, hmore⟩ | hcs
  · exact next_eq_number_iff.mpr (.inl ⟨more ++ rest, rfl, unsigned?_append hrest hmore⟩)
  · exact next_eq_number_iff.mpr (.inr (unsigned?_append hrest hcs))

theorem scan_number_append (hrest : EndsNumber rest) (h : scan cs = [number l]) :
    scan (cs ++ rest) = number l :: scan rest := by
  rw [scan_eq] at h
  split at h
  · cases h
  · next c more hmore =>
    obtain ⟨hnumber, htail⟩ := List.cons.inj h
    have hnext : next (c :: more) = (number l, (next (c :: more)).2) := Prod.ext hnumber rfl
    have hdrop : (cs ++ rest).dropWhile isSpace = c :: (more ++ rest) := by
      rw [List.dropWhile_append, hmore]
      rfl
    rw [scan_eq, hdrop]
    dsimp only
    rw [← List.cons_append, next_append hrest hnext, scan_append_of_nil htail]

end Numbers

section Strings

variable {parts : List StringPart} {e : Char} {s : String}

theorem stringParts_short (he : shortEscape? e = some c) (h : stringParts cs = some (parts, rest)) :
    stringParts ('\\' :: e :: cs) = some (.char c :: parts, rest) := by
  rw [stringParts, he, h]
  rintro - - - - - rfl
  cases he

theorem stringParts_plain (hc : ¬(c.toNat < 0x20 ∨ c = '\\')) (hquote : c ≠ '"')
    (h : stringParts cs = some (parts, rest)) :
    stringParts (c :: cs) = some (.char c :: parts, rest) := by
  rw [stringParts, if_neg hc, h]
  · rfl
  · exact hquote
  · rintro - - - - - rfl
    exact absurd (.inr rfl) hc
  · rintro - - rfl
    exact absurd (.inr rfl) hc

theorem stringParts_unit (hc : c.toNat < 0x20) (h : stringParts cs = some (parts, rest)) :
    stringParts ('\\' :: 'u' :: '0' :: '0' :: Nat.digitChar (c.toNat / 16) :: Nat.digitChar (c.toNat % 16) ::
      cs) = some (.unit c.toNat :: parts, rest) := by
  have hdigits : ∀ n < 0x20, hexValue? (Nat.digitChar (n / 16)) = some (n / 16) ∧
      hexValue? (Nat.digitChar (n % 16)) = some (n % 16) := by
    decide
  have hzero : hexValue? '0' = some 0 := by decide
  obtain ⟨hhigh, hlow⟩ := hdigits _ hc
  have hvalue : ((0 * 16 + 0) * 16 + c.toNat / 16) * 16 + c.toNat % 16 = c.toNat := by omega
  rw [stringParts, hzero, hhigh, hlow, h]
  dsimp only
  rw [hvalue]

def stringPart (c : Char) : StringPart :=
  if c.toNat < 0x20 ∧ c ∉ ['\n', '\r', '\t', '\x08', '\x0c'] then .unit c.toNat else .char c

theorem stringParts_escape (c : Char) (h : stringParts cs = some (parts, rest)) :
    stringParts (escape c ++ cs) = some (stringPart c :: parts, rest) := by
  unfold escape
  split
  case h_8 hquote hslash hn hr ht hb hf =>
    rw [stringPart]
    split
    · next hc =>
      rw [if_pos ⟨hc, by simpa using ⟨hn, hr, ht, hb, hf⟩⟩]
      exact stringParts_unit hc h
    · next hc =>
      rw [if_neg fun hunit => hc hunit.1]
      exact stringParts_plain (not_or.mpr ⟨hc, hslash⟩) hquote h
  all_goals exact stringParts_short rfl h

theorem stringParts_text (cs rest : List Char) :
    stringParts (cs.flatMap escape ++ '"' :: rest) = some (cs.map stringPart, rest) := by
  induction cs with
  | nil => rfl
  | cons c cs ih =>
    rw [List.flatMap_cons, List.append_assoc]
    exact stringParts_escape c ih

theorem joinParts_unit {n : Nat} (hn : n < 0x20) (parts : List StringPart) :
    joinParts (.unit n :: parts) = (joinParts parts).map (Char.ofNat n :: ·) := by
  -- below the surrogates a number is a character by itself, whatever follows it
  have hplain : ¬(0xD800 ≤ n ∧ n < 0xE000) := by omega
  cases parts with
  | nil => exact if_neg hplain
  | cons p parts =>
    cases p with
    | char c => exact if_neg hplain
    | unit l =>
      rw [joinParts, if_neg (by omega), if_neg hplain]

theorem joinParts_stringPart (cs : List Char) : joinParts (cs.map stringPart) = some cs := by
  induction cs with
  | nil => rfl
  | cons c cs ih =>
    rw [List.map_cons, stringPart]
    split
    · next hc => rw [joinParts_unit hc.1, ih, Option.map_some, Char.ofNat_toNat]
    · rw [joinParts, ih, Option.map_some]

theorem scan_quote (s : String) (rest : List Char) :
    scan (quote s ++ rest) = string (some s) :: scan rest := by
  have htext : quote s ++ rest = '"' :: (s.toList.flatMap escape ++ '"' :: rest) := by
    simp [quote]
  have hnext : next ('"' :: (s.toList.flatMap escape ++ '"' :: rest)) = (string (some s), rest) := by
    rw [next, stringParts_text]
    dsimp only
    rw [joinParts_stringPart, Option.map_some, String.ofList_toList]
  rw [htext, scan_cons rfl, hnext]

end Strings

end EntityGraph.Json.Token
