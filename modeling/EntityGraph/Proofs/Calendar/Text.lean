import Mathlib.Algebra.Group.Nat.Defs
import EntityGraph.Calendar.Text

namespace EntityGraph

namespace Text

theorem digitsValue_eq (ds : List Char) : digitsValue ds = Nat.ofDigitChars 10 ds 0 :=
  (Nat.ofDigitChars_eq_foldl).symm

theorem isNumeral_of_isDigit {ds : List Char} (h : ∀ c ∈ ds, c.isDigit = true) (hne : ds ≠ []) :
    isNumeral ds = true := by
  simp [isNumeral, hne, List.all_eq_true.mpr h]

end Text

theorem daysInMonth_le (year : Int) (month : Nat) : daysInMonth year month ≤ 31 := by
  unfold daysInMonth
  split
  · split <;> decide
  all_goals decide

namespace Calendar

open Text (isBlank digitsValue)

section Padded

variable {w n : Nat} {c : Char}

theorem isDigit_of_mem_padded (h : c ∈ padded w n) : c.isDigit = true := by
  rcases List.mem_append.mp h with h | h
  · rw [List.eq_of_mem_replicate h]
    rfl
  · exact Nat.isDigit_of_mem_toDigits (by decide) (by decide) h

theorem length_padded (hw : 0 < w) (h : n < 10 ^ w) : (padded w n).length = w := by
  have hle := (Nat.length_toDigits_le_iff (b := 10) (by decide) hw).mpr h
  simp only [padded, List.length_append, List.length_replicate]
  omega

theorem padded_ne_nil (w n : Nat) : padded w n ≠ [] :=
  fun h => Nat.toDigits_ne_nil (List.append_eq_nil_iff.mp h).2

theorem digitsValue_padded (w n : Nat) : digitsValue (padded w n) = n := by
  have hzeros (k : Nat) : digitsValue (List.replicate k '0') = 0 := by
    induction k with
    | zero => rfl
    | succ k ih => exact ih
  have hdigits := Nat.ofDigitChars_toDigits (b := 10) (n := n) (by decide) (by decide)
  rw [Nat.ofDigitChars_eq_foldl] at hdigits
  rw [padded, digitsValue, List.foldl_append]
  exact (congrArg (fun init => List.foldl _ init _) (hzeros _)).trans hdigits

theorem isBlank_of_isDigit (h : c.isDigit = true) : isBlank c = false := by
  simp only [Char.isDigit, Bool.and_eq_true, decide_eq_true_eq] at h
  have h1 : 48 ≤ c.toNat := h.1
  have h2 : c.toNat ≤ 57 := h.2
  simp only [isBlank, Bool.or_eq_false_iff, Bool.and_eq_false_iff, decide_eq_false_iff_not,
    beq_eq_false_iff_ne]
  omega

theorem dropWhile_isBlank_padded (w n : Nat) (rest : List Char) :
    (padded w n ++ rest).dropWhile isBlank = padded w n ++ rest := by
  obtain ⟨c, cs, hp⟩ := List.exists_cons_of_ne_nil (padded_ne_nil w n)
  have hc : isBlank c = false :=
    isBlank_of_isDigit (isDigit_of_mem_padded (w := w) (n := n) (hp ▸ List.mem_cons_self))
  rw [hp, List.cons_append, List.dropWhile_cons, hc]
  rfl

theorem takeWhile_isDigit_append {ds : List Char} (hds : ∀ c ∈ ds, c.isDigit = true)
    (rest : List Char) (hrest : rest.head?.all (!·.isDigit) = true) :
    (ds ++ rest).takeWhile Char.isDigit = ds ∧ (ds ++ rest).dropWhile Char.isDigit = rest := by
  rw [List.takeWhile_append_of_pos hds, List.dropWhile_append_of_pos hds]
  cases rest with
  | nil => simp
  | cons c cs =>
    have hc : c.isDigit = false := by simpa using hrest
    simp [hc]

theorem loose?_padded (hw : 0 < w) (h : n < 10 ^ w) (rest : List Char) :
    loose? w (padded w n ++ rest) = some (n, rest) := by
  have hlength := length_padded hw h
  have htake : (padded w n ++ rest).take w = padded w n ++ [] := by
    rw [List.take_append_of_le_length (Nat.le_of_eq hlength.symm), List.append_nil,
      List.take_of_length_le (Nat.le_of_eq hlength)]
  have hdigits := (takeWhile_isDigit_append (fun c => isDigit_of_mem_padded (w := w) (n := n))
    [] rfl).1
  unfold loose?
  rw [htake, hdigits]
  simp [padded_ne_nil, digitsValue_padded]

theorem loose?_length_padded {rest : List Char} (hrest : rest.head?.all (!·.isDigit) = true) :
    loose? (padded w n ++ rest).length (padded w n ++ rest) = some (n, rest) := by
  have hdigits := (takeWhile_isDigit_append (fun c => isDigit_of_mem_padded (w := w) (n := n)) _
    hrest).1
  unfold loose?
  rw [List.take_length, hdigits]
  simp [padded_ne_nil, digitsValue_padded]

theorem year?_writeYear (year : Int) (rest : List Char)
    (hrest : rest.head?.all (!·.isDigit) = true) :
    year? ((writeYear year ++ rest).dropWhile isBlank) = some (year, rest) := by
  unfold writeYear
  split
  · next h =>
    obtain ⟨c, cs, hp⟩ := List.exists_cons_of_ne_nil (padded_ne_nil 4 year.toNat)
    have hc : c.isDigit = true := isDigit_of_mem_padded (hp ▸ List.mem_cons_self)
    have hloose := loose?_padded (w := 4) (n := year.toNat) (by decide) (by omega) rest
    rw [dropWhile_isBlank_padded]
    rw [hp, List.cons_append] at hloose ⊢
    unfold year?
    split
    · next he => cases (List.cons.inj he).1; exact absurd hc (by decide)
    · next he => cases (List.cons.inj he).1; exact absurd hc (by decide)
    · rw [hloose, Option.map_some]
      simp only [Int.toNat_of_nonneg h.1]
  · next h =>
    have hloose := loose?_length_padded (w := 4) (n := year.natAbs) hrest
    split
    · next hneg =>
      have habs : -(year.natAbs : Int) = year := by omega
      refine (congrArg (Option.map fun p => (-(p.1 : Int), p.2)) hloose).trans ?_
      simp only [Option.map_some, habs]
    · next hneg =>
      refine (congrArg (Option.map fun p => ((p.1 : Int), p.2)) hloose).trans ?_
      rw [Option.map_some, Int.natAbs_of_nonneg (Int.not_lt.mp hneg)]

end Padded

section Layout

variable {parts : List Part} {r : Reading} {rest : List Char} {n : Nat}

theorem loose?_two (h : n < 100) (rest : List Char) :
    loose? 2 ((padded 2 n ++ rest).dropWhile isBlank) = some (n, rest) := by
  rw [dropWhile_isBlank_padded]
  exact loose?_padded (by decide) h rest

theorem readParts_writeDate (d : Date) (parts : List Part) (rest : List Char) :
    readParts (isoDay ++ parts) .empty (writeDate d ++ rest) =
      readParts parts { Reading.empty with year := d.year, month := d.month, day := d.day } rest := by
  obtain ⟨hm1, hm2, hd1, hd2⟩ := d.valid
  have hdays := daysInMonth_le d.year d.month
  have hyear := year?_writeYear d.year
    ('-' :: (padded 2 d.month ++ '-' :: (padded 2 d.day ++ rest))) rfl
  have hmonth := loose?_two (n := d.month) (by omega) ('-' :: (padded 2 d.day ++ rest))
  have hday := loose?_two (n := d.day) (by omega) rest
  simp only [isoDay, writeDate, List.cons_append, List.nil_append, List.append_assoc, readParts,
    Part.read, hyear, hmonth, hday, Option.map_some, Option.bind_some, if_true]

theorem dateOf?_writeDate (d : Date) : dateOf? (String.ofList (writeDate d)) = some d := by
  have hread := readParts_writeDate d [] []
  rw [List.append_nil, List.append_nil] at hread
  have hdate : Date.of? d.year d.month d.day = some d := dif_pos ⟨d.inRange, d.valid⟩
  rw [dateOf?, dateLayouts, List.findSome?_cons, String.toList_ofList, hread]
  simp only [readParts, List.isEmpty_nil, if_true, Option.bind_some, Reading.date?, hdate]

theorem readParts_clock {h m s : Nat} (hh : h < 100) (hm : m < 100) (hs : s < 100)
    (parts : List Part) (r : Reading) (rest : List Char) :
    readParts (clock ++ parts) r
        (padded 2 h ++ ':' :: (padded 2 m ++ ':' :: (padded 2 s ++ rest))) =
      readParts parts { r with hour := h, minute := m, second := s } rest := by
  have hhour := loose?_two hh (':' :: (padded 2 m ++ ':' :: (padded 2 s ++ rest)))
  have hminute := loose?_two hm (':' :: (padded 2 s ++ rest))
  have hsecond := loose?_two hs rest
  simp only [clock, List.cons_append, List.nil_append, readParts, Part.read, hhour, hminute,
    hsecond, Option.map_some, Option.bind_some, if_true]

theorem fraction?_padded (h : n < 1000) :
    fraction? ('.' :: padded 3 n) = some (n * 1000000, []) := by
  have hlength := length_padded (w := 3) (by decide) h
  obtain ⟨htake, hdrop⟩ := takeWhile_isDigit_append
    (fun c => isDigit_of_mem_padded (w := 3) (n := n)) [] rfl
  rw [List.append_nil] at htake hdrop
  have hkept : (padded 3 n).take 9 = padded 3 n := List.take_of_length_le (by omega)
  have hempty : (padded 3 n).isEmpty = false := List.isEmpty_eq_false_iff.mpr (padded_ne_nil 3 n)
  simp only [fraction?, htake, hdrop, hkept, hlength, digitsValue_padded, hempty,
    Bool.false_eq_true, if_false]

end Layout

/-- Moments as texts give them: within a day, with at most one leap second, at the end of a minute. -/
structure IsProper (t : DateTime) : Prop where
  second : t.second < 86400
  nano : t.nano < 2000000000
  leap : 1000000000 ≤ t.nano → t.second % 60 = 59

section Moment

variable {d : Date} {hour minute second nano : Nat} {t u : DateTime}

theorem isProper_midnight (d : Date) : IsProper (DateTime.midnight d) :=
  ⟨(by decide : 0 < 86400), (by decide : 0 < 2000000000), nofun⟩

theorem isProper_of_of? (h : DateTime.of? d hour minute second nano = some t) : IsProper t := by
  unfold DateTime.of? at h
  split at h
  · split at h
    · obtain rfl := Option.some.inj h
      constructor <;> dsimp only <;> omega
    · obtain rfl := Option.some.inj h
      constructor <;> dsimp only <;> omega
  · cases h

theorem toUtc?_zero (h : IsProper t) : t.toUtc? 0 = some t := by
  obtain ⟨d, second, nano⟩ := t
  obtain ⟨hsecond, -, -⟩ := h
  dsimp only at hsecond
  simp only [DateTime.toUtc?, Int.sub_zero]
  rw [if_neg (by omega), if_neg (by omega), Int.toNat_natCast]

theorem dateTime?_of_ahead {r : Reading} (hr : r.ahead = 0) : r.dateTime? =
    r.date?.bind fun d => DateTime.of? d r.hour r.minute r.second r.nano := by
  unfold Reading.dateTime?
  cases r.date? with
  | none => rfl
  | some d =>
    change (DateTime.of? d r.hour r.minute r.second r.nano).bind (·.toUtc? r.ahead) = _
    cases hof : DateTime.of? d r.hour r.minute r.second r.nano with
    | none => exact hof.symm
    | some t => rw [Option.bind_some, hr, toUtc?_zero (isProper_of_of? hof)]; exact hof.symm

def readingOf (t : DateTime) (nano : Nat) : Reading :=
  ⟨t.date.year, t.date.month, t.date.day, t.second / 3600, t.second / 60 % 60,
    t.second % 60 + t.nano / 1000000000, nano, 0⟩

theorem writeDateTime_eq (t : DateTime) : writeDateTime t =
    writeDate t.date ++ 'T' :: (padded 2 (t.second / 3600) ++ ':' ::
      (padded 2 (t.second / 60 % 60) ++ ':' ::
        (padded 2 (t.second % 60 + t.nano / 1000000000) ++
          if t.nano = 0 then [] else '.' :: padded 3 (t.nano % 1000000000 / 1000000)))) := by
  simp only [writeDateTime, List.append_assoc, List.cons_append]

theorem readParts_writeDateTime (h : IsProper t) (parts : List Part) :
    readParts (isoDay ++ .mark 'T' :: (clock ++ parts)) .empty (writeDateTime t) =
      readParts parts (readingOf t 0)
        (if t.nano = 0 then [] else '.' :: padded 3 (t.nano % 1000000000 / 1000000)) := by
  obtain ⟨hsecond, hnano, -⟩ := h
  have hmark (parts : List Part) (r : Reading) (rest : List Char) :
      readParts (.mark 'T' :: parts) r ('T' :: rest) = readParts parts r rest := rfl
  rw [writeDateTime_eq, readParts_writeDate, hmark,
    readParts_clock (by omega) (by omega) (by omega)]
  rfl

theorem dateTime?_readingOf (t : DateTime) (nano : Nat) : (readingOf t nano).dateTime? =
    DateTime.of? t.date (t.second / 3600) (t.second / 60 % 60)
      (t.second % 60 + t.nano / 1000000000) nano := by
  have hdate : (readingOf t nano).date? = some t.date := dif_pos ⟨t.date.inRange, t.date.valid⟩
  rw [dateTime?_of_ahead rfl, hdate, Option.bind_some]
  rfl

/-- The moment without what is finer than milliseconds. -/
def truncated (t : DateTime) : DateTime :=
  { t with nano := t.nano / 1000000 * 1000000 }

theorem of?_truncated (h : IsProper t) :
    DateTime.of? t.date (t.second / 3600) (t.second / 60 % 60) (t.second % 60 + t.nano / 1000000000)
      (t.nano % 1000000000 / 1000000 * 1000000) = some (truncated t) := by
  obtain ⟨d, second, nano⟩ := t
  obtain ⟨hsecond, hnano, hleap⟩ := h
  dsimp only at hsecond hnano hleap ⊢
  unfold DateTime.of? truncated
  rw [if_pos (by omega)]
  split
  · next hsixty =>
    have hminute := hleap (by omega)
    have hclock : second / 3600 * 3600 + second / 60 % 60 * 60 + 59 = second := by omega
    have hfraction : nano = nano % 1000000000 + 1000 * 1000000 := by omega
    have hmillis : nano % 1000000000 / 1000000 * 1000000 + 1000000000 = nano / 1000000 * 1000000 := by
      conv => rhs; rw [hfraction, Nat.add_mul_div_right _ _ (by decide)]
      rw [Nat.add_mul]
    rw [hclock, hmillis]
  · next hsixty =>
    have hwhole : nano / 1000000000 = 0 := by omega
    have hclock : second / 3600 * 3600 + second / 60 % 60 * 60 + second % 60 = second := by omega
    rw [hwhole, Nat.add_zero, hclock, Nat.mod_eq_of_lt (Nat.lt_of_div_eq_zero (by decide) hwhole)]

/-- A written moment is read without what is finer than milliseconds. -/
theorem dateTimeOf?_writeDateTime (h : IsProper t) :
    dateTimeOf? (String.ofList (writeDateTime t)) = some (truncated t) := by
  have hproper := h
  obtain ⟨hsecond, hnano, -⟩ := h
  have hread := of?_truncated hproper
  -- the layout with a blank stops at the letter between date and clock
  have hblank : readParts (isoDay ++ .blanks :: clock) .empty (writeDateTime t) = none := by
    rw [writeDateTime_eq, readParts_writeDate]
    rfl
  have hclock := readParts_writeDateTime hproper []
  have hfraction := readParts_writeDateTime hproper [.fraction]
  rw [List.append_nil] at hclock
  rw [dateTimeOf?, dateTimeLayouts, String.toList_ofList, List.findSome?_cons, hblank,
    Option.bind_none, List.findSome?_cons, hclock]
  by_cases hz : t.nano = 0
  · have hmoment : (readingOf t 0).dateTime? = some (truncated t) := by
      rw [dateTime?_readingOf, ← hread, hz]
    have hend : readParts [] (readingOf t 0) [] = some (readingOf t 0) := rfl
    rw [if_pos hz, hend, Option.bind_some, hmoment]
  · have hmoment : (readingOf t (t.nano % 1000000000 / 1000000 * 1000000)).dateTime? =
        some (truncated t) := by
      rw [dateTime?_readingOf, hread]
    have hmillis := fraction?_padded (n := t.nano % 1000000000 / 1000000) (by omega)
    have hparts : readParts [.fraction] (readingOf t 0)
        ('.' :: padded 3 (t.nano % 1000000000 / 1000000)) =
          some (readingOf t (t.nano % 1000000000 / 1000000 * 1000000)) := by
      simp only [readParts, Part.read, hmillis, Option.map_some, Option.bind_some,
        List.isEmpty_nil, if_true]
      rfl
    rw [if_neg hz] at hfraction ⊢
    rw [hparts] at hfraction
    have hstop : readParts [] (readingOf t 0)
        ('.' :: padded 3 (t.nano % 1000000000 / 1000000)) = none := rfl
    have hlayout : isoDay ++ .mark 'T' :: clock ++ [.fraction] =
        isoDay ++ .mark 'T' :: (clock ++ [.fraction]) := rfl
    rw [hstop, Option.bind_none, List.findSome?_cons, hlayout, hfraction, Option.bind_some, hmoment]

end Moment

section Read

variable {p : Part} {parts : List Part} {r r' : Reading} {cs rest : List Char} {s : String}
  {t u : DateTime} {ahead : Int}

/-- How far local time can be ahead: whole minutes, less than a day of them. -/
def IsOffset (ahead : Int) : Prop :=
  ahead.natAbs < 86400 ∧ ahead % 60 = 0

theorem mod_of_offset? {divide : List Char → Option (List Char)}
    (h : offset? divide cs = some (ahead, rest)) : ahead % 60 = 0 := by
  cases cs with
  | nil => cases h
  | cons c cs =>
    obtain ⟨negative, -, h⟩ := Option.bind_eq_some_iff.mp h
    obtain ⟨⟨hours, cs₁⟩, -, h⟩ := Option.bind_eq_some_iff.mp h
    obtain ⟨cs₂, -, h⟩ := Option.bind_eq_some_iff.mp h
    obtain ⟨⟨minutes, cs₃⟩, -, h⟩ := Option.bind_eq_some_iff.mp h
    dsimp only at h
    split at h
    · cases h
    · obtain rfl := (Prod.mk.inj (Option.some.inj h)).1
      split <;> omega

theorem isOffset_of_offsetInDay? {divide : List Char → Option (List Char)}
    (h : offsetInDay? divide cs = some (ahead, rest)) : IsOffset ahead := by
  obtain ⟨⟨ahead', rest'⟩, hoffset, h⟩ := Option.bind_eq_some_iff.mp h
  dsimp only at h
  split at h
  · next hlt =>
    obtain rfl := (Prod.mk.inj (Option.some.inj h)).1
    exact ⟨hlt, mod_of_offset? hoffset⟩
  · cases h

theorem isOffset_read (hr : IsOffset r.ahead) (h : p.read r cs = some (r', rest)) :
    IsOffset r'.ahead := by
  cases p with
  | mark c =>
    cases cs with
    | nil => cases h
    | cons x xs =>
      simp only [Part.read] at h
      split at h
      · cases h; exact hr
      · cases h
  | separator =>
    cases cs with
    | nil => cases h
    | cons x xs =>
      simp only [Part.read] at h
      split at h
      · cases h; exact hr
      · cases h
  | blanks => cases h; exact hr
  | offset =>
    obtain ⟨⟨ahead, tail⟩, hoffset, h⟩ := Option.map_eq_some_iff.mp h
    cases h
    exact isOffset_of_offsetInDay? hoffset
  | zone =>
    simp only [Part.read] at h
    split at h
    · cases h; exact ⟨Nat.zero_lt_succ _, rfl⟩
    · cases h; exact ⟨Nat.zero_lt_succ _, rfl⟩
    · obtain ⟨⟨ahead, tail⟩, hoffset, h⟩ := Option.map_eq_some_iff.mp h
      cases h
      exact isOffset_of_offsetInDay? hoffset
  | _ =>
    obtain ⟨⟨n, tail⟩, -, h⟩ := Option.map_eq_some_iff.mp h
    cases h
    exact hr

theorem isOffset_readParts (hr : IsOffset r.ahead) (h : readParts parts r cs = some r') :
    IsOffset r'.ahead := by
  induction parts generalizing r cs with
  | nil =>
    simp only [readParts] at h
    split at h
    · cases h; exact hr
    · cases h
  | cons p parts ih =>
    obtain ⟨⟨r₁, cs₁⟩, hread, h⟩ := Option.bind_eq_some_iff.mp h
    exact ih (isOffset_read hr hread) h

theorem isProper_toUtc? (h : IsProper t) (ha : IsOffset ahead) (hu : t.toUtc? ahead = some u) :
    IsProper u := by
  obtain ⟨hsecond, hnano, hleap⟩ := h
  obtain ⟨hday, hminute⟩ := ha
  simp only [DateTime.toUtc?] at hu
  split at hu
  · obtain ⟨d, -, rfl⟩ := Option.map_eq_some_iff.mp hu
    exact ⟨by dsimp only; omega, hnano, fun hn => by have := hleap hn; dsimp only; omega⟩
  · split at hu
    · obtain ⟨d, -, rfl⟩ := Option.map_eq_some_iff.mp hu
      exact ⟨by dsimp only; omega, hnano, fun hn => by have := hleap hn; dsimp only; omega⟩
    · obtain rfl := Option.some.inj hu
      exact ⟨by dsimp only; omega, hnano, fun hn => by have := hleap hn; dsimp only; omega⟩

theorem isProper_of_dateTimeOf? (h : dateTimeOf? s = some t) : IsProper t := by
  obtain ⟨layout, -, h⟩ := List.exists_of_findSome?_eq_some h
  obtain ⟨r, hread, h⟩ := Option.bind_eq_some_iff.mp h
  have ha := isOffset_readParts (r := .empty) ⟨by decide, rfl⟩ hread
  obtain ⟨d, -, h⟩ := Option.bind_eq_some_iff.mp h
  obtain ⟨here, hhere, h⟩ := Option.bind_eq_some_iff.mp h
  exact isProper_toUtc? (isProper_of_of? hhere) ha h

end Read

end Calendar

end EntityGraph
