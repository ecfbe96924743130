import EntityGraph.Proofs.Calendar.Text
import Mathlib.Data.Char
import Mathlib.Data.Prod.Lex
import Mathlib.Order.Lattice

namespace EntityGraph

namespace Date

def key (d : Date) : Int ×ₗ Nat ×ₗ Nat :=
  toLex (d.year, toLex (d.month, d.day))

theorem key_injective : Function.Injective key := by
  intro a b h
  cases a
  cases b
  simpa [key] using h

instance : LinearOrder Date :=
  LinearOrder.lift' key key_injective

theorem lt_iff {a b : Date} : a < b ↔ a.year < b.year ∨
    a.year = b.year ∧ (a.month < b.month ∨ a.month = b.month ∧ a.day < b.day) := by
  change a.key < b.key ↔ _
  simp [key, Prod.Lex.toLex_lt_toLex]

end Date

namespace DateTime

def key (t : DateTime) : Date ×ₗ Nat ×ₗ Nat :=
  toLex (t.date, toLex (t.second, t.nano))

theorem key_injective : Function.Injective key := by
  intro a b h
  cases a
  cases b
  simpa [key] using h

/-- Moments in the order of time. A leap second lies behind the second that it prolongs. -/
instance : LinearOrder DateTime :=
  LinearOrder.lift' key key_injective

theorem lt_iff {a b : DateTime} : a < b ↔ a.date < b.date ∨
    a.date = b.date ∧ (a.second < b.second ∨ a.second = b.second ∧ a.nano < b.nano) := by
  change a.key < b.key ↔ _
  simp [key, Prod.Lex.toLex_lt_toLex]

end DateTime

namespace Calendar

open Text (digitsValue digitsValue_eq)

section Texts

variable {xs ys s t : List Char} {w m n : Nat} {c : Char}

theorem append_lt_append_iff (h : xs.length = ys.length) :
    xs ++ s < ys ++ t ↔ xs < ys ∨ xs = ys ∧ s < t := by
  induction xs generalizing ys with
  | nil =>
    obtain rfl := List.length_eq_zero_iff.mp h.symm
    simp
  | cons x xs ih =>
    cases ys with
    | nil => cases h
    | cons y ys =>
      rw [List.cons_append, List.cons_append, List.cons_lt_cons_iff, List.cons_lt_cons_iff,
        ih (Nat.succ.inj h), List.cons.injEq, and_or_left, or_assoc, and_assoc]

theorem cons_lt_cons_self : c :: s < c :: t ↔ s < t := by
  rw [List.cons_lt_cons_iff]
  simp

theorem digit_lt (h : c.isDigit = true) : c.toNat - '0'.toNat < 10 := by
  simp only [Char.isDigit, Bool.and_eq_true, decide_eq_true_eq] at h
  have h2 : c.toNat ≤ 57 := h.2
  change c.toNat - 48 < 10
  omega

theorem digit_lt_digit {x y : Char} (hx : x.isDigit = true) (h : x < y) :
    x.toNat - '0'.toNat < y.toNat - '0'.toNat := by
  simp only [Char.isDigit, Bool.and_eq_true, decide_eq_true_eq] at hx
  have h1 : 48 ≤ x.toNat := hx.1
  have h2 : x.toNat < y.toNat := h
  change x.toNat - 48 < y.toNat - 48
  omega

theorem ofDigitChars_lt {a b : Nat} (hab : a < b) (hxs : ∀ c ∈ xs, c.isDigit = true)
    (h : xs.length = ys.length) : Nat.ofDigitChars 10 xs a < Nat.ofDigitChars 10 ys b := by
  induction xs generalizing ys a b with
  | nil =>
    obtain rfl := List.length_eq_zero_iff.mp h.symm
    exact hab
  | cons x xs ih =>
    cases ys with
    | nil => cases h
    | cons y ys =>
      have hx := digit_lt (hxs x List.mem_cons_self)
      rw [Nat.ofDigitChars_cons, Nat.ofDigitChars_cons]
      exact ih (by omega) (fun c hc => hxs c (List.mem_cons_of_mem x hc)) (Nat.succ.inj h)

theorem lt_iff_ofDigitChars_lt (a : Nat) (hxs : ∀ c ∈ xs, c.isDigit = true)
    (hys : ∀ c ∈ ys, c.isDigit = true) (h : xs.length = ys.length) :
    xs < ys ↔ Nat.ofDigitChars 10 xs a < Nat.ofDigitChars 10 ys a := by
  induction xs generalizing ys a with
  | nil =>
    obtain rfl := List.length_eq_zero_iff.mp h.symm
    simp
  | cons x xs ih =>
    cases ys with
    | nil => cases h
    | cons y ys =>
      obtain ⟨hx, hxrest⟩ := List.forall_mem_cons.mp hxs
      obtain ⟨hy, hyrest⟩ := List.forall_mem_cons.mp hys
      have hlength : xs.length = ys.length := Nat.succ.inj h
      rw [Nat.ofDigitChars_cons, Nat.ofDigitChars_cons, List.cons_lt_cons_iff]
      rcases lt_trichotomy x y with hlt | rfl | hgt
      · have hdigit := digit_lt_digit hx hlt
        exact iff_of_true (.inl hlt) (ofDigitChars_lt (by omega) hxrest hlength)
      · simp only [lt_irrefl, true_and, false_or]
        exact ih _ hxrest hyrest hlength
      · have hdigit := digit_lt_digit hy hgt
        have hback : Nat.ofDigitChars 10 ys (10 * a + (y.toNat - '0'.toNat)) <
            Nat.ofDigitChars 10 xs (10 * a + (x.toNat - '0'.toNat)) :=
          ofDigitChars_lt (by omega) hyrest hlength.symm
        refine iff_of_false ?_ hback.not_gt
        rintro (hlt | ⟨rfl, -⟩)
        · exact lt_asymm hlt hgt
        · exact lt_irrefl _ hgt

theorem padded_append_lt_iff (hw : 0 < w) (hm : m < 10 ^ w) (hn : n < 10 ^ w) :
    padded w m ++ s < padded w n ++ t ↔ m < n ∨ m = n ∧ s < t := by
  have hlength : (padded w m).length = (padded w n).length := by
    rw [length_padded hw hm, length_padded hw hn]
  have heq : padded w m = padded w n ↔ m = n :=
    ⟨fun h => by rw [← digitsValue_padded w m, h, digitsValue_padded], fun h => by rw [h]⟩
  rw [append_lt_append_iff hlength, heq,
    lt_iff_ofDigitChars_lt 0 (fun _ => isDigit_of_mem_padded) (fun _ => isDigit_of_mem_padded) hlength,
    ← digitsValue_eq, ← digitsValue_eq, digitsValue_padded, digitsValue_padded]

end Texts

section Written

variable {a b : Date} {t u : DateTime} {s s' : List Char}

def HasPlainYear (d : Date) : Prop :=
  0 ≤ d.year ∧ d.year ≤ 9999

instance (d : Date) : Decidable (HasPlainYear d) :=
  inferInstanceAs (Decidable (_ ∧ _))

theorem day_lt (d : Date) : d.month < 100 ∧ d.day < 100 := by
  obtain ⟨-, hm, -, hd⟩ := d.valid
  have hdays := daysInMonth_le d.year d.month
  omega

theorem writeDate_append_lt_iff (ha : HasPlainYear a) (hb : HasPlainYear b) :
    writeDate a ++ s < writeDate b ++ s' ↔ a < b ∨ a = b ∧ s < s' := by
  obtain ⟨ham, had⟩ := day_lt a
  obtain ⟨hbm, hbd⟩ := day_lt b
  obtain ⟨ha0, ha1⟩ := ha
  obtain ⟨hb0, hb1⟩ := hb
  have heq : a = b ↔ a.year = b.year ∧ a.month = b.month ∧ a.day = b.day :=
    ⟨fun h => by simp [h], fun ⟨hy, hm, hd⟩ => Date.key_injective (by simp [Date.key, hy, hm, hd])⟩
  rw [writeDate, writeDate, writeYear, writeYear, if_pos ⟨ha0, ha1⟩, if_pos ⟨hb0, hb1⟩, Date.lt_iff, heq]
  simp only [List.append_assoc, List.cons_append]
  rw [padded_append_lt_iff (by decide) (by omega) (by omega), cons_lt_cons_self,
    padded_append_lt_iff (by decide) ham hbm, cons_lt_cons_self,
    padded_append_lt_iff (by decide) had hbd]
  have hyear : a.year.toNat < b.year.toNat ↔ a.year < b.year := by omega
  have hyear' : a.year.toNat = b.year.toNat ↔ a.year = b.year := by omega
  simp only [hyear, hyear', and_or_left, or_assoc, and_assoc]

theorem fraction_lt_iff {m n : Nat} :
    (if m = 0 then [] else '.' :: padded 3 (m % 1000000000 / 1000000)) <
        (if n = 0 then [] else '.' :: padded 3 (n % 1000000000 / 1000000)) ↔
      n ≠ 0 ∧ (m = 0 ∨ m % 1000000000 / 1000000 < n % 1000000000 / 1000000) := by
  have hpadded := padded_append_lt_iff (w := 3) (m := m % 1000000000 / 1000000)
    (n := n % 1000000000 / 1000000) (s := []) (t := []) (by decide) (by omega) (by omega)
  simp only [List.append_nil] at hpadded
  by_cases hm : m = 0
  · by_cases hn : n = 0 <;> simp [hm, hn]
  · by_cases hn : n = 0
    · simp [hm, hn]
    · rw [if_neg hm, if_neg hn, cons_lt_cons_self, hpadded]
      simp [hm, hn]

/-- A later second is written as a later time of day, also behind a leap second. -/
theorem clock_lt (ht : IsProper t) (h : t.second < u.second) :
    t.second / 3600 < u.second / 3600 ∨ t.second / 3600 = u.second / 3600 ∧
      (t.second / 60 % 60 < u.second / 60 % 60 ∨ t.second / 60 % 60 = u.second / 60 % 60 ∧
        t.second % 60 + t.nano / 1000000000 < u.second % 60 + u.nano / 1000000000) := by
  obtain ⟨-, hnano, hleap⟩ := ht
  omega

/-- Moments are written in the order of days, seconds and milliseconds; of those in one millisecond a whole
second is written first. -/
theorem writeDateTime_lt_iff (ht : IsProper t) (hu : IsProper u) (hty : HasPlainYear t.date)
    (huy : HasPlainYear u.date) : writeDateTime t < writeDateTime u ↔
      t.date < u.date ∨ t.date = u.date ∧ (t.second < u.second ∨ t.second = u.second ∧
        (t.nano / 1000000 < u.nano / 1000000 ∨
          t.nano / 1000000 = u.nano / 1000000 ∧ t.nano = 0 ∧ u.nano ≠ 0)) := by
  have hts := ht.second
  have htn := ht.nano
  have hus := hu.second
  have hun := hu.nano
  rw [writeDateTime_eq, writeDateTime_eq, writeDate_append_lt_iff hty huy, cons_lt_cons_self,
    padded_append_lt_iff (by decide) (by omega) (by omega), cons_lt_cons_self,
    padded_append_lt_iff (by decide) (by omega) (by omega), cons_lt_cons_self,
    padded_append_lt_iff (by decide) (by omega) (by omega), fraction_lt_iff]
  refine or_congr_right (and_congr_right fun _ => ?_)
  rcases lt_trichotomy t.second u.second with hlt | heq | hgt
  · have hclock := clock_lt ht hlt
    omega
  · rw [heq]
    omega
  · have hclock := clock_lt hu hgt
    omega

end Written

end Calendar

end EntityGraph
