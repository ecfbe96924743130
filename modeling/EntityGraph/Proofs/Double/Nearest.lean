import Mathlib.Algebra.Group.Nat.Defs
import EntityGraph.Json.Basic

namespace EntityGraph

theorem roundDiv_of_dvd {num den : Nat} (hden : 0 < den) (h : den ∣ num) :
    roundDiv num den = num / den := by
  unfold roundDiv
  rw [Nat.mod_eq_zero_of_dvd h, if_pos (.inl hden)]

namespace Double

theorem unit_eq : unit = 2 ^ places := by
  rw [unit, Nat.shiftLeft_eq, Nat.one_mul]

theorem nearest_eq (n : Nat) :
    nearest n 1 = roundDiv (n * unit) (2 ^ excess n 1) * 2 ^ excess n 1 := by
  rw [nearest, Nat.shiftLeft_eq, Nat.shiftLeft_eq, Nat.one_mul]

theorem log2_mul_unit {n e : Nat} (h : n < 2 ^ e) (hn : 0 < n) :
    (n * unit).log2 < e + places := by
  rw [Nat.log2_lt (Nat.mul_ne_zero (Nat.ne_of_gt hn) (Nat.ne_of_gt unit_pos)), unit_eq, Nat.pow_add]
  exact Nat.mul_lt_mul_of_pos_right h (Nat.two_pow_pos places)

theorem nearest_of_dvd {n : Nat} (h : 2 ^ excess n 1 ∣ n * unit) : nearest n 1 = n * unit := by
  rw [nearest_eq, roundDiv_of_dvd (Nat.two_pow_pos _) h, Nat.div_mul_cancel h]

/-- Natural numbers of 53 bits are binary numbers. -/
theorem nearest_exact {n : Nat} (h : n < 2 ^ 53) : nearest n 1 = n * unit := by
  refine nearest_of_dvd ?_
  rcases Nat.eq_zero_or_pos n with rfl | hn
  · rw [Nat.zero_mul]
    exact Nat.dvd_zero _
  · have hexcess : excess n 1 ≤ places := by
      have := log2_mul_unit h hn
      unfold excess
      rw [Nat.div_one]
      omega
    rw [unit_eq]
    exact Nat.dvd_mul_left_of_dvd (Nat.pow_dvd_pow 2 hexcess) n

theorem nearest_two_pow (e : Nat) : nearest (2 ^ e) 1 = 2 ^ e * unit := by
  have hunits : 2 ^ e * unit = 2 ^ (e + places) := by rw [unit_eq, Nat.pow_add]
  have hexcess : excess (2 ^ e) 1 ≤ e + places := by
    unfold excess
    rw [Nat.div_one, hunits, Nat.log2_two_pow]
    exact Nat.sub_le _ _
  exact nearest_of_dvd (hunits ▸ Nat.pow_dvd_pow 2 hexcess)

theorem nearest_le_of_lt {n e : Nat} (he : 53 ≤ e) (h : n < 2 ^ e) :
    nearest n 1 ≤ 2 ^ e * unit := by
  have hround : roundDiv (n * unit) (2 ^ excess n 1) ≤ 2 ^ 53 := by
    have hratio := ratio_lt n 1 Nat.one_pos
    simp only [Nat.shiftLeft_eq, Nat.one_mul] at hratio
    exact roundDiv_le hratio
  have hexcess : excess n 1 + 53 ≤ e + places := by
    rcases Nat.eq_zero_or_pos n with rfl | hn
    · simp only [excess, Nat.zero_mul, Nat.zero_div, Nat.log2_zero]
      omega
    · have := log2_mul_unit h hn
      unfold excess
      rw [Nat.div_one]
      omega
  calc nearest n 1 = roundDiv (n * unit) (2 ^ excess n 1) * 2 ^ excess n 1 := nearest_eq n
    _ ≤ 2 ^ 53 * 2 ^ excess n 1 := Nat.mul_le_mul_right _ hround
    _ = 2 ^ (excess n 1 + 53) := by rw [← Nat.pow_add, Nat.add_comm]
    _ ≤ 2 ^ (e + places) := Nat.pow_le_pow_right (by decide) hexcess
    _ = 2 ^ e * unit := by rw [unit_eq, Nat.pow_add]

theorem nearest_le_of_le {n e : Nat} (he : 53 ≤ e) (h : n ≤ 2 ^ e) :
    nearest n 1 ≤ 2 ^ e * unit := by
  rcases Nat.lt_or_eq_of_le h with h | rfl
  · exact nearest_le_of_lt he h
  · exact Nat.le_of_eq (nearest_two_pow e)

theorem two_pow_le_nearest {n e : Nat} (h : 2 ^ e ≤ n) : 2 ^ e * unit ≤ nearest n 1 := by
  have hunits : 2 ^ e * unit = 2 ^ (e + places) := by rw [unit_eq, Nat.pow_add]
  have hle : 2 ^ (e + places) ≤ n * unit := hunits ▸ Nat.mul_le_mul_right unit h
  have hpos : n * unit ≠ 0 := Nat.ne_of_gt (Nat.lt_of_lt_of_le (Nat.two_pow_pos _) hle)
  have hround : n * unit / 2 ^ excess n 1 ≤ roundDiv (n * unit) (2 ^ excess n 1) := by
    unfold roundDiv
    split
    · exact Nat.le_refl _
    · exact Nat.le_succ _
  rw [nearest_eq, hunits]
  rcases Nat.le_total (excess n 1) (e + places) with hexcess | hexcess
  · -- the power is a multiple of the distance between neighbours
    have hquotient : 2 ^ (e + places - excess n 1) ≤ n * unit / 2 ^ excess n 1 := by
      rw [Nat.le_div_iff_mul_le (Nat.two_pow_pos _), ← Nat.pow_add, Nat.sub_add_cancel hexcess]
      exact hle
    calc 2 ^ (e + places) = 2 ^ (e + places - excess n 1) * 2 ^ excess n 1 := by
          rw [← Nat.pow_add, Nat.sub_add_cancel hexcess]
      _ ≤ _ := Nat.mul_le_mul_right _ (Nat.le_trans hquotient hround)
  · have hquotient : 1 ≤ n * unit / 2 ^ excess n 1 := by
      rw [Nat.le_div_iff_mul_le (Nat.two_pow_pos _), Nat.one_mul]
      refine Nat.le_trans (Nat.pow_le_pow_right (by decide) ?_) (Nat.log2_self_le hpos)
      rw [excess, Nat.div_one]
      exact Nat.sub_le _ _
    calc 2 ^ (e + places) ≤ 1 * 2 ^ excess n 1 := by
          rw [Nat.one_mul]
          exact Nat.pow_le_pow_right (by decide) hexcess
      _ ≤ _ := Nat.mul_le_mul_right _ (Nat.le_trans hquotient hround)

theorem unit_dvd_nearest {n : Nat} (h : 2 ^ 52 ≤ n) : unit ∣ nearest n 1 := by
  have hlog : 52 + places ≤ (n * unit).log2 := by
    have hpos : n * unit ≠ 0 :=
      Nat.mul_ne_zero (Nat.ne_of_gt (Nat.lt_of_lt_of_le (by decide) h)) (Nat.ne_of_gt unit_pos)
    rw [Nat.le_log2 hpos, Nat.pow_add, ← unit_eq]
    exact Nat.mul_le_mul_right unit h
  have hexcess : places ≤ excess n 1 := by
    rw [excess, Nat.div_one]
    omega
  rw [nearest_eq, unit_eq]
  exact Nat.dvd_mul_left_of_dvd (Nat.pow_dvd_pow 2 hexcess) _

end Double

end EntityGraph
