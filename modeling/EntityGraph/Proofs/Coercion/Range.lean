import Mathlib.Data.Int.Order.Basic
import EntityGraph.Proofs.Double.Nearest
import EntityGraph.Proofs.Identity.Form

namespace EntityGraph

def Double.endOfRange : Nat :=
  0x8000000000000000 * Double.unit

def Number.side (n : Number) : Ordering :=
  if n.toDouble.negative then .gt else .lt

open Double

variable {t : FieldType} {k : Whole} {n : Number}

theorem units_toDouble_whole (k : Whole) : (Number.whole k).toDouble.units =
    if k.value < 0 then -(nearest k.value.natAbs 1 : Int) else nearest k.value.natAbs 1 := by
  simp only [Number.toDouble, ofNatural, units, decide_eq_true_eq]

theorem units_toDouble_small (h : k.value.natAbs < 2 ^ 53) :
    (Number.whole k).toDouble.units = k.value * unit := by
  rw [units_toDouble_whole, nearest_exact h, Int.natCast_mul]
  split
  · next hneg =>
    have habs : (k.value.natAbs : Int) = -k.value := by omega
    rw [habs, Int.neg_mul, Int.neg_neg]
  · next hneg =>
    have habs : (k.value.natAbs : Int) = k.value := by omega
    rw [habs]

theorem natAbs_units_toDouble (h : k.value.natAbs ≤ 2 ^ 63) :
    (Number.whole k).toDouble.units.natAbs ≤ endOfRange := by
  have hnearest : nearest k.value.natAbs 1 ≤ endOfRange := nearest_le_of_le (by decide) h
  rw [units_toDouble_whole]
  split <;> omega

theorem holds_of_integral? {i : Int} (h : t.integral? i = none) : t.holds i = false := by
  rw [Bool.eq_false_iff]
  intro hi
  have hlt := FieldType.lt_of_holds hi
  have hle : -0x8000000000000000 ≤ i := by
    cases t <;> simp only [FieldType.holds, Bool.and_eq_true, decide_eq_true_eq] at hi <;> omega
  rw [FieldType.integral?, if_pos hi, Number.ofInt?, dif_pos ⟨hle, by omega⟩] at h
  cases h

theorem compare_of_not_signed (hk : k.value < 0x8000000000000000) (hn : n.signed? = none) :
    (Number.whole k).compare n =
      Ord.compare (Number.whole k).toDouble.units n.toDouble.units := by
  have hsigned : (Number.whole k).signed? = some k.value := if_pos hk
  rw [Number.compare, hsigned, hn]
  rfl

theorem natAbs_truncate (x : Double) : x.truncate.natAbs = x.magnitude / unit := by
  unfold Double.truncate
  split
  · rw [Int.natAbs_neg, Int.natAbs_natCast]
  · rw [Int.natAbs_natCast]

theorem compare_of_units_le {b : Nat} (hk : k.value < 0x8000000000000000) (hn : n.signed? = none)
    (hb : (Number.whole k).toDouble.units.natAbs ≤ b) (hm : b ≤ n.toDouble.magnitude) :
    (Number.whole k).compare n = n.side ∨
      n.toDouble.magnitude = b ∧ (Number.whole k).compare n = .eq := by
  rw [compare_of_not_signed hk hn, Number.side]
  generalize (Number.whole k).toDouble.units = i at hb ⊢
  unfold Double.units
  rcases Nat.lt_or_eq_of_le hm with hlt | heq
  · left
    split
    · exact compare_gt_iff_gt.mpr (by omega)
    · exact compare_lt_iff_lt.mpr (by omega)
  · subst heq
    split
    · rcases Int.lt_or_eq_of_le (show -(n.toDouble.magnitude : Int) ≤ i by omega) with h | h
      · exact .inl (compare_gt_iff_gt.mpr h)
      · exact .inr ⟨rfl, compare_eq_iff_eq.mpr h.symm⟩
    · rcases Int.lt_or_eq_of_le (show i ≤ (n.toDouble.magnitude : Int) by omega) with h | h
      · exact .inl (compare_lt_iff_lt.mpr h)
      · exact .inr ⟨rfl, compare_eq_iff_eq.mpr h⟩

theorem compare_of_truncate (hk : FieldType.integer.holds k.value = true) (hn : n.signed? = none)
    (hm : FieldType.integer.holds n.toDouble.truncate = false) :
    (Number.whole k).compare n = n.side := by
  simp only [FieldType.holds, Bool.and_eq_true, decide_eq_true_eq] at hk
  simp only [FieldType.holds, Bool.and_eq_false_iff, decide_eq_false_iff_not] at hm
  have hunits := units_toDouble_small (k := k) (by omega)
  have hdiv : ((n.toDouble.magnitude / unit : Nat) : Int) * unit ≤ n.toDouble.magnitude := by
    exact_mod_cast Nat.div_mul_le_self _ _
  have hmono {a b : Int} (h : a < b) : a * (unit : Int) < b * unit :=
    Int.mul_lt_mul_of_pos_right h (by exact_mod_cast unit_pos)
  rw [compare_of_not_signed (by omega) hn, hunits, Number.side]
  unfold Double.truncate at hm
  unfold Double.units
  generalize n.toDouble.magnitude / unit = q at hdiv hm
  split
  · next hneg =>
    rw [if_pos hneg] at hm
    have hlt := hmono (a := -(q : Int)) (b := k.value) (by omega)
    rw [Int.neg_mul] at hlt
    exact compare_gt_iff_gt.mpr (by omega)
  · next hneg =>
    rw [if_neg hneg] at hm
    have hlt := hmono (a := k.value) (b := (q : Int)) (by omega)
    exact compare_lt_iff_lt.mpr (by omega)

theorem compare_of_signed {j : Int} (hk : FieldType.integer.holds k.value = true)
    (hn : n.signed? = some j) (hj : FieldType.integer.holds j = false) :
    (Number.whole k).compare n = n.side := by
  simp only [FieldType.holds, Bool.and_eq_true, decide_eq_true_eq] at hk
  simp only [FieldType.holds, Bool.and_eq_false_iff, decide_eq_false_iff_not] at hj
  have hsigned : (Number.whole k).signed? = some k.value := if_pos (by omega)
  cases n with
  | double x => cases hn
  | whole w =>
    simp only [Number.signed?, Option.ite_none_right_eq_some, Option.some.injEq] at hn
    obtain ⟨hw, rfl⟩ := hn
    have hsigned' : (Number.whole w).signed? = some w.value := if_pos hw
    rw [Number.compare, hsigned, hsigned', Number.side]
    simp only [Number.toDouble, ofNatural, decide_eq_true_eq]
    split
    · exact compare_gt_iff_gt.mpr (by omega)
    · exact compare_lt_iff_lt.mpr (by omega)

theorem compare_beyond_integer (hk : FieldType.integer.holds k.value = true)
    (hn : coerce? .integer (.num n) = none) : (Number.whole k).compare n = n.side := by
  rw [FieldType.coerce?_num rfl] at hn
  cases hs : n.signed? with
  | some j =>
    rw [hs] at hn
    exact compare_of_signed hk hs (holds_of_integral? hn)
  | none =>
    rw [hs] at hn
    dsimp only at hn
    by_cases hm : n.toDouble.magnitude < endOfRange
    · have hpart : FieldType.wholePart? n.toDouble = some n.toDouble.truncate := if_pos hm
      rw [hpart, Option.bind_some] at hn
      exact compare_of_truncate hk hs (holds_of_integral? hn)
    · have hsmall : k.value.natAbs ≤ 0x80000000 := by
        simp only [FieldType.holds, Bool.and_eq_true, decide_eq_true_eq] at hk
        omega
      have hunits : (Number.whole k).toDouble.units.natAbs < endOfRange := by
        rw [units_toDouble_small (by omega), Int.natAbs_mul, Int.natAbs_natCast]
        exact Nat.mul_lt_mul_of_pos_right (by omega) unit_pos
      rcases compare_of_units_le (FieldType.lt_of_holds hk) hs (Nat.le_refl _)
        (Nat.le_trans (Nat.le_of_lt hunits) (Nat.not_lt.mp hm)) with h | ⟨h, -⟩
      · exact h
      · omega

theorem compare_beyond_long (hk : FieldType.long.holds k.value = true)
    (hn : coerce? .long (.num n) = none) :
    (Number.whole k).compare n = n.side ∨
      n.toDouble.magnitude = endOfRange ∧ (Number.whole k).compare n = .eq := by
  rw [FieldType.coerce?_num rfl] at hn
  have hs : n.signed? = none := by
    cases hs : n.signed? with
    | none => rfl
    | some j =>
      rw [hs] at hn
      have hj := holds_of_integral? hn
      cases n with
      | double x => cases hs
      | whole w =>
        simp only [Number.signed?, Option.ite_none_right_eq_some, Option.some.injEq] at hs
        obtain ⟨hw, rfl⟩ := hs
        have := w.low
        simp only [FieldType.holds, Bool.and_eq_false_iff, decide_eq_false_iff_not] at hj
        omega
  rw [hs] at hn
  dsimp only at hn
  have hm : ¬n.toDouble.magnitude < endOfRange := by
    intro hm
    have hpart : FieldType.wholePart? n.toDouble = some n.toDouble.truncate := if_pos hm
    rw [hpart, Option.bind_some] at hn
    have htruncate := holds_of_integral? hn
    have hdiv : n.toDouble.magnitude / unit < 0x8000000000000000 :=
      Nat.div_lt_of_lt_mul (by rw [Nat.mul_comm]; exact hm)
    rw [← natAbs_truncate] at hdiv
    simp only [FieldType.holds, Bool.and_eq_false_iff, decide_eq_false_iff_not] at htruncate
    omega
  have hlt := FieldType.lt_of_holds hk
  have hunits := natAbs_units_toDouble (k := k) (by have := k.low; omega)
  exact compare_of_units_le hlt hs hunits (Nat.not_lt.mp hm)

/-- A number that an integral type does not hold is above or below all its values. Only at the ends of
the range of 64 bits rounding can make them equal. -/
theorem compare_beyond (ht : t.isIntegral = true) (hk : t.holds k.value = true)
    (hn : coerce? t (.num n) = none) :
    (Number.whole k).compare n = n.side ∨
      t = .long ∧ n.toDouble.magnitude = endOfRange ∧ (Number.whole k).compare n = .eq := by
  cases t with
  | integer => exact .inl (compare_beyond_integer hk hn)
  | long => exact (compare_beyond_long hk hn).imp_right fun h => ⟨rfl, h⟩
  | _ => cases ht

end EntityGraph
