import EntityGraph.Proofs.Query.Bindable
import EntityGraph.Proofs.Query.Derived

namespace EntityGraph

open Double

namespace Number

def units : Number → Int
  | .whole n => n.value * Double.unit
  | .double x => x.units

/-- The number without its fraction. -/
def wholePart : Number → Int
  | .whole n => n.value
  | .double x => x.truncate

/-- A number beyond the signed ones of 64 bits, and a signed one that is another number but the same one in
binary, at an end of their range. -/
structure Coincides (v : Number) (k : Whole) : Prop where
  beyond : v.signed? = none
  atEnd : v.toDouble.magnitude = endOfRange
  rounded : (Number.whole k).toDouble.units = v.toDouble.units
  ne : k.value ≠ v.wholePart

end Number

section Values

variable {t : FieldType} {k n : Whole} {v : Number} {w : Json} {x : Double}

theorem Double.unit_dvd_magnitude (h : 2 ^ 53 * unit ≤ x.magnitude) : unit ∣ x.magnitude := by
  obtain ⟨d, e, hd, he⟩ := x.digits
  rw [Nat.shiftLeft_eq, Nat.one_mul] at hd
  rw [Nat.shiftLeft_eq] at he
  rw [unit_eq] at h ⊢
  rw [he] at h ⊢
  have hplaces : places ≤ e := by
    by_contra hlt
    have hpow : (2 : Nat) ^ e ≤ 2 ^ places := Nat.pow_le_pow_right (by decide) (Nat.le_of_not_le hlt)
    have hmul : d * 2 ^ e < 2 ^ 53 * 2 ^ places :=
      Nat.lt_of_lt_of_le (Nat.mul_lt_mul_of_pos_right hd (Nat.two_pow_pos e)) (Nat.mul_le_mul_left _ hpow)
    exact absurd h (Nat.not_le.mpr hmul)
  exact Nat.dvd_mul_left_of_dvd (Nat.pow_dvd_pow 2 hplaces) d

theorem endOfRange_le_magnitude (h : 0x8000000000000000 ≤ n.value) :
    endOfRange ≤ (Number.whole n).toDouble.magnitude :=
  two_pow_le_nearest (e := 63) (by omega)

theorem Number.signed?_cases (v : Number) :
    (∃ n : Whole, v = .whole n ∧ n.value < 0x8000000000000000 ∧ v.signed? = some n.value) ∨
      (∃ n : Whole, v = .whole n ∧ 0x8000000000000000 ≤ n.value ∧ v.signed? = none) ∨
      ∃ x : Double, v = .double x ∧ v.signed? = none := by
  cases v with
  | double x => exact .inr (.inr ⟨x, rfl, rfl⟩)
  | whole n =>
    by_cases hn : n.value < 0x8000000000000000
    · exact .inl ⟨n, rfl, hn, if_pos hn⟩
    · exact .inr (.inl ⟨n, rfl, Int.not_lt.mp hn, if_neg hn⟩)

namespace FieldType

theorem wholePart?_of_le (h : endOfRange ≤ x.magnitude) : wholePart? x = none :=
  if_neg (Nat.not_lt.mpr h)

theorem integral?_wholePart (ht : t.isIntegral = true) (h : coerce? t (.num v) = some w) :
    t.integral? v.wholePart = some w := by
  rw [coerce?_num ht] at h
  rcases v.signed?_cases with ⟨n, rfl, -, hs⟩ | ⟨n, rfl, hn, hs⟩ | ⟨x, rfl, hs⟩
  · rw [hs] at h
    exact h
  · rw [hs] at h
    dsimp only at h
    rw [wholePart?_of_le (endOfRange_le_magnitude hn)] at h
    cases h
  · obtain ⟨i, hi, h⟩ := Option.bind_eq_some_iff.mp h
    obtain ⟨-, hi⟩ := Option.ite_none_right_eq_some.mp hi
    obtain rfl := Option.some.inj hi
    exact h

theorem beyond_of_coerce?_none (ht : t.isIntegral = true) (h : coerce? t (.num v) = none) :
    t.holds v.wholePart = false ∨ v.signed? = none ∧ endOfRange ≤ v.toDouble.magnitude := by
  rw [coerce?_num ht] at h
  rcases v.signed?_cases with ⟨n, rfl, -, hs⟩ | ⟨n, rfl, hn, hs⟩ | ⟨x, rfl, hs⟩
  · rw [hs] at h
    exact .inl (holds_of_integral? h)
  · exact .inr ⟨hs, endOfRange_le_magnitude hn⟩
  · by_cases hlt : x.magnitude < endOfRange
    · have hpart : wholePart? x = some x.truncate := if_pos hlt
      change (wholePart? x).bind t.integral? = none at h
      rw [hpart] at h
      exact .inl (holds_of_integral? h)
    · exact .inr ⟨hs, Nat.not_lt.mp hlt⟩

end FieldType

theorem FieldType.lt_of_not_holds {i j : Int} (hi : t.holds i = true) (hj : t.holds j = false) :
    (j < 0 → j < i) ∧ (0 ≤ j → i < j) := by
  cases t <;> simp [holds] at hi hj <;> omega

theorem natAbs_wholePart (hs : v.signed? = none) (h : endOfRange ≤ v.toDouble.magnitude) :
    0x8000000000000000 ≤ v.wholePart.natAbs := by
  rcases v.signed?_cases with ⟨n, rfl, -, hs'⟩ | ⟨n, rfl, hn, -⟩ | ⟨x, rfl, -⟩
  · rw [hs] at hs'
    cases hs'
  · rw [Number.wholePart]
    omega
  · rw [Number.wholePart, natAbs_truncate]
    exact (Nat.le_div_iff_mul_le unit_pos).mpr h

theorem side_eq (h : v.wholePart ≠ 0) : v.side = if v.wholePart < 0 then .gt else .lt := by
  cases v with
  | whole n => exact if_congr decide_eq_true_iff rfl rfl
  | double x =>
    have hsign : x.negative = true ↔ x.truncate < 0 := by
      change x.truncate ≠ 0 at h
      unfold truncate at h ⊢
      generalize x.magnitude / unit = q at h ⊢
      split
      · next hneg =>
        rw [if_pos hneg] at h
        exact iff_of_true hneg (by omega)
      · next hneg => exact iff_of_false hneg (by omega)
    exact if_congr hsign rfl rfl

theorem compare_eq_side {i j : Int} (h : (j < 0 → j < i) ∧ (0 ≤ j → i < j)) :
    Ord.compare i j = if j < 0 then .gt else .lt := by
  split
  · next hneg => exact compare_gt_iff_gt.mpr (h.1 hneg)
  · next hneg => exact compare_lt_iff_lt.mpr (h.2 (Int.not_lt.mp hneg))

theorem side_eq_compare (ht : t.isIntegral = true) (hk : t.holds k.value = true)
    (hn : coerce? t (.num v) = none) (hne : k.value ≠ v.wholePart) :
    v.side = Ord.compare k.value v.wholePart := by
  rcases FieldType.beyond_of_coerce?_none ht hn with h | ⟨hs, h⟩
  · have hzero : v.wholePart ≠ 0 := by
      intro hzero
      rw [hzero] at h
      cases t <;> cases h
    rw [side_eq hzero, compare_eq_side (FieldType.lt_of_not_holds hk h)]
  · have habs := natAbs_wholePart hs h
    have hlow := k.low
    have hhigh := FieldType.lt_of_holds hk
    have hzero : v.wholePart ≠ 0 := by omega
    rw [side_eq hzero, compare_eq_side (by omega)]

theorem compare_eq_of_eq (ht : t.isIntegral = true) (hk : t.holds k.value = true)
    (hn : coerce? t (.num v) = none) (he : k.value = v.wholePart) : (Number.whole k).compare v = .eq := by
  have hhigh := FieldType.lt_of_holds hk
  rcases FieldType.beyond_of_coerce?_none ht hn with h | ⟨hs, h⟩
  · rw [← he, hk] at h
    cases h
  have habs := natAbs_wholePart hs h
  have hvalue : k.value = -0x8000000000000000 := by
    have := k.low
    omega
  cases v with
  | whole n =>
    rw [Number.wholePart] at he
    have hn' : n.value < 0x8000000000000000 := he ▸ hhigh
    rw [Number.signed?, if_pos hn'] at hs
    cases hs
  | double x =>
    change endOfRange ≤ x.magnitude at h
    change k.value = x.truncate at he
    have hquotient : x.magnitude / unit = 2 ^ 63 := by
      rw [← natAbs_truncate, ← he, hvalue]
      rfl
    have hmagnitude : x.magnitude = 2 ^ 63 * unit := by
      rw [← hquotient, Nat.div_mul_cancel (unit_dvd_magnitude (Nat.le_trans ?_ h))]
      exact Nat.mul_le_mul_right unit (by decide)
    have hneg : x.negative = true := by
      by_contra hpos
      rw [truncate, if_neg hpos, hquotient] at he
      omega
    rw [compare_of_not_signed hhigh hs, compare_eq_iff_eq, units_toDouble_whole, hvalue, if_pos (by decide),
      show (-0x8000000000000000 : Int).natAbs = 2 ^ 63 from rfl, nearest_two_pow, ← hmagnitude]
    exact (if_pos hneg).symm

theorem signed?_eq_none (hk : k.value < 0x8000000000000000) (h : (Number.whole k).compare v = .eq)
    (hne : k.value ≠ v.wholePart) : v.signed? = none := by
  rcases v.signed?_cases with ⟨n, rfl, hn, -⟩ | ⟨n, rfl, -, hs⟩ | ⟨x, rfl, hs⟩
  · rw [Number.compare_whole hk hn] at h
    exact absurd (compare_eq_iff_eq.mp h) hne
  · exact hs
  · exact hs

theorem coerceOrKeep_num_ne_null (ht : t.isIntegral = true) : coerceOrKeep t (.num v) ≠ .null := by
  cases hc : coerce? t (.num v) with
  | none =>
    rw [coerceOrKeep, hc, Option.getD_none]
    exact Json.isNull_eq_false_iff.mp rfl
  | some w =>
    obtain ⟨-, n, -, rfl⟩ := FieldType.integral?_eq_some_iff.mp (FieldType.integral?_wholePart ht hc)
    rw [coerceOrKeep, hc, Option.getD_some]
    exact Json.isNull_eq_false_iff.mp rfl

/-- A number that is held, or as good as held, is compared exactly with the whole part of another one. -/
theorem compareAs_number (ht : t.isIntegral = true) (hk : t.holds k.value = true)
    (hends : t = .long → ¬v.Coincides k) :
    compareAs t (.num (.whole k)) (coerceOrKeep t (.num v)) =
      some (Ord.compare k.value v.wholePart) := by
  have hhigh := FieldType.lt_of_holds hk
  have hself : coerce? t (.num (.whole k)) = some (.num (.whole k)) := by
    rw [FieldType.coerce?_whole ht hhigh, FieldType.integral?_eq_some_iff]
    exact ⟨hk, k, rfl, rfl⟩
  have hkeep : coerceOrKeep t (.num (.whole k)) = .num (.whole k) := by
    rw [coerceOrKeep, hself, Option.getD_some]
  cases hc : coerce? t (.num v) with
  | some w =>
    have hpart := FieldType.integral?_wholePart ht hc
    obtain ⟨-, hw⟩ := FieldType.isIdentity_of_integral? ht hpart
    obtain ⟨hholds, n, hn, rfl⟩ := FieldType.integral?_eq_some_iff.mp hpart
    have hfixed : coerceOrKeep t (coerceOrKeep t (.num v)) = .num (.whole n) := by
      rw [coerceOrKeep, coerceOrKeep, hc, Option.getD_some, hw, Option.getD_some]
    rw [compareAs, hkeep, hfixed, Json.compare?,
      Number.compare_whole hhigh (hn ▸ FieldType.lt_of_holds hholds), hn]
  | none =>
    have hfixed : coerceOrKeep t (coerceOrKeep t (.num v)) = .num v := by
      rw [coerceOrKeep, coerceOrKeep, hc, Option.getD_none, hc, Option.getD_none]
    rw [compareAs, hkeep, hfixed, Json.compare?, Option.some.injEq]
    by_cases he : k.value = v.wholePart
    · rw [compare_eq_of_eq ht hk hc he, compare_eq_iff_eq.mpr he]
    · rcases compare_beyond ht hk hc with h | ⟨hlong, hend, h⟩
      · rw [h, side_eq_compare ht hk hc he]
      · -- equal in binary, but not as numbers
        have hs := signed?_eq_none hhigh h he
        rw [compare_of_not_signed hhigh hs] at h
        exact absurd ⟨hs, hend, compare_eq_iff_eq.mp h, he⟩ (hends hlong)

end Values

section Filters

variable {g : Registry} {ts : Tables} {m : Model} {field : String} {path : AccessPath} {record : Json}
  {k : Whole} {v : Number}

theorem compare_units (i j : Int) : Ord.compare (i * unit) (j * unit) = Ord.compare i j := by
  have hpos : (0 : Int) < unit := Int.ofNat_lt.mpr unit_pos
  cases h : Ord.compare i j with
  | lt => exact compare_lt_iff_lt.mpr (Int.mul_lt_mul_of_pos_right (compare_lt_iff_lt.mp h) hpos)
  | eq => exact compare_eq_iff_eq.mpr (congrArg (· * _) (compare_eq_iff_eq.mp h))
  | gt => exact compare_gt_iff_gt.mpr (Int.mul_lt_mul_of_pos_right (compare_gt_iff_gt.mp h) hpos)

/-- A filter with a number compares what is stored in an integral field with the whole part of the number,
and so with the number itself if it has no fraction. -/
theorem numbers_are_compared_by_whole_parts (hpath : g.accessPath m field = .ok path)
    (hhops : path.hops = []) (ht : path.type.isIntegral = true) (hrecord : record ∈ ts.records m.path)
    (hx : record.get path.field = .num (.whole k)) (hk : path.type.holds k.value = true) (op : Comparison)
    (second : Option Json) (logic : FilterLogic) (hends : path.type = .long → ¬v.Coincides k) :
    ((⟨field, op.operator, .num v, second⟩ : Filter).Selects g ts m logic record ↔
      op.admits (Ord.compare k.value v.wholePart) = true) ∧
    (v.units = v.wholePart * unit →
      ((⟨field, op.operator, .num v, second⟩ : Filter).Selects g ts m logic record ↔
        op.admits (Ord.compare (k.value * unit) v.units) = true)) := by
  have hcondition : Filter.condition? g m ⟨field, op.operator, .num v, second⟩ =
      some (.compare path op (coerceOrKeep path.type (.num v))) :=
    Filter.condition?_comparison hpath op (coerceOrKeep_num_ne_null ht)
  have hselects : (⟨field, op.operator, .num v, second⟩ : Filter).Selects g ts m logic record ↔
      op.admits (Ord.compare k.value v.wholePart) = true := by
    rw [FilterSpec.selects_iff hcondition hrecord, Predicate.eval, Tables.reached_of_no_hops hhops, hx]
    simp only [List.any_cons, List.any_nil, Bool.or_false, Comparison.satisfied,
      compareAs_number ht hk hends, Option.map_some, Option.getD_some]
  refine ⟨hselects, fun hwhole => ?_⟩
  rw [hselects, hwhole, compare_units]

end Filters

namespace Lending

def pagesAndHalf : Double :=
  ⟨false, 601 <<< 1073, ⟨601, 1073, by decide, rfl⟩, by decide +kernel⟩

def lent : Json :=
  .ofPairs [("due", .str "2024-03-09"), ("id", .ofNat 1), ("pages", .ofNat 300)]

/-- The number of pages is compared with 300 where 300.5 is given, and with 301 where that is. -/
theorem pages_are_compared_with_300 :
    registry.accessPath loan "pages" = .ok pages ∧ lent ∈ tables.records loan.path ∧
      (¬(⟨"pages", .gt, .num (.double pagesAndHalf), none⟩ : Filter).Selects registry tables loan .and
          lent) ∧
      (⟨"pages", .lt, .ofNat 301, none⟩ : Filter).Selects registry tables loan .and lent := by
  have hpath : registry.accessPath loan "pages" = .ok pages := by rfl
  have hlent : lent ∈ tables.records loan.path := by exact .head _
  have hx : lent.get pages.field = .num (.whole ⟨300, by decide, by decide⟩) := by rfl
  have hhalf := numbers_are_compared_by_whole_parts hpath rfl rfl hlent hx (by decide)
    (v := .double pagesAndHalf) .gt none .and nofun
  have hwhole := numbers_are_compared_by_whole_parts hpath rfl rfl hlent hx (by decide)
    (v := .whole ⟨301, by decide, by decide⟩) .lt none .and nofun
  exact ⟨hpath, hlent, fun h => absurd (hhalf.1.mp h) (by decide +kernel),
    (hwhole.2 rfl).mpr (by decide +kernel)⟩

/-- A loan of 300 pages is among those of 300.5 pages, which is another number. -/
theorem pages_and_half_are_pages :
    Registry.ofDefinitions definitions = .ok registry ∧
      registry.accessPath loan "pages" = .ok pages ∧ pages.hops = [] ∧ pages.type = .integer ∧
      lent ∈ tables.records loan.path ∧
      lent.get pages.field = .num (.whole ⟨300, by decide, by decide⟩) ∧
      (⟨"pages", .eq, .num (.double pagesAndHalf), none⟩ : Filter).Selects registry tables loan .and lent ∧
      Comparison.eq.admits (Ord.compare (300 * (Double.unit : Int)) (Number.double pagesAndHalf).units) =
        false := by
  have hlent : lent ∈ tables.records loan.path := by exact .head _
  have hpath : registry.accessPath loan "pages" = .ok pages := by rfl
  have hcondition : Filter.condition? registry loan ⟨"pages", .eq, .num (.double pagesAndHalf), none⟩ = _ :=
    Filter.condition?_comparison hpath .eq (coerceOrKeep_num_ne_null rfl)
  exact ⟨by rfl, hpath, rfl, rfl, hlent, by rfl,
    (FilterSpec.selects_iff hcondition hlent).mpr (by decide +kernel), by decide +kernel⟩

end Lending

end EntityGraph
