namespace EntityGraph

def roundDiv (num den : Nat) : Nat :=
  if 2 * (num % den) < den ∨ (2 * (num % den) = den ∧ num / den % 2 = 0) then num / den
  else num / den + 1

theorem roundDiv_le_succ (num den : Nat) : roundDiv num den ≤ num / den + 1 := by
  unfold roundDiv
  split <;> omega

theorem roundDiv_le {num den q : Nat} (h : num < q * den) : roundDiv num den ≤ q := by
  have hq : num / den < q := Nat.div_lt_of_lt_mul (by rwa [Nat.mul_comm])
  have := roundDiv_le_succ num den
  omega

namespace Double

@[irreducible]
def places : Nat := 1074

def unit : Nat := 1 <<< places

theorem unit_pos : 0 < unit := by
  rw [unit, Nat.shiftLeft_eq, Nat.one_mul]
  exact Nat.two_pow_pos places

@[irreducible]
def topPlace : Nat := 1024

theorem topPlace_gt : 65 < topPlace := by
  unfold topPlace
  decide

def limit : Nat := unit <<< topPlace

end Double

/-- A finite binary64 number: a sign and a count of units of two to the power -1074. The count has
at most 53 significant bits; zero keeps its sign. -/
structure Double where
  negative : Bool
  magnitude : Nat
  digits : ∃ m e, m < 1 <<< 53 ∧ magnitude = m <<< e
  inRange : magnitude < Double.limit
  deriving DecidableEq

namespace Double

def units (x : Double) : Int :=
  if x.negative then -(x.magnitude : Int) else x.magnitude

instance : BEq Double := ⟨fun x y => x.units == y.units⟩

/-- The bits that do not fit into 53 when the ratio is counted in units. -/
def excess (num den : Nat) : Nat :=
  (num * unit / den).log2 - 52

/-- The nearest count of units that has at most 53 significant bits, a half to the even one. -/
def nearest (num den : Nat) : Nat :=
  roundDiv (num * unit) (den <<< excess num den) <<< excess num den

theorem ratio_lt (num den : Nat) (hden : 0 < den) :
    num * unit < 1 <<< 53 * den <<< excess num den := by
  rw [Nat.shiftLeft_eq, Nat.shiftLeft_eq, Nat.one_mul]
  by_cases hz : num * unit / den = 0
  · have h1 : num * unit < den := by
      rcases Nat.div_eq_zero_iff.mp hz with h | h <;> omega
    have h2 : den * 1 ≤ den * 2 ^ excess num den := Nat.mul_le_mul_left _ Nat.one_le_two_pow
    omega
  · have h1 : num * unit / den < 2 ^ (excess num den + 53) := by
      apply (Nat.log2_lt hz).mp
      unfold excess
      omega
    have h2 := (Nat.div_lt_iff_lt_mul hden).mp h1
    calc num * unit < 2 ^ (excess num den + 53) * den := h2
      _ = 2 ^ 53 * (den * 2 ^ excess num den) := by rw [Nat.pow_add]; ac_rfl

theorem nearest_digits (num den : Nat) (hden : 0 < den) :
    ∃ m e, m < 1 <<< 53 ∧ nearest num den = m <<< e := by
  have hle := roundDiv_le (ratio_lt num den hden)
  rcases Nat.lt_or_ge (roundDiv (num * unit) (den <<< excess num den)) (1 <<< 53) with h | h
  · exact ⟨_, _, h, rfl⟩
  · refine ⟨1 <<< 52, excess num den + 1, by decide, ?_⟩
    rw [nearest, Nat.le_antisymm hle h, ← Nat.shiftLeft_add, ← Nat.shiftLeft_add]
    congr 1
    omega

theorem nearest_le (n : Nat) : nearest n 1 ≤ 2 * (n * unit) + 1 := by
  have h1 : nearest n 1 ≤ n * unit + 2 ^ excess n 1 := by
    rw [nearest, Nat.shiftLeft_eq, Nat.shiftLeft_eq, Nat.one_mul]
    calc roundDiv (n * unit) (2 ^ excess n 1) * 2 ^ excess n 1
        ≤ (n * unit / 2 ^ excess n 1 + 1) * 2 ^ excess n 1 :=
          Nat.mul_le_mul_right _ (roundDiv_le_succ _ _)
      _ ≤ n * unit + 2 ^ excess n 1 := by
          rw [Nat.add_mul, Nat.one_mul]
          exact Nat.add_le_add_right (Nat.div_mul_le_self _ _) _
  have h2 : 2 ^ excess n 1 ≤ n * unit + 1 := by
    unfold excess
    rw [Nat.div_one]
    by_cases hz : n * unit = 0
    · simp [hz]
    · calc 2 ^ ((n * unit).log2 - 52) ≤ 2 ^ (n * unit).log2 :=
            Nat.pow_le_pow_right (by decide) (Nat.sub_le _ _)
        _ ≤ n * unit := Nat.log2_self_le hz
        _ ≤ n * unit + 1 := Nat.le_succ _
  omega

theorem nearest_lt_limit {n : Nat} (h : n < UInt64.size) : nearest n 1 < limit := by
  have h1 : nearest n 1 ≤ 2 ^ 65 * unit := by
    have hn : 2 * n + 1 ≤ 2 ^ 65 := by
      have : n < 18446744073709551616 := h
      omega
    have := unit_pos
    calc nearest n 1 ≤ 2 * (n * unit) + 1 := nearest_le n
      _ ≤ 2 * (n * unit) + unit := by omega
      _ = (2 * n + 1) * unit := by rw [Nat.add_mul, Nat.one_mul, Nat.mul_assoc]
      _ ≤ 2 ^ 65 * unit := Nat.mul_le_mul_right _ hn
  have h2 : 2 ^ 65 * unit < limit := by
    rw [limit, Nat.shiftLeft_eq, Nat.mul_comm unit]
    exact Nat.mul_lt_mul_of_pos_right (Nat.pow_lt_pow_right (by decide) topPlace_gt) unit_pos
  omega

def ofRatio? (negative : Bool) (num den : Nat) : Option Double :=
  if hden : 0 < den then
    if h : nearest num den < limit then
      some ⟨negative, nearest num den, nearest_digits num den hden, h⟩
    else none
  else none

def ofNatural (negative : Bool) (n : Nat) (h : n < UInt64.size) : Double :=
  ⟨negative, nearest n 1, nearest_digits n 1 Nat.one_pos, nearest_lt_limit h⟩

def zero (negative : Bool) : Double :=
  ofNatural negative 0 (by decide)

/-- The number nearest to a decimal; none where that is beyond the largest finite one. Exponents far
outside the range of the format are settled by the count of digits, so that no huge power is
computed. -/
def ofDecimal? (negative : Bool) (digits : Nat) (exponent : Int) : Option Double :=
  let top := (Nat.toDigits 10 digits).length + exponent
  if digits = 0 ∨ top < -330 then some (zero negative)
  else if 310 < top then none
  else if 0 ≤ exponent then ofRatio? negative (digits * Nat.pow 10 exponent.toNat) 1
  else ofRatio? negative digits (Nat.pow 10 (-exponent).toNat)

def mul? (x y : Double) : Option Double :=
  ofRatio? (x.negative != y.negative) (x.magnitude * y.magnitude) (unit * unit)

def div? (x y : Double) : Option Double :=
  ofRatio? (x.negative != y.negative) x.magnitude y.magnitude

def isZero (x : Double) : Bool :=
  x.magnitude == 0

def isWhole (x : Double) : Bool :=
  x.magnitude % unit == 0

def truncate (x : Double) : Int :=
  if x.negative then -((x.magnitude / unit : Nat) : Int) else (x.magnitude / unit : Nat)

def compare (x y : Double) : Ordering :=
  Ord.compare x.units y.units

def negate (x : Double) : Double :=
  { x with negative := !x.negative }

end Double

end EntityGraph
