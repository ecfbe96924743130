import EntityGraph.Proofs.Coercion.Repetition
import EntityGraph.Proofs.Query.Numbers
import Mathlib.Algebra.Ring.Int.Defs

namespace EntityGraph

inductive Text.Sign
  | none
  | plus
  | minus

def Text.Sign.chars : Text.Sign → List Char
  | none => []
  | plus => ['+']
  | minus => ['-']

def Text.Sign.isNegative : Text.Sign → Bool
  | minus => true
  | _ => false

def Text.Sign.apply (sign : Text.Sign) (n : Nat) : Int :=
  if sign.isNegative then -n else n

/-- Texts of decimal digits with an optional sign and blanks around, and the numbers that they spell. -/
inductive Text.Spells : String → Int → Prop
  | number {before digits after : List Char} (sign : Text.Sign)
      (hbefore : ∀ c ∈ before, Text.isBlank c = true) (hdigits : ∀ c ∈ digits, c.isDigit = true)
      (hne : digits ≠ []) (hafter : ∀ c ∈ after, Text.isBlank c = true) :
      Spells (String.ofList (before ++ (sign.chars ++ digits) ++ after))
        (sign.apply (Nat.ofDigitChars 10 digits 0))

namespace Text

variable {before after cs digits : List Char}

theorem signed_append (sign : Sign) (hdigits : ∀ c ∈ digits, c.isDigit = true) (hne : digits ≠ []) :
    signed (sign.chars ++ digits) = (sign.isNegative, digits) := by
  obtain ⟨c, rest, rfl⟩ := List.exists_cons_of_ne_nil hne
  have hc := hdigits c List.mem_cons_self
  cases sign with
  | plus => rfl
  | minus => rfl
  | none =>
    change signed (c :: rest) = (false, c :: rest)
    unfold signed
    split
    · next he => cases (List.cons.inj he).1; cases hc
    · next he => cases (List.cons.inj he).1; cases hc
    · rfl

variable {s : String} {i : Int}

theorem Spells.exists_trim (h : Spells s i) : ∃ sign ds, (∀ c ∈ ds, c.isDigit = true) ∧ ds ≠ [] ∧
    trim s = String.ofList (Sign.chars sign ++ ds) ∧ i = sign.apply (digitsValue ds) := by
  cases h with
  | @number before digits after sign hbefore hdigits hne hafter =>
    refine ⟨sign, digits, hdigits, hne, ?_, by rw [digitsValue_eq]⟩
    have hblank : ∀ c ∈ sign.chars ++ digits, isBlank c = false := by
      intro c hc
      rcases List.mem_append.mp hc with hc | hc
      · cases sign <;> simp [Sign.chars] at hc <;> (subst hc; decide)
      · exact Calendar.isBlank_of_isDigit (hdigits c hc)
    rw [trim, strip, String.toList_ofList, stripList_between hbefore hafter, stripList_eq_self hblank]

theorem integer?_ofList (sign : Sign) (hdigits : ∀ c ∈ digits, c.isDigit = true) (hne : digits ≠ []) :
    integer? (String.ofList (sign.chars ++ digits)) = some (sign.apply (digitsValue digits)) := by
  rw [integer?, String.toList_ofList, signed_append sign hdigits hne]
  dsimp only
  rw [if_pos (isNumeral_of_isDigit hdigits hne), Sign.apply]

theorem magnitude_of_double? {x : Double} (sign : Sign) (hdigits : ∀ c ∈ digits, c.isDigit = true)
    (hne : digits ≠ []) (hpos : digitsValue digits ≠ 0)
    (h : double? (String.ofList (sign.chars ++ digits)) = some x) :
    x.magnitude = Double.nearest (digitsValue digits) 1 := by
  obtain ⟨htake, hdrop⟩ := Calendar.takeWhile_isDigit_append hdigits [] rfl
  rw [List.append_nil] at htake hdrop
  have hdecimal : Double.ofDecimal? (sign.isNegative) (digitsValue digits) 0 = some x := by
    rw [double?, String.toList_ofList, signed_append sign hdigits hne] at h
    simp only [htake, hdrop, List.append_nil, isNumeral_of_isDigit hdigits hne, if_true, exponent?,
      Option.bind_some, List.length_nil] at h
    exact h
  unfold Double.ofDecimal? at hdecimal
  dsimp only at hdecimal
  rw [if_neg (by omega)] at hdecimal
  split at hdecimal
  · cases hdecimal
  · rw [if_pos (Int.le_refl 0), Double.ofRatio?, dif_pos Nat.one_pos] at hdecimal
    split at hdecimal
    · obtain rfl := Option.some.inj hdecimal
      change Double.nearest (digitsValue digits * 10 ^ 0) 1 = _
      rw [Nat.pow_zero, Nat.mul_one]
    · cases hdecimal

end Text

def HasBits (bits : Nat) (i : Int) : Prop :=
  -2 ^ bits ≤ i ∧ i < 2 ^ bits

instance (bits : Nat) (i : Int) : Decidable (HasBits bits i) :=
  inferInstanceAs (Decidable (_ ∧ _))

/-- What a type of whole numbers with so many bits makes of numbers and of texts that spell numbers. -/
structure FieldType.ConvertsExactly (t : FieldType) (bits : Nat) : Prop where
  /-- The result is the number without its fraction. Binary numbers of magnitude two to the power 63 and more are
  refused, with the lower end of 64 bits. -/
  numbers : ∀ v w, coerce t (.num v) = .ok w ↔
    (∃ n : Whole, n.value = v.units.tdiv Double.unit ∧ w = .num (.whole n) ∧ HasBits bits n.value) ∧
      ∀ x, v = .double x → x.magnitude < 2 ^ 63 * Double.unit
  /-- Whole numbers in the range stay as they are. -/
  wholes : ∀ n : Whole, HasBits bits n.value → coerce t (.num (.whole n)) = .ok (.num (.whole n))
  texts : ∀ s i, Text.Spells s i → ∀ w, coerce t (.str s) = .ok w ↔
    ∃ n : Whole, n.value = i ∧ w = .num (.whole n) ∧ HasBits bits n.value

namespace FieldType

variable {t : FieldType} {bits : Nat} {v : Number} {w : Json} {n : Whole} {s : String} {i : Int}

theorem isIntegral_of_mem (ht : (t, bits) ∈ [(integer, 31), (long, 63)]) : t.isIntegral = true := by
  simp only [List.mem_cons, Prod.mk.injEq, List.not_mem_nil, or_false] at ht
  rcases ht with ⟨rfl, -⟩ | ⟨rfl, -⟩ <;> rfl

theorem holds_iff (ht : (t, bits) ∈ [(integer, 31), (long, 63)]) : t.holds i = true ↔ HasBits bits i := by
  simp only [List.mem_cons, Prod.mk.injEq, List.not_mem_nil, or_false] at ht
  rcases ht with ⟨rfl, rfl⟩ | ⟨rfl, rfl⟩ <;> simp [holds, HasBits]

theorem integral?_iff (ht : (t, bits) ∈ [(integer, 31), (long, 63)]) :
    t.integral? i = some w ↔ ∃ n : Whole, n.value = i ∧ w = .num (.whole n) ∧ HasBits bits n.value := by
  rw [integral?_eq_some_iff, holds_iff ht]
  constructor
  · rintro ⟨hi, n, rfl, rfl⟩
    exact ⟨n, rfl, rfl, hi⟩
  · rintro ⟨n, rfl, rfl, hi⟩
    exact ⟨hi, n, rfl, rfl⟩

theorem wholePart_eq_tdiv (v : Number) : v.wholePart = v.units.tdiv Double.unit := by
  have hunit : (Double.unit : Int) ≠ 0 := Int.natCast_ne_zero.mpr (Nat.ne_of_gt Double.unit_pos)
  cases v with
  | whole n => exact (Int.mul_tdiv_cancel n.value hunit).symm
  | double x =>
    rw [Number.wholePart, Number.units, Double.truncate, Double.units]
    split
    · rw [Int.neg_tdiv, Int.ofNat_tdiv]
    · rw [Int.ofNat_tdiv]

theorem coerce?_number_iff (ht : (t, bits) ∈ [(integer, 31), (long, 63)]) :
    coerce? t (.num v) = some w ↔
      t.integral? v.wholePart = some w ∧ ∀ x, v = .double x → x.magnitude < 2 ^ 63 * Double.unit := by
  have hintegral := isIntegral_of_mem ht
  constructor
  · intro h
    refine ⟨integral?_wholePart hintegral h, ?_⟩
    rintro x rfl
    by_contra hx
    have hpart : wholePart? x = none := wholePart?_of_le (Nat.not_lt.mp hx)
    rw [coerce?_num hintegral] at h
    simp [Number.signed?, Number.toDouble, hpart] at h
  · rintro ⟨h, hx⟩
    cases v with
    | whole n => exact (coerce?_whole hintegral (lt_of_holds (integral?_eq_some_iff.mp h).1)).trans h
    | double x =>
      have hpart : wholePart? x = some x.truncate := if_pos (hx x rfl)
      rw [coerce?_num hintegral]
      exact (congrArg (·.bind t.integral?) hpart).trans h

theorem wholePart?_of_double? {sign : Text.Sign} {ds : List Char} {x : Double}
    (hdigits : ∀ c ∈ ds, c.isDigit = true) (hne : ds ≠ [])
    (hlong : long.holds (sign.apply (Text.digitsValue ds)) = false)
    (hx : Text.double? (String.ofList (sign.chars ++ ds)) = some x) : wholePart? x = none := by
  have hvalue : 2 ^ 63 ≤ Text.digitsValue ds := by
    unfold Text.Sign.apply at hlong
    simp only [holds, Bool.and_eq_false_iff, decide_eq_false_iff_not] at hlong
    split at hlong <;> omega
  refine wholePart?_of_le ?_
  rw [Text.magnitude_of_double? sign hdigits hne (by omega) hx]
  exact Double.two_pow_le_nearest hvalue

theorem long_holds_of_holds (h : t.holds i = true) : long.holds i = true := by
  cases t <;> simp [holds] at h ⊢ <;> omega

theorem coerce?_spelled (ht : t.isIntegral = true) (hs : Text.Spells s i) :
    coerce? t (.str s) = t.integral? i := by
  obtain ⟨sign, ds, hdigits, hne, htrim, rfl⟩ := hs.exists_trim
  have hempty : (Text.trim s).isEmpty = false := by
    rw [htrim, Bool.eq_false_iff]
    intro he
    exact List.append_ne_nil_of_right_ne_nil sign.chars hne (by simpa using he)
  rw [coerce?_str ht, if_neg (Bool.eq_false_iff.mp hempty), htrim, integralOfText?,
    Text.integer?_ofList sign hdigits hne]
  cases hlong : long.holds (sign.apply (Text.digitsValue ds)) with
  | true => rw [Option.filter_some_pos hlong]
  | false =>
    have hnone : t.integral? (sign.apply (Text.digitsValue ds)) = none :=
      if_neg fun h => Bool.eq_false_iff.mp hlong (long_holds_of_holds h)
    rw [Option.filter_some_neg hlong, hnone]
    cases hx : Text.double? (String.ofList (sign.chars ++ ds)) with
    | none => rfl
    | some x =>
      have hpart := wholePart?_of_double? hdigits hne hlong hx
      cases hwhole : x.isWhole <;> simp [Option.filter, hwhole, hpart]

/-- Conversion to an integral type neither wraps around nor stops at the ends of the range. -/
theorem integral_conversion_is_exact (ht : (t, bits) ∈ [(integer, 31), (long, 63)]) :
    t.ConvertsExactly bits := by
  have hintegral := isIntegral_of_mem ht
  refine ⟨fun v w => ?_, fun n hn => ?_, fun s i hs w => ?_⟩
  · rw [coerce_eq_ok_iff, coerce?_number_iff ht, wholePart_eq_tdiv, integral?_iff ht]
  · rw [coerce_eq_ok_iff, coerce?_number_iff ht, integral?_iff ht]
    exact ⟨⟨n, rfl, rfl, hn⟩, nofun⟩
  · rw [coerce_eq_ok_iff, coerce?_spelled hintegral hs, integral?_iff ht]

/-- The last number that a long integer can be, the first one that it cannot be and is next to it in binary, and
a number with a fraction. -/
theorem numbers_at_ends_of_long :
    (long, 63) ∈ [(integer, 31), (long, 63)] ∧
      coerce .long (.str " +9223372036854775807") =
        .ok (.num (.whole ⟨9223372036854775807, by decide, by decide⟩)) ∧
      (∀ w, coerce .long (.str "-9223372036854775809") ≠ .ok w) ∧
      coerce .long (.num (.double Lending.pagesAndHalf)) = .ok (.ofNat 300) := by
  have hlong : long.ConvertsExactly 63 := integral_conversion_is_exact (.tail _ (.head _))
  have hlast : Text.Spells " +9223372036854775807" 9223372036854775807 :=
    @Text.Spells.number [' '] "9223372036854775807".toList [] .plus (List.all_eq_true.mp rfl)
      (List.all_eq_true.mp rfl) (by simp) nofun
  have hbeyond : Text.Spells "-9223372036854775809" (-9223372036854775809) :=
    @Text.Spells.number [] "9223372036854775809".toList [] .minus nofun (List.all_eq_true.mp rfl) (by simp)
      nofun
  refine ⟨.tail _ (.head _), (hlong.texts _ _ hlast _).mpr ⟨_, rfl, rfl, by decide⟩, fun w hw => ?_,
    (hlong.numbers _ _).mpr ⟨⟨⟨300, by decide, by decide⟩, by decide +kernel, rfl, by decide⟩, ?_⟩⟩
  · obtain ⟨n, hn, -, hbits⟩ := (hlong.texts _ _ hbeyond w).mp hw
    rw [hn] at hbits
    exact absurd hbits (by decide)
  · rintro x ⟨⟩
    decide +kernel

end FieldType

end EntityGraph
