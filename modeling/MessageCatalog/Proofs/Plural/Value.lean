import Mathlib.Data.Rat.Floor
import Mathlib.Tactic.FieldSimp
import Mathlib.Tactic.Linarith
import Mathlib.Tactic.Positivity
import MessageCatalog.Plural.Operand

/-!
# The values of written numbers

A `Decimal` is a number as written, and `Decimal.toRat` is its value. Two numbers are compared by
their integer parts and then by their fractions, brought to the same number of places, with the
signs looked at first. Here it is proved that this compares the values (`compare_eq_cmp`).

It does for numbers whose fraction is below one, that is, whose fraction digits form a number with
at most so many digits (`WellFormed`). An integer is of this kind, and so are every operand of such a
number and what a modulus makes of it.
-/

namespace MessageCatalog

namespace Decimal

/-! ### The value -/

/-- The value without the sign. -/
def magnitude (x : Decimal) : ℚ := x.integer + x.fraction / 10 ^ x.digits

/-- The value of a number. -/
def toRat (x : Decimal) : ℚ := if x.negative then -x.magnitude else x.magnitude

/-- Whether the fraction is below one. -/
def WellFormed (x : Decimal) : Prop := x.fraction < power x.digits

instance (x : Decimal) : Decidable x.WellFormed :=
  inferInstanceAs (Decidable (x.fraction < power x.digits))

theorem power_eq (exponent : Nat) : power exponent = 10 ^ exponent := rfl

theorem magnitude_nonneg (x : Decimal) : 0 ≤ x.magnitude := by
  unfold magnitude
  positivity

theorem magnitude_eq_zero_iff {x : Decimal} : x.magnitude = 0 ↔ x.isZero = true := by
  have hinteger : (0 : ℚ) ≤ x.integer := by positivity
  have hfraction : (0 : ℚ) ≤ x.fraction / 10 ^ x.digits := by positivity
  rw [magnitude, add_eq_zero_iff_of_nonneg hinteger hfraction]
  simp [isZero]

theorem toRat_eq_zero_iff {x : Decimal} : x.toRat = 0 ↔ x.isZero = true := by
  rw [← magnitude_eq_zero_iff, toRat]
  split <;> simp

theorem toRat_of_not_isNegative {x : Decimal} (h : x.isNegative = false) :
    x.toRat = x.magnitude := by
  rw [toRat]
  split
  next hneg =>
    have hzero : x.magnitude = 0 := magnitude_eq_zero_iff.2 (by simpa [isNegative, hneg] using h)
    simp [hzero]
  next => rfl

theorem toRat_of_isNegative {x : Decimal} (h : x.isNegative = true) : x.toRat = -x.magnitude := by
  obtain ⟨hneg, -⟩ : x.negative = true ∧ x.isZero = false := by simpa [isNegative] using h
  simp [toRat, hneg]

theorem toRat_neg_of_isNegative {x : Decimal} (h : x.isNegative = true) : x.toRat < 0 := by
  obtain ⟨-, hzero⟩ : x.negative = true ∧ x.isZero = false := by simpa [isNegative] using h
  have hne : x.magnitude ≠ 0 := fun heq => by simp [magnitude_eq_zero_iff.1 heq] at hzero
  have hpos : 0 < x.magnitude := lt_of_le_of_ne x.magnitude_nonneg hne.symm
  rw [toRat_of_isNegative h]
  linarith

theorem toRat_nonneg_of_not_isNegative {x : Decimal} (h : x.isNegative = false) : 0 ≤ x.toRat := by
  rw [toRat_of_not_isNegative h]
  exact x.magnitude_nonneg

theorem abs_toRat (x : Decimal) : |x.toRat| = x.magnitude := by
  rw [toRat]
  split
  · rw [abs_neg, abs_of_nonneg x.magnitude_nonneg]
  · exact abs_of_nonneg x.magnitude_nonneg

/-! ### The order -/

/-- The magnitude in units of the last of so many places. -/
def units (x : Decimal) (places : Nat) : Nat := x.integer * power places + x.fractionAt places

theorem fractionAt_lt {x : Decimal} (hx : x.WellFormed) {places : Nat} (h : x.digits ≤ places) :
    x.fractionAt places < power places := by
  have hsplit : power places = power x.digits * power (places - x.digits) := by
    rw [power_eq, power_eq, power_eq, ← pow_add, Nat.add_sub_cancel' h]
  rw [fractionAt, hsplit]
  exact Nat.mul_lt_mul_of_pos_right hx (Nat.pow_pos (by decide))

theorem magnitude_mul_pow {x : Decimal} {places : Nat} (h : x.digits ≤ places) :
    x.magnitude * 10 ^ places = x.units places := by
  have hsplit : (10 : ℚ) ^ places = 10 ^ x.digits * 10 ^ (places - x.digits) := by
    rw [← pow_add, Nat.add_sub_cancel' h]
  rw [magnitude, units, fractionAt, power_eq, power_eq]
  push_cast
  rw [hsplit]
  field_simp

/-- Comparing two pairs place by place compares the numbers that they form. -/
theorem then_compare_eq_cmp {unit : Nat} (i j : Nat) {a b : Nat} (ha : a < unit) (hb : b < unit) :
    (Ord.compare i j).then (Ord.compare a b) = cmp (i * unit + a) (j * unit + b) := by
  rcases Nat.lt_trichotomy i j with hij | rfl | hij
  · have hlt : i * unit + a < j * unit + b := by
      have := Nat.mul_le_mul_right unit (Nat.succ_le_of_lt hij)
      rw [Nat.succ_mul] at this
      omega
    rw [hlt.cmp_eq_lt, ← cmp_eq_compare i j, hij.cmp_eq_lt]
    rfl
  · rw [cmp_add_left, cmp_eq_compare, ← cmp_eq_compare i i, cmp_self_eq_eq]
    rfl
  · have hlt : j * unit + b < i * unit + a := by
      have := Nat.mul_le_mul_right unit (Nat.succ_le_of_lt hij)
      rw [Nat.succ_mul] at this
      omega
    rw [hlt.cmp_eq_gt, ← cmp_eq_compare i j, hij.cmp_eq_gt]
    rfl

variable {x y : Decimal}

theorem compareMagnitude_eq_cmp (hx : x.WellFormed) (hy : y.WellFormed) :
    x.compareMagnitude y = cmp x.magnitude y.magnitude := by
  have hxplaces : x.digits ≤ max x.digits y.digits := le_max_left _ _
  have hyplaces : y.digits ≤ max x.digits y.digits := le_max_right _ _
  have hpos : (0 : ℚ) < 10 ^ max x.digits y.digits := by positivity
  calc x.compareMagnitude y
      = cmp (x.units (max x.digits y.digits)) (y.units (max x.digits y.digits)) :=
        then_compare_eq_cmp _ _ (fractionAt_lt hx hxplaces) (fractionAt_lt hy hyplaces)
    _ = cmp (x.units (max x.digits y.digits) : ℚ) (y.units (max x.digits y.digits)) :=
        (Nat.strictMono_cast.cmp_map_eq _ _).symm
    _ = cmp (x.magnitude * 10 ^ max x.digits y.digits)
          (y.magnitude * 10 ^ max x.digits y.digits) := by
        rw [magnitude_mul_pow hxplaces, magnitude_mul_pow hyplaces]
    _ = cmp x.magnitude y.magnitude := cmp_mul_pos_right hpos _ _

/-- **Numbers are compared by their values.** -/
theorem compare_eq_cmp (hx : x.WellFormed) (hy : y.WellFormed) :
    x.compare y = cmp x.toRat y.toRat := by
  rw [Decimal.compare]
  cases hxneg : x.isNegative with
  | false =>
    cases hyneg : y.isNegative with
    | false =>
      rw [toRat_of_not_isNegative hxneg, toRat_of_not_isNegative hyneg]
      exact compareMagnitude_eq_cmp hx hy
    | true =>
      have hlt := (toRat_neg_of_isNegative hyneg).trans_le (toRat_nonneg_of_not_isNegative hxneg)
      exact hlt.cmp_eq_gt.symm
  | true =>
    cases hyneg : y.isNegative with
    | false =>
      have hlt := (toRat_neg_of_isNegative hxneg).trans_le (toRat_nonneg_of_not_isNegative hyneg)
      exact hlt.cmp_eq_lt.symm
    | true =>
      rw [toRat_of_isNegative hxneg, toRat_of_isNegative hyneg]
      have hanti : StrictAnti fun q : ℚ => -q := fun _ _ hlt => neg_lt_neg hlt
      rw [hanti.cmp_map_eq]
      exact compareMagnitude_eq_cmp hy hx

theorem atMost_iff (hx : x.WellFormed) (hy : y.WellFormed) :
    x.atMost y = true ↔ x.toRat ≤ y.toRat := by
  rw [atMost, compare_eq_cmp hx hy, ← not_lt, ← cmp_eq_gt_iff]
  cases cmp x.toRat y.toRat <;> simp

/-! ### Which numbers are well-formed -/

theorem wellFormed_ofNat (n : Nat) : (ofNat n).WellFormed := Nat.one_pos

theorem wellFormed_ofInt (i : Int) : (ofInt i).WellFormed := Nat.one_pos

theorem WellFormed.abs (hx : x.WellFormed) : x.abs.WellFormed := hx

theorem WellFormed.modulo (hx : x.WellFormed) (m : Nat) : (x.modulo m).WellFormed := hx

/-! ### Integer part and fraction -/

theorem fraction_lt_one (hx : x.WellFormed) : (x.fraction : ℚ) / 10 ^ x.digits < 1 := by
  rw [div_lt_one (by positivity)]
  exact_mod_cast hx

theorem floor_magnitude (hx : x.WellFormed) : ⌊x.magnitude⌋₊ = x.integer := by
  rw [Nat.floor_eq_iff x.magnitude_nonneg, magnitude]
  have hfraction : (0 : ℚ) ≤ x.fraction / 10 ^ x.digits := by positivity
  constructor
  · linarith
  · linarith [fraction_lt_one hx]

theorem fract_magnitude (hx : x.WellFormed) :
    Int.fract x.magnitude = x.fraction / 10 ^ x.digits := by
  rw [magnitude, Int.fract_natCast_add, Int.fract_eq_self]
  exact ⟨by positivity, fraction_lt_one hx⟩

/-- A modulus reduces the integer part and keeps the fraction. -/
theorem toRat_modulo (hx : x.WellFormed) (m : Nat) :
    (x.modulo m).toRat = (⌊x.magnitude⌋₊ % m : Nat) + Int.fract x.magnitude := by
  rw [floor_magnitude hx, fract_magnitude hx]
  rfl

end Decimal

namespace Operand

theorem negative_value (operand : Operand) (x : Decimal) :
    (operand.value x).negative = false := by
  cases operand <;> rfl

theorem wellFormed_value {x : Decimal} (hx : x.WellFormed) (operand : Operand) :
    (operand.value x).WellFormed := by
  cases operand with
  | n => exact hx.abs
  | i | v | w | f | t | c | e => exact Decimal.wellFormed_ofNat _

/-- An operand has no sign. -/
theorem toRat_value (operand : Operand) (x : Decimal) :
    (operand.value x).toRat = (operand.value x).magnitude := by
  simp [Decimal.toRat, negative_value]

end Operand

end MessageCatalog
