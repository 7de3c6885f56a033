import MessageCatalog.Proofs.Plural.Order

/-!
# What the operands say about a number

The operands take a number apart: `i` is its integer part, `v` and `f` are the fraction as it is
written, and `w` and `t` are the fraction without the zeros at its end. `Operand.Describes` lists
what holds of them.

The zeros are taken off one by one, which ends at a fraction that has no zero at the end
(`isSignificant`). Such a fraction is the only one with its value (`IsSignificant.unique`), so the
operands `i`, `w` and `t` are the same for two numbers exactly if these have the same absolute
value, and only `v` and `f` tell how it is written (`describes_of_made`).
-/

namespace MessageCatalog.Operand

open Text Decimal

/-! ### Fractions without zeros at the end -/

/-- The fraction of `w` digits that form `t` is that of so many digits that form `fraction`, without
the zeros at the end. -/
structure IsSignificant (digits fraction w t : Nat) : Prop where
  /-- No digits are added. -/
  le : w ≤ digits
  /-- The digits that are taken off are zeros. -/
  eq : fraction = t * 10 ^ (digits - w)
  /-- The last digit that is left is not zero. -/
  last : 0 < w → ¬10 ∣ t

/-- Taking off zeros ends where there are no more. -/
theorem isSignificant (digits fraction : Nat) :
    IsSignificant digits fraction (significant digits fraction).1
      (significant digits fraction).2 := by
  fun_induction significant digits fraction with
  | case1 fraction => exact ⟨le_rfl, (Nat.mul_one fraction).symm, fun h => absurd h (lt_irrefl 0)⟩
  | case2 digits fraction hzero ih =>
    refine ⟨ih.le.trans (Nat.le_succ digits), ?_, ih.last⟩
    calc fraction = fraction / 10 * 10 := (Nat.div_mul_cancel (Nat.dvd_of_mod_eq_zero hzero)).symm
      _ = _ * 10 ^ (digits - _) * 10 := congrArg (· * 10) ih.eq
      _ = _ := by rw [Nat.mul_assoc, ← Nat.pow_succ, Nat.succ_sub ih.le]
  | case3 digits fraction hlast =>
    refine ⟨le_rfl, ?_, fun _ hdvd => hlast (Nat.mod_eq_zero_of_dvd hdvd)⟩
    rw [Nat.sub_self, Nat.pow_zero, Nat.mul_one]

variable {digits fraction w t : Nat}

/-- If the fraction is below one, it still is without the zeros. -/
theorem IsSignificant.lt (h : IsSignificant digits fraction w t) (hlt : fraction < 10 ^ digits) :
    t < 10 ^ w := by
  rw [h.eq, ← Nat.add_sub_cancel' h.le, Nat.add_sub_cancel_left, Nat.pow_add] at hlt
  exact Nat.lt_of_mul_lt_mul_right hlt

theorem IsSignificant.eq_zero (h : IsSignificant digits fraction w t)
    (hlt : fraction < 10 ^ digits) (hw : w = 0) : t = 0 := by
  have ht := h.lt hlt
  rw [hw, Nat.pow_zero] at ht
  exact Nat.lt_one_iff.1 ht

/-- The zeros at the end are of no account for the value. -/
theorem IsSignificant.div_eq (h : IsSignificant digits fraction w t) :
    (fraction : ℚ) / 10 ^ digits = t / 10 ^ w := by
  have hsplit : (10 : ℚ) ^ digits = 10 ^ w * 10 ^ (digits - w) := by
    rw [← pow_add, Nat.add_sub_cancel' h.le]
  rw [h.eq, hsplit]
  push_cast
  field_simp

/-- A fraction without zeros at the end has the fewest digits of all that have its value. -/
theorem le_of_mul_eq {w t w' t' : Nat} (hlast : 0 < w → ¬10 ∣ t)
    (h : t * 10 ^ w' = t' * 10 ^ w) : w ≤ w' := by
  by_contra hlt
  obtain ⟨k, rfl⟩ : ∃ k, w = w' + k + 1 := ⟨w - w' - 1, by omega⟩
  refine hlast (Nat.succ_pos _) ⟨t' * 10 ^ k, ?_⟩
  refine Nat.eq_of_mul_eq_mul_right (Nat.pow_pos (by decide) : 0 < 10 ^ w') ?_
  rw [h]
  ring

/-- A fraction without zeros at the end is determined by its value. -/
theorem IsSignificant.unique {digits' fraction' w' t' : Nat}
    (h : IsSignificant digits fraction w t) (h' : IsSignificant digits' fraction' w' t')
    (hvalue : (t : ℚ) / 10 ^ w = t' / 10 ^ w') : w = w' ∧ t = t' := by
  have hcross : t * 10 ^ w' = t' * 10 ^ w := by
    rw [div_eq_div_iff (by positivity) (by positivity)] at hvalue
    exact_mod_cast hvalue
  obtain rfl : w = w' :=
    Nat.le_antisymm (le_of_mul_eq h.last hcross) (le_of_mul_eq h'.last hcross.symm)
  exact ⟨rfl, Nat.eq_of_mul_eq_mul_right (Nat.pow_pos (by decide)) hcross⟩

/-! ### The operands of a number -/

/-- The operand as a natural number, which every operand but `n` is. -/
def count (x : Decimal) (operand : Operand) : Nat := (operand.value x).integer

/-- What the operands of a number say about it. -/
structure Describes (x : Decimal) : Prop where
  /-- `n` is the absolute value. -/
  n : (Operand.n.value x).toRat = |x.toRat|
  /-- All other operands are natural numbers. -/
  whole : ∀ operand, operand ≠ .n → operand.value x = Decimal.ofNat (count x operand)
  /-- `v` is how many fraction digits are written. -/
  v : count x .v = x.fractionText.length
  /-- `f` is the number that these digits form. -/
  f : count x .f = decimalValue x.fractionText
  /-- `w` counts some of the digits. -/
  w_le : count x .w ≤ count x .v
  /-- The digits that `w` does not count are zeros at the end. -/
  f_eq : count x .f = count x .t * 10 ^ (count x .v - count x .w)
  /-- Without digits `t` is zero. -/
  t_eq_zero : count x .w = 0 → count x .t = 0
  /-- The last digit of `t` is not zero. -/
  last : 0 < count x .w → ¬10 ∣ count x .t
  /-- `i`, `v` and `f` make up the absolute value. -/
  written : (count x .i : ℚ) + count x .f / 10 ^ count x .v = |x.toRat|
  /-- `i`, `w` and `t` make up the absolute value. -/
  value : (count x .i : ℚ) + count x .t / 10 ^ count x .w = |x.toRat|
  /-- There is no exponent. -/
  exponent : count x .c = 0 ∧ count x .e = 0

variable {x y : Decimal}

theorem isSignificant_count (x : Decimal) :
    IsSignificant x.digits x.fraction (count x .w) (count x .t) :=
  isSignificant x.digits x.fraction

/-- The absolute value in terms of `i`, `w` and `t`. -/
theorem magnitude_eq_count (x : Decimal) :
    x.magnitude = count x .i + count x .t / 10 ^ count x .w := by
  rw [magnitude, (isSignificant_count x).div_eq]
  rfl

theorem describes (hx : x.WellFormed) : Describes x where
  n := (abs_toRat x).symm
  whole operand h := by
    cases operand with
    | n => exact absurd rfl h
    | i | v | w | f | t | c | e => rfl
  v := (length_fractionText hx).symm
  f := (decimalValue_fractionText hx).symm
  w_le := (isSignificant_count x).le
  f_eq := (isSignificant_count x).eq
  t_eq_zero := (isSignificant_count x).eq_zero hx
  last := (isSignificant_count x).last
  written := (abs_toRat x).symm
  value := (magnitude_eq_count x).symm.trans (abs_toRat x).symm
  exponent := ⟨rfl, rfl⟩

/-- Numbers have the same absolute value exactly if they agree in `i`, `w` and `t`. -/
theorem magnitude_eq_iff (hx : x.WellFormed) (hy : y.WellFormed) :
    x.magnitude = y.magnitude ↔
      count x .i = count y .i ∧ count x .w = count y .w ∧ count x .t = count y .t := by
  constructor
  · intro h
    have hinteger : x.integer = y.integer := by
      rw [← floor_magnitude hx, ← floor_magnitude hy, h]
    have hfraction : (count x .t : ℚ) / 10 ^ count x .w = count y .t / 10 ^ count y .w := by
      rw [← (isSignificant_count x).div_eq, ← (isSignificant_count y).div_eq,
        ← fract_magnitude hx, ← fract_magnitude hy, h]
    exact ⟨hinteger, (isSignificant_count x).unique (isSignificant_count y) hfraction⟩
  · rintro ⟨hi, hw, ht⟩
    rw [magnitude_eq_count, magnitude_eq_count, hi, hw, ht]

/-- Numbers with the same absolute value agree in `v` exactly if their fractions are written
alike. -/
theorem count_v_eq_iff (hx : x.WellFormed) (hy : y.WellFormed)
    (h : x.magnitude = y.magnitude) :
    count x .v = count y .v ↔ x.fractionText = y.fractionText := by
  constructor
  · intro hdigits
    have hdigits : x.digits = y.digits := hdigits
    obtain ⟨-, hw, ht⟩ := (magnitude_eq_iff hx hy).1 h
    have hfraction : x.fraction = y.fraction := by
      rw [(isSignificant_count x).eq, (isSignificant_count y).eq, hdigits, hw, ht]
    rw [fractionText, fractionText, hdigits, hfraction]
  · intro htext
    rw [(describes hx).v, (describes hy).v, htext]

/-- **What the operands say about a number.** They describe every number that is made. Two numbers
have the same absolute value exactly if they agree in `i`, `w` and `t`, and then they agree in `v`
exactly if their fractions are written alike. -/
theorem describes_of_made (hx : x.Made) (hy : y.Made) :
    Describes x
    ∧ (|x.toRat| = |y.toRat| ↔
        count x .i = count y .i ∧ count x .w = count y .w ∧ count x .t = count y .t)
    ∧ (|x.toRat| = |y.toRat| → (count x .v = count y .v ↔ x.fractionText = y.fractionText)) := by
  have hx := hx.representable.wellFormed
  have hy := hy.representable.wellFormed
  rw [abs_toRat, abs_toRat]
  exact ⟨describes hx, magnitude_eq_iff hx hy, count_v_eq_iff hx hy⟩

/-- The numbers `-7.0230` and `7.023` have the same absolute value and are written differently. -/
theorem describes_of_made_trailingZero :
    |(⟨true, 7, 230, 4⟩ : Decimal).toRat| = |(⟨false, 7, 23, 3⟩ : Decimal).toRat|
      ∧ (⟨true, 7, 230, 4⟩ : Decimal).fractionText ≠ (⟨false, 7, 23, 3⟩ : Decimal).fractionText := by
  have hx : Made ⟨true, 7, 230, 4⟩ :=
    @Made.read ['-', '7', '.', '0', '2', '3', '0'] _ (by decide)
  have hy : Made ⟨false, 7, 23, 3⟩ := @Made.read ['7', '.', '0', '2', '3'] _ (by decide)
  obtain ⟨-, hvalue, hwritten⟩ := describes_of_made hx hy
  have hequal := hvalue.2 (by decide)
  exact ⟨hequal, fun htext => absurd ((hwritten hequal).2 htext) (by decide)⟩

end MessageCatalog.Operand
