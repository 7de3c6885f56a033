import MessageCatalog.Plural.Sample
import MessageCatalog.Proofs.Outcome
import MessageCatalog.Proofs.Plural.Spelling

/-!
# The samples of a range

A range of a sample clause is counted out in units of the last place that one of its ends has. This
is done in machine arithmetic, and here it is shown that no intermediate result is too large: the
ends are numbers that were read (`Decimal.IsSample`), so they have at most eighteen places and an
integer part of 64 bits, and their units fit 128 bits (`Decimal.units_lt`).

`Sample.Counts` says what the samples behind the lower end are, in terms of their values.
`Sample.steps_eq_ok_iff` says that counting gives these, unless they are too many.
-/

namespace MessageCatalog

open Text

namespace Decimal

/-- A number as a sample clause can hold it: it has no sign, its fraction is below one, and it is
within the limits of numbers that can be read. -/
structure IsSample (x : Decimal) : Prop where
  /-- It is written without a minus sign. -/
  unsigned : x.negative = false
  /-- The fraction is below one. -/
  wellFormed : x.WellFormed
  /-- There are not too many places. -/
  digits : x.digits ≤ maxDigits
  /-- The integer part fits a machine word. -/
  integer : x.integer < wordLimit

theorem IsSample.representable {x : Decimal} (hx : x.IsSample) : x.Representable :=
  ⟨hx.wellFormed, hx.digits, hx.integer⟩

/-- A number that is read without a sign is one that a clause can hold. -/
theorem isSample_of_parse? {x : Decimal} {text : Text} (hsign : text.head? ≠ some '-')
    (h : parse? text = some x) : x.IsSample := by
  have hx := representable_of_parse? h
  obtain ⟨s, -, rfl, rfl⟩ := parse?_eq_some_iff.1 h
  exact ⟨s.negative_eq_false hsign, hx.wellFormed, hx.digits, hx.integer⟩

/-! ### Units of a place -/

/-- The number that has so many units of a place. -/
def ofUnits (units scale : Nat) : Decimal :=
  { integer := units / power scale, fraction := units % power scale, digits := scale }

theorem power_pos (exponent : Nat) : 0 < power exponent := Nat.pow_pos (by decide)

theorem power_le {scale : Nat} (h : scale ≤ maxDigits) : power scale ≤ power maxDigits :=
  Nat.pow_le_pow_right (by decide) h

/-- All units of numbers that can be read fit a double word. -/
theorem wordLimit_mul_power_lt {scale : Nat} (h : scale ≤ maxDigits) :
    wordLimit * power scale < doubleWordLimit :=
  Nat.lt_of_le_of_lt (Nat.mul_le_mul_left _ (power_le h)) (by decide)

theorem power_lt {scale : Nat} (h : scale ≤ maxDigits) : power scale < doubleWordLimit :=
  Nat.lt_of_le_of_lt (power_le h) (by decide)

variable {x : Decimal} {scale units : Nat}

theorem IsSample.toRat_eq (hx : x.IsSample) : x.toRat = x.magnitude := by
  simp [toRat, hx.unsigned]

theorem IsSample.toRat_eq_units (hx : x.IsSample) (h : x.digits ≤ scale) :
    x.toRat = x.units scale / 10 ^ scale := by
  rw [hx.toRat_eq, ← magnitude_mul_pow h]
  field_simp

theorem units_lt (hx : x.Representable) (h : x.digits ≤ scale) :
    x.units scale < wordLimit * power scale := by
  have hfraction := fractionAt_lt hx.wellFormed h
  calc x.units scale < x.integer * power scale + power scale := by
        rw [units]
        omega
    _ = (x.integer + 1) * power scale := by ring
    _ ≤ wordLimit * power scale := Nat.mul_le_mul_right _ hx.integer

/-- Expressing a number in units of a place never overflows. -/
theorem scaled?_eq_some (hx : x.Representable) (h : x.digits ≤ scale) (hscale : scale ≤ maxDigits) :
    x.scaled? scale = some (x.units scale) := by
  have hunit := power_lt hscale
  have hshift := power_lt ((Nat.sub_le scale x.digits).trans hscale)
  have hsum : x.integer * power scale + x.fraction * power (scale - x.digits) < doubleWordLimit :=
    (units_lt hx h).trans (wordLimit_mul_power_lt hscale)
  have hfraction := Nat.lt_of_le_of_lt (Nat.le_add_left _ _) hsum
  have hinteger := Nat.lt_of_le_of_lt (Nat.le_add_right _ _) hsum
  simp [scaled?, below?, h, hunit, hshift, hfraction, hinteger, hsum, units, fractionAt, guard]

/-- Making a number of units never overflows, up to the largest sample. -/
theorem ofScaled?_eq_some (hunits : units < wordLimit * power scale) (hscale : scale ≤ maxDigits) :
    ofScaled? units scale = some (ofUnits units scale) := by
  have hunit := power_lt hscale
  have hinteger : units / power scale < wordLimit := by
    rwa [Nat.div_lt_iff_lt_mul (power_pos scale)]
  have hfraction : units % power scale < wordLimit :=
    (Nat.mod_lt _ (power_pos scale)).trans (Nat.lt_of_le_of_lt (power_le hscale) (by decide))
  simp [ofScaled?, below?, hunit, hinteger, hfraction, ofUnits]

theorem toRat_ofUnits (units scale : Nat) : (ofUnits units scale).toRat = units / 10 ^ scale := by
  have hsplit : units / power scale * power scale + units % power scale = units :=
    Nat.div_add_mod' units (power scale)
  have hcast : ((units / power scale : Nat) : ℚ) * 10 ^ scale + (units % power scale : Nat)
      = units := by
    rw [power_eq] at *
    exact_mod_cast hsplit
  show ((units / power scale : Nat) : ℚ) + (units % power scale : Nat) / 10 ^ scale = _
  rw [← hcast]
  field_simp

theorem wellFormed_ofUnits (units scale : Nat) : (ofUnits units scale).WellFormed :=
  Nat.mod_lt _ (power_pos scale)

/-- Numbers without a sign that have as many digits and the same value are written alike. -/
theorem eq_of_toRat_eq {x y : Decimal} (hx : x.negative = false) (hy : y.negative = false)
    (hxfraction : x.WellFormed) (hyfraction : y.WellFormed) (hdigits : x.digits = y.digits)
    (h : x.toRat = y.toRat) : x = y := by
  have hmagnitude : x.magnitude = y.magnitude := by simpa [toRat, hx, hy] using h
  have hinteger : x.integer = y.integer := by
    rw [← floor_magnitude hxfraction, ← floor_magnitude hyfraction, hmagnitude]
  have hfraction : x.fraction = y.fraction := by
    have hfract := fract_magnitude hxfraction
    rw [hmagnitude, fract_magnitude hyfraction, hdigits] at hfract
    field_simp at hfract
    exact_mod_cast hfract.symm
  obtain ⟨_, _, _, _⟩ := x
  obtain ⟨_, _, _, _⟩ := y
  simp_all

end Decimal

namespace Sample

open Decimal

/-! ### Counting -/

/-- The samples of a range behind its lower end: from there on in steps of one unit in the last
place of the upper end, as long as that end is not passed, each with as many digits as the end that
has more. -/
structure Counts (low high : Decimal) (samples : List Decimal) : Prop where
  /-- The values go up in steps. -/
  value : ∀ (k : Nat) (x : Decimal), samples[k]? = some x →
    x.toRat = low.toRat + (k + 1) / 10 ^ high.digits
  /-- There are as many as do not pass the upper end. -/
  reach : ∀ k : Nat, k < samples.length ↔ low.toRat + (k + 1) / 10 ^ high.digits ≤ high.toRat
  /-- They are written without a sign and with as many digits as the end that has more. -/
  written : ∀ x ∈ samples,
    x.negative = false ∧ x.WellFormed ∧ x.digits = max low.digits high.digits

variable {low high : Decimal} {samples : List Decimal}

/-- The ends of a range determine its samples. -/
theorem Counts.unique {others : List Decimal} (h : Counts low high samples)
    (hothers : Counts low high others) : samples = others := by
  have hlength : samples.length = others.length := by
    refine Nat.le_antisymm ?_ ?_
    · by_contra hlt
      exact absurd ((hothers.reach _).2 ((h.reach _).1 (Nat.lt_of_not_le hlt))) (lt_irrefl _)
    · by_contra hlt
      exact absurd ((h.reach _).2 ((hothers.reach _).1 (Nat.lt_of_not_le hlt))) (lt_irrefl _)
  refine List.ext_getElem hlength fun k hk hk' => ?_
  obtain ⟨hsign, hfraction, hdigits⟩ := h.written _ (List.getElem_mem hk)
  obtain ⟨hsign', hfraction', hdigits'⟩ := hothers.written _ (List.getElem_mem hk')
  refine eq_of_toRat_eq hsign hsign' hfraction hfraction' (hdigits.trans hdigits'.symm) ?_
  rw [h.value k _ (List.getElem?_eq_getElem hk), hothers.value k _ (List.getElem?_eq_getElem hk')]

/-- How many steps lead from the lower end of a range up to the upper one. -/
def stepCount (low high : Decimal) : Nat :=
  (high.units (max low.digits high.digits) - low.units (max low.digits high.digits))
    / power (max low.digits high.digits - high.digits)

/-- The samples of a range behind its lower end, as they are counted out. -/
def counted (low high : Decimal) : List Decimal :=
  (List.range (stepCount low high)).map fun k =>
    ofUnits (low.units (max low.digits high.digits)
      + (k + 1) * power (max low.digits high.digits - high.digits)) (max low.digits high.digits)

@[simp] theorem length_counted (low high : Decimal) :
    (counted low high).length = stepCount low high := by
  simp [counted]

theorem lt_stepCount_iff {k : Nat} :
    k < stepCount low high ↔
      low.units (max low.digits high.digits)
          + (k + 1) * power (max low.digits high.digits - high.digits)
        ≤ high.units (max low.digits high.digits) := by
  have hstep := power_pos (max low.digits high.digits - high.digits)
  have hpos : 0 < (k + 1) * power (max low.digits high.digits - high.digits) := by positivity
  rw [stepCount, Nat.lt_iff_add_one_le, Nat.le_div_iff_mul_le hstep]
  omega

theorem step_eq_div (low high : Decimal) :
    (1 : ℚ) / 10 ^ high.digits
      = power (max low.digits high.digits - high.digits) / 10 ^ max low.digits high.digits := by
  have hsplit : (10 : ℚ) ^ max low.digits high.digits
      = 10 ^ (max low.digits high.digits - high.digits) * 10 ^ high.digits := by
    rw [← pow_add, Nat.sub_add_cancel (le_max_right _ _)]
  rw [hsplit, power_eq]
  push_cast
  field_simp

/-- The value that is reached in so many steps, in units. -/
theorem toRat_add_eq (hlow : low.IsSample) (k : Nat) :
    low.toRat + (k + 1) / 10 ^ high.digits
      = (low.units (max low.digits high.digits)
          + (k + 1) * power (max low.digits high.digits - high.digits) : Nat)
        / 10 ^ max low.digits high.digits := by
  rw [hlow.toRat_eq_units (le_max_left _ high.digits), ← mul_one_div (k + 1 : ℚ), step_eq_div low]
  push_cast
  ring

theorem counts_counted (hlow : low.IsSample) (hhigh : high.IsSample) :
    Counts low high (counted low high) where
  value k x hx := by
    obtain ⟨hk, rfl⟩ := List.getElem?_eq_some_iff.1 hx
    simp only [counted, List.getElem_map, List.getElem_range]
    rw [toRat_ofUnits, toRat_add_eq hlow]
  reach k := by
    rw [length_counted, lt_stepCount_iff, toRat_add_eq hlow,
      hhigh.toRat_eq_units (le_max_right low.digits _), div_le_div_iff_of_pos_right (by positivity)]
    exact Nat.cast_le.symm
  written x hx := by
    obtain ⟨k, -, rfl⟩ := List.mem_map.1 hx
    exact ⟨rfl, wellFormed_ofUnits _ _, rfl⟩

/-- Nothing overflows when a range is counted out. -/
theorem steps_eq (hlow : low.Representable) (hhigh : high.Representable) :
    steps low high = if stepCount low high > maxSteps then .error (.rangeTooLong low high maxSteps)
      else .ok (counted low high) := by
  have hscale : max low.digits high.digits ≤ maxDigits := max_le hlow.digits hhigh.digits
  have hstart := scaled?_eq_some hlow (le_max_left _ high.digits) hscale
  have hlast := scaled?_eq_some hhigh (le_max_right low.digits _) hscale
  have hunit : below? doubleWordLimit (power (max low.digits high.digits - high.digits))
      = some (power (max low.digits high.digits - high.digits)) :=
    if_pos (power_lt ((Nat.sub_le _ _).trans hscale))
  have hsamples : (List.range (stepCount low high)).mapM (fun k =>
      ofScaled? (low.units (max low.digits high.digits)
        + (k + 1) * power (max low.digits high.digits - high.digits)) (max low.digits high.digits))
      = some (counted low high) := by
    refine Outcome.mapM_eq_some fun k hk => ofScaled?_eq_some ?_ hscale
    exact Nat.lt_of_le_of_lt (lt_stepCount_iff.1 (List.mem_range.1 hk))
      (units_lt hhigh (le_max_right _ _))
  unfold stepCount at *
  simp only [steps, hstart, hlast, hunit, hsamples]

/-- **Counting out a range** gives the samples behind its lower end, unless they are too many. -/
theorem steps_eq_ok_iff (hlow : low.IsSample) (hhigh : high.IsSample) :
    steps low high = .ok samples ↔ Counts low high samples ∧ samples.length ≤ maxSteps := by
  have hlength := length_counted low high
  rw [steps_eq hlow.representable hhigh.representable]
  constructor
  · intro h
    split at h
    · cases h
    next hfew =>
      obtain rfl := Except.ok.inj h
      exact ⟨counts_counted hlow hhigh, by omega⟩
  · rintro ⟨hcounts, hfew⟩
    obtain rfl := hcounts.unique (counts_counted hlow hhigh)
    rw [if_neg (by omega)]

end Sample

end MessageCatalog
