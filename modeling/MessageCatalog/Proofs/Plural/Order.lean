import MessageCatalog.Proofs.Plural.Spelling

/-!
# The order of numbers

Numbers are made by reading a text, of an integer, by counting out a range, by leaving out the sign
and by a modulus (`Decimal.Made`). All that are made keep the limits of numbers that can be read, and
every number within the limits is made (`made_iff_representable`).

Within the limits a fraction can be brought to the places of another number in machine words of 64
bits (`Representable.aligns`), so that numbers can be compared at all, and the comparison is that of
their values (`compare_eq_cmp_of_made`). Numbers that differ only in the sign of a zero or in zeros
at the end of the fraction are therefore equal for the order.
-/

namespace MessageCatalog.Decimal

open Text

/-! ### Where numbers come from -/

/-- The number is one that is made. -/
inductive Made : Decimal → Prop where
  /-- A number is read from a text. -/
  | read {text : Text} {x : Decimal} (h : parse? text = some x) : Made x
  /-- A natural number of at most 64 bits is a number. -/
  | ofNat {n : Nat} (h : n < wordLimit) : Made (.ofNat n)
  /-- An integer of 64 bits is a number. -/
  | ofInt {i : Int} (hlow : -2 ^ 63 ≤ i) (hhigh : i < 2 ^ 63) : Made (.ofInt i)
  /-- A number is counted out in units of a place. -/
  | counted {units scale : Nat} {x : Decimal} (hscale : scale ≤ maxDigits)
    (h : ofScaled? units scale = some x) : Made x
  /-- The sign of a number is left out. -/
  | abs {x : Decimal} (h : Made x) : Made x.abs
  /-- A number is reduced by a modulus. -/
  | modulo {x : Decimal} (h : Made x) {m : Nat} (hm : 0 < m) : Made (x.modulo m)

variable {x y : Decimal}

theorem representable_of_ofScaled? {units scale : Nat} (hscale : scale ≤ maxDigits)
    (h : ofScaled? units scale = some x) : x.Representable := by
  simp only [ofScaled?, below?, Option.bind_eq_bind, Option.bind_eq_some_iff,
    Option.ite_none_right_eq_some, Option.some.injEq, Option.pure_def] at h
  obtain ⟨_, ⟨-, rfl⟩, _, ⟨hinteger, rfl⟩, _, ⟨-, rfl⟩, rfl⟩ := h
  have hfraction : units % power scale < power scale := Nat.mod_lt _ (Nat.pow_pos (by decide))
  exact ⟨hfraction, hscale, hinteger⟩

/-- Whatever is made keeps the limits. -/
theorem Made.representable (h : x.Made) : x.Representable := by
  induction h with
  | read h => exact representable_of_parse? h
  | ofNat h => exact ⟨wellFormed_ofNat _, Nat.zero_le _, h⟩
  | @ofInt i hlow hhigh =>
    have hinteger : i.natAbs < wordLimit := by
      rw [wordLimit]
      omega
    exact ⟨wellFormed_ofInt i, Nat.zero_le _, hinteger⟩
  | counted hscale h => exact representable_of_ofScaled? hscale h
  | abs _ ih => exact ⟨ih.wellFormed.abs, ih.digits, ih.integer⟩
  | @modulo x _ m _ ih =>
    have hinteger : x.integer % m < wordLimit :=
      Nat.lt_of_le_of_lt (Nat.mod_le _ _) ih.integer
    exact ⟨ih.wellFormed.modulo m, ih.digits, hinteger⟩

/-- The numbers that are made are those within the limits. -/
theorem made_iff_representable : x.Made ↔ x.Representable :=
  ⟨Made.representable, fun h => .read (parse?_render h)⟩

/-! ### Comparing in machine words -/

/-- The fraction can be brought to so many places in machine words: there are not fewer than it has,
and neither the factor nor the product is too large. -/
structure Aligns (x : Decimal) (places : Nat) : Prop where
  /-- No place is lost. -/
  digits : x.digits ≤ places
  /-- The factor fits a machine word. -/
  factor : power (places - x.digits) < wordLimit
  /-- The product fits a machine word. -/
  product : x.fractionAt places < wordLimit

theorem power_lt_wordLimit {exponent : Nat} (h : exponent ≤ maxDigits) :
    power exponent < wordLimit :=
  calc power exponent ≤ power maxDigits := Nat.pow_le_pow_right (by decide) h
    _ < wordLimit := by decide

theorem Representable.aligns (hx : x.Representable) {places : Nat} (hdigits : x.digits ≤ places)
    (hplaces : places ≤ maxDigits) : x.Aligns places where
  digits := hdigits
  factor := power_lt_wordLimit ((Nat.sub_le _ _).trans hplaces)
  product := (fractionAt_lt hx.wellFormed hdigits).trans (power_lt_wordLimit hplaces)

/-! ### The order of values -/

theorem compare_eq_eq_iff (hx : x.WellFormed) (hy : y.WellFormed) :
    x.compare y = .eq ↔ x.toRat = y.toRat := by
  rw [compare_eq_cmp hx hy]
  exact cmp_eq_eq_iff x.toRat y.toRat

/-- The numbers that are made are in order. -/
theorem transCmp_made : Std.TransCmp fun x y : { x : Decimal // x.Made } => x.1.compare y.1 where
  eq_swap {x y} := by
    have hx := x.2.representable.wellFormed
    have hy := y.2.representable.wellFormed
    rw [compare_eq_cmp hx hy, compare_eq_cmp hy hx, cmp_swap]
  isLE_trans {x y z} hxy hyz := by
    have hx := x.2.representable.wellFormed
    have hy := y.2.representable.wellFormed
    have hz := z.2.representable.wellFormed
    exact (atMost_iff hx hz).2 (((atMost_iff hx hy).1 hxy).trans ((atMost_iff hy hz).1 hyz))

/-- **Numbers are ordered by their values.** Two numbers that are made compare as their values do,
they are equal for the order exactly if these are equal, and the fractions that are compared fit
machine words. So the numbers that are made are in a total order, up to the way in which a value is
written. -/
theorem compare_eq_cmp_of_made :
    (∀ x y : Decimal, x.Made → y.Made →
      x.compare y = cmp x.toRat y.toRat
      ∧ (x.compare y = .eq ↔ x.toRat = y.toRat)
      ∧ x.Aligns (max x.digits y.digits) ∧ y.Aligns (max x.digits y.digits))
    ∧ Std.TransCmp fun x y : { x : Decimal // x.Made } => x.1.compare y.1 := by
  refine ⟨fun x y hx hy => ?_, transCmp_made⟩
  have hx := hx.representable
  have hy := hy.representable
  have hplaces : max x.digits y.digits ≤ maxDigits := max_le hx.digits hy.digits
  exact ⟨compare_eq_cmp hx.wellFormed hy.wellFormed, compare_eq_eq_iff hx.wellFormed hy.wellFormed,
    hx.aligns (le_max_left _ _) hplaces, hy.aligns (le_max_right _ _) hplaces⟩

/-- The zeros `-0.00`, `0` and `0.0` have the same value, and of the numbers
`-18446744073709551615.9` and `-18446744073709551615.899999999999999999` the first is the smaller
one. -/
theorem compare_eq_cmp_of_made_zeros :
    (⟨true, 0, 0, 2⟩ : Decimal).toRat = (ofInt 0).toRat
      ∧ (ofInt 0).toRat = (⟨false, 0, 0, 1⟩ : Decimal).toRat
      ∧ (⟨true, 18446744073709551615, 9, 1⟩ : Decimal).toRat
        < (⟨true, 18446744073709551615, 899999999999999999, 18⟩ : Decimal).toRat := by
  have hsigned : Made ⟨true, 0, 0, 2⟩ := @Made.read ['-', '0', '.', '0', '0'] _ (by decide)
  have hinteger : Made (ofInt 0) := .ofInt (by decide) (by decide)
  have hcounted : Made ⟨false, 0, 0, 1⟩ := @Made.counted 0 1 _ (by decide) (by decide)
  have hshort : Made ⟨true, 18446744073709551615, 9, 1⟩ :=
    made_iff_representable.2 ⟨by decide, by decide, by decide⟩
  have hlong : Made ⟨true, 18446744073709551615, 899999999999999999, 18⟩ :=
    made_iff_representable.2 ⟨by decide, by decide, by decide⟩
  obtain ⟨-, hzero, -⟩ := compare_eq_cmp_of_made.1 _ _ hsigned hinteger
  obtain ⟨-, hzero', -⟩ := compare_eq_cmp_of_made.1 _ _ hinteger hcounted
  obtain ⟨hcmp, -⟩ := compare_eq_cmp_of_made.1 _ _ hshort hlong
  refine ⟨hzero.1 (by decide), hzero'.1 (by decide), (cmp_eq_lt_iff _ _).1 ?_⟩
  rw [← hcmp]
  decide

end MessageCatalog.Decimal
