import Mathlib.Algebra.Order.Ring.Nat
import MessageCatalog.Text.Numeral

/-!
# Numerals

What decimal digits say about the number that they denote and the other way round. Equally many
digits are equal if they denote the same number (`eq_of_decimalValue_eq`). So a number is written
with the digits that denote it, if these are as many as a number of that size has: without zeros in
front (`decimal_decimalValue`), or with zeros up to a width (`decimalPadded_decimalValue`).
-/

namespace MessageCatalog.Text

/-! ### Numerals of a fixed length -/

theorem decimalValue_cons (c : Char) (digits : Text) :
    decimalValue (c :: digits)
      = 10 ^ digits.length * (c.toNat - '0'.toNat) + decimalValue digits := by
  rw [decimalValue, Nat.ofDigitChars_cons, Nat.mul_zero, Nat.zero_add,
    Nat.ofDigitChars_eq_ofDigitChars_zero]
  rfl

theorem allDigits_cons {c : Char} {digits : Text} :
    allDigits (c :: digits) = true ↔ c.isDigit = true ∧ allDigits digits = true := by
  simp [allDigits]

theorem not_mem_of_allDigits {c : Char} (hc : c.isDigit = false) {digits : Text}
    (h : allDigits digits = true) : c ∉ digits := by
  intro hmem
  cases hc.symm.trans (List.all_eq_true.1 h c hmem)

/-- So many digits form a number below that power of ten. -/
theorem decimalValue_lt {digits : Text} (h : allDigits digits = true) :
    decimalValue digits < 10 ^ digits.length := by
  induction digits with
  | nil => exact Nat.one_pos
  | cons c digits ih =>
    obtain ⟨hc, hdigits⟩ := allDigits_cons.1 h
    have hdigit : c.toNat - '0'.toNat ≤ 9 := by
      have hzero : '0'.toNat = 48 := rfl
      have hnine : c.toNat ≤ 57 := (Char.isDigit_iff_toNat.1 hc).2
      omega
    have hrest := ih hdigits
    have hfirst := Nat.mul_le_mul_left (10 ^ digits.length) hdigit
    rw [decimalValue_cons, List.length_cons, Nat.pow_succ]
    omega

/-- A digit is determined by its value. -/
theorem eq_of_digit_eq {c d : Char} (hc : c.isDigit = true) (hd : d.isDigit = true)
    (h : c.toNat - '0'.toNat = d.toNat - '0'.toNat) : c = d := by
  obtain ⟨hclow, -⟩ := Char.isDigit_iff_toNat.1 hc
  obtain ⟨hdlow, -⟩ := Char.isDigit_iff_toNat.1 hd
  have hzero : '0'.toNat = 48 := rfl
  exact Char.toNat_inj.1 (by omega)

/-- So many digits are determined by the number that they denote. -/
theorem eq_of_decimalValue_eq {a b : Text} (ha : allDigits a = true) (hb : allDigits b = true)
    (hlength : a.length = b.length) (h : decimalValue a = decimalValue b) : a = b := by
  induction a generalizing b with
  | nil => exact (List.length_eq_zero_iff.1 hlength.symm).symm
  | cons c a ih =>
    cases b with
    | nil => cases hlength
    | cons d b =>
      obtain ⟨hc, ha⟩ := allDigits_cons.1 ha
      obtain ⟨hd, hb⟩ := allDigits_cons.1 hb
      have hlength : a.length = b.length := Nat.succ.inj hlength
      have halt : decimalValue a < 10 ^ b.length := hlength ▸ decimalValue_lt ha
      have hblt : decimalValue b < 10 ^ b.length := decimalValue_lt hb
      have hpos : 0 < 10 ^ b.length := Nat.pow_pos (by decide)
      rw [decimalValue_cons, decimalValue_cons, hlength] at h
      -- the first digit is the quotient by that power of ten, and the others are the remainder
      have hdigit := congrArg (· / 10 ^ b.length) h
      have hrest := congrArg (· % 10 ^ b.length) h
      simp only [Nat.mul_add_div hpos, Nat.div_eq_of_lt halt, Nat.div_eq_of_lt hblt] at hdigit
      simp only [Nat.mul_add_mod, Nat.mod_eq_of_lt halt, Nat.mod_eq_of_lt hblt] at hrest
      rw [eq_of_digit_eq hc hd hdigit, ih ha hb hlength hrest]

theorem allDigits_decimal (n : Nat) : allDigits (decimal n) = true :=
  List.all_eq_true.2 fun _ hc => Nat.isDigit_of_mem_toDigits (by decide) (by decide) hc

theorem decimal_ne_nil (n : Nat) : decimal n ≠ [] := Nat.toDigits_ne_nil

theorem length_decimal_le_iff {n width : Nat} (h : 0 < width) :
    (decimal n).length ≤ width ↔ n < 10 ^ width :=
  Nat.length_toDigits_le_iff (by decide) h

/-! ### Zeros in front -/

/-- The digits without the zeros in front; the last digit stays, also if it is a zero. -/
def withoutLeadingZeros : Text → Text
  | '0' :: c :: digits => withoutLeadingZeros (c :: digits)
  | digits => digits

theorem decimalValue_zero_cons (digits : Text) :
    decimalValue ('0' :: digits) = decimalValue digits := by
  rw [decimalValue_cons, Nat.sub_self, Nat.mul_zero, Nat.zero_add]

/-- A number is written with as many digits as denote it, if they do not start with a zero. -/
theorem length_decimal_decimalValue {c : Char} {digits : Text} (hc : c ≠ '0')
    (h : allDigits (c :: digits) = true) :
    (decimal (decimalValue (c :: digits))).length = digits.length + 1 := by
  have hvalue := decimalValue_lt h
  have hle := (length_decimal_le_iff (Nat.succ_pos digits.length)).2 hvalue
  obtain ⟨hdigit, -⟩ := allDigits_cons.1 h
  have hfirst : 0 < c.toNat - '0'.toNat := by
    refine Nat.pos_of_ne_zero fun hzero => hc (eq_of_digit_eq hdigit rfl ?_)
    rw [hzero, Nat.sub_self]
  refine Nat.le_antisymm hle ?_
  rcases Nat.eq_zero_or_pos digits.length with hnone | hsome
  · rw [hnone]
    exact List.length_pos_iff.2 (decimal_ne_nil _)
  · by_contra hshort
    have hlt := (length_decimal_le_iff hsome).1 (Nat.lt_succ_iff.1 (Nat.lt_of_not_le hshort))
    rw [decimalValue_cons] at hlt
    have := Nat.le_mul_of_pos_right (10 ^ digits.length) hfirst
    omega

/-- A number is written without the zeros in front that it is denoted with. -/
theorem decimal_decimalValue {digits : Text} (hne : digits ≠ []) (h : allDigits digits = true) :
    decimal (decimalValue digits) = withoutLeadingZeros digits := by
  fun_induction withoutLeadingZeros digits with
  | case1 c digits ih =>
    rw [decimalValue_zero_cons]
    exact ih (List.cons_ne_nil c digits) (allDigits_cons.1 h).2
  | case2 digits hmore =>
    obtain ⟨c, rest, rfl⟩ := List.exists_cons_of_ne_nil hne
    refine eq_of_decimalValue_eq (allDigits_decimal _) h ?_ (decimalValue_decimal _)
    by_cases hc : c = '0'
    · -- the only digit is a zero
      obtain rfl := hc
      cases rest with
      | nil => rfl
      | cons d rest => exact absurd rfl (hmore d rest)
    · exact length_decimal_decimalValue hc h

/-! ### Zeros up to a width -/

theorem length_decimalPadded {width n : Nat} (hwidth : 0 < width) (h : n < 10 ^ width) :
    (decimalPadded width n).length = width := by
  rw [decimalPadded, List.length_leftpad]
  exact max_eq_left ((length_decimal_le_iff hwidth).2 h)

theorem allDigits_decimalPadded (width n : Nat) : allDigits (decimalPadded width n) = true := by
  have hdigits := allDigits_decimal n
  rw [allDigits, List.all_eq_true] at hdigits ⊢
  intro c hc
  rw [decimalPadded, List.leftpad, List.mem_append] at hc
  rcases hc with hzero | hdigit
  · rw [List.eq_of_mem_replicate hzero]
    rfl
  · exact hdigits c hdigit

/-- Zeros in front do not change the number. -/
theorem decimalValue_decimalPadded (width n : Nat) :
    decimalValue (decimalPadded width n) = n := by
  rw [decimalPadded, List.leftpad, decimalValue, Nat.ofDigitChars_append,
    Nat.ofDigitChars_replicate_zero, Nat.mul_zero]
  exact decimalValue_decimal n

/-- Digits are written back as they are, zeros in front included. -/
theorem decimalPadded_decimalValue {digits : Text} (hne : digits ≠ [])
    (h : allDigits digits = true) : decimalPadded digits.length (decimalValue digits) = digits :=
  eq_of_decimalValue_eq (allDigits_decimalPadded _ _) h
    (length_decimalPadded (List.length_pos_iff.2 hne) (decimalValue_lt h))
    (decimalValue_decimalPadded _ _)

end MessageCatalog.Text
