import MessageCatalog.Proofs.Plural.Value
import MessageCatalog.Proofs.Text.Numeral

/-!
# How numbers are written

A number is written as an optional minus sign, digits, and possibly a point with digits behind it:

    [ "-" ] integer [ "." fraction ]

The integer part may have any number of zeros in front and has to denote a number below `wordLimit`;
the fraction has at most `maxDigits` digits. `Decimal.Spelling` holds these parts, and the texts that
are read as numbers are exactly those of valid spellings (`parse?_eq_some_iff`).

A number is written back with the sign and the fraction digits that it was read with and without the
superfluous zeros in front (`spelling_number`), and what is written is read as the same number
(`number_spelling`). Both rest on the fact that two texts of equally many digits are equal if they
denote the same number (`Text.eq_of_decimalValue_eq`).
-/

namespace MessageCatalog.Decimal

open Text

/-! ### Spellings -/

/-- The parts of a number as it is written. -/
structure Spelling where
  /-- Whether there is a minus sign. -/
  negative : Bool
  /-- The digits of the integer part. -/
  integer : Text
  /-- The digits behind the point; there is no point if there are none. -/
  fraction : Text

namespace Spelling

/-- The text behind the sign. -/
def body (s : Spelling) : Text :=
  s.integer ++ if s.fraction = [] then [] else '.' :: s.fraction

/-- The text of a spelling. -/
def text (s : Spelling) : Text := (if s.negative then ['-'] else []) ++ s.body

/-- What makes a spelling one of a number. -/
structure Valid (s : Spelling) : Prop where
  /-- There is an integer digit. -/
  integer_ne_nil : s.integer ≠ []
  /-- The integer part is made of digits. -/
  integer_digits : allDigits s.integer = true
  /-- The integer part denotes a number that fits a machine word. -/
  integer_lt : decimalValue s.integer < wordLimit
  /-- The fraction is made of digits. -/
  fraction_digits : allDigits s.fraction = true
  /-- The fraction has not too many digits. -/
  fraction_length : s.fraction.length ≤ maxDigits

/-- The number that is spelled. -/
def number (s : Spelling) : Decimal where
  negative := s.negative
  integer := decimalValue s.integer
  fraction := decimalValue s.fraction
  digits := s.fraction.length

/-- The spelling without superfluous zeros in front. -/
def shortened (s : Spelling) : Spelling := { s with integer := withoutLeadingZeros s.integer }

/-- A spelling whose text does not start with a minus sign has none. -/
theorem negative_eq_false (s : Spelling) (h : s.text.head? ≠ some '-') : s.negative = false := by
  cases hnegative : s.negative with
  | false => rfl
  | true =>
    rw [text, hnegative] at h
    exact absurd rfl h

theorem Valid.body_ne_minus {s : Spelling} (h : s.Valid) (text : Text) : s.body ≠ '-' :: text := by
  obtain ⟨c, rest, hcons⟩ := List.exists_cons_of_ne_nil h.integer_ne_nil
  have hdigits := h.integer_digits
  rw [hcons] at hdigits
  intro heq
  rw [body, hcons, List.cons_append] at heq
  obtain ⟨rfl, -⟩ := List.cons.inj heq
  cases (allDigits_cons.1 hdigits).1

end Spelling

variable {x : Decimal} {text : Text}

theorem ofDigits?_eq_some_iff (s : Spelling) :
    ofDigits? s.negative s.integer s.fraction = some x ↔ s.Valid ∧ s.number = x := by
  rw [ofDigits?]
  constructor
  · intro h
    split at h
    next hvalid =>
      obtain ⟨hne, hinteger, hfraction, hlength, hlt⟩ := hvalid
      exact ⟨⟨hne, hinteger, hlt, hfraction, hlength⟩, Option.some.inj h⟩
    next => cases h
  · rintro ⟨⟨hne, hinteger, hlt, hfraction, hlength⟩, rfl⟩
    exact if_pos ⟨hne, hinteger, hfraction, hlength, hlt⟩

/-- Which texts are numbers without a sign. -/
theorem parseUnsigned?_eq_some_iff {negative : Bool} :
    parseUnsigned? negative text = some x ↔
      ∃ s : Spelling, s.negative = negative ∧ s.Valid ∧ s.body = text ∧ s.number = x := by
  constructor
  · intro h
    rw [parseUnsigned?] at h
    split at h
    next hcut =>
      obtain ⟨hvalid, hnumber⟩ := (ofDigits?_eq_some_iff ⟨negative, text, []⟩).1 h
      exact ⟨⟨negative, text, []⟩, rfl, hvalid, List.append_nil text, hnumber⟩
    next => cases h
    next integer fraction hfraction hcut =>
      obtain ⟨hvalid, hnumber⟩ := (ofDigits?_eq_some_iff ⟨negative, integer, fraction⟩).1 h
      refine ⟨⟨negative, integer, fraction⟩, rfl, hvalid, ?_, hnumber⟩
      rw [eq_append_of_cutAt? hcut, Spelling.body, if_neg fun hnil => hfraction hnil]
  · rintro ⟨s, rfl, hvalid, rfl, hnumber⟩
    have hread := (ofDigits?_eq_some_iff s).2 ⟨hvalid, hnumber⟩
    have hpoint : '.' ∉ s.integer := not_mem_of_allDigits rfl hvalid.integer_digits
    rw [parseUnsigned?, Spelling.body]
    cases hfraction : s.fraction with
    | nil =>
      rw [if_pos rfl, List.append_nil, cutAt?_eq_none hpoint, ← hfraction]
      exact hread
    | cons c fraction =>
      rw [if_neg (List.cons_ne_nil c fraction), cutAt?_append hpoint, ← hread, hfraction]

/-- **Which texts are numbers**: those of valid spellings, which denote the number that is read. -/
theorem parse?_eq_some_iff :
    parse? text = some x ↔ ∃ s : Spelling, s.Valid ∧ s.text = text ∧ s.number = x := by
  constructor
  · intro h
    rw [parse?.eq_def] at h
    split at h
    next text =>
      obtain ⟨s, hsign, hvalid, rfl, hnumber⟩ := parseUnsigned?_eq_some_iff.1 h
      exact ⟨s, hvalid, by rw [Spelling.text, hsign]; rfl, hnumber⟩
    next text _ =>
      obtain ⟨s, hsign, hvalid, rfl, hnumber⟩ := parseUnsigned?_eq_some_iff.1 h
      exact ⟨s, hvalid, by rw [Spelling.text, hsign]; rfl, hnumber⟩
  · rintro ⟨s, hvalid, rfl, hnumber⟩
    have hread := parseUnsigned?_eq_some_iff.2 ⟨s, rfl, hvalid, rfl, hnumber⟩
    rw [Spelling.text]
    cases hsign : s.negative with
    | true =>
      rw [hsign] at hread
      exact hread
    | false =>
      rw [hsign] at hread
      show parse? s.body = some x
      rw [parse?.eq_2 _ hvalid.body_ne_minus]
      exact hread

/-! ### Writing -/

/-- A number within the limits of those that can be read. -/
structure Representable (x : Decimal) : Prop where
  /-- The fraction is below one. -/
  wellFormed : x.WellFormed
  /-- There are not too many places. -/
  digits : x.digits ≤ maxDigits
  /-- The integer part fits a machine word. -/
  integer : x.integer < wordLimit

/-- The digits behind the point with which a number is written. -/
def fractionText (x : Decimal) : Text :=
  if x.digits = 0 then [] else decimalPadded x.digits x.fraction

/-- How a number is written. -/
def spelling (x : Decimal) : Spelling := ⟨x.negative, decimal x.integer, x.fractionText⟩

theorem length_fractionText (hx : x.WellFormed) : x.fractionText.length = x.digits := by
  rw [fractionText]
  split
  next hnone => exact hnone.symm
  next hsome => exact length_decimalPadded (Nat.pos_of_ne_zero hsome) hx

/-- The digits behind the point denote the fraction. -/
theorem decimalValue_fractionText (hx : x.WellFormed) : decimalValue x.fractionText = x.fraction := by
  rw [fractionText]
  split
  next hnone =>
    have hlt : x.fraction < power x.digits := hx
    rw [hnone] at hlt
    exact (Nat.lt_one_iff.1 hlt).symm
  next => exact decimalValue_decimalPadded _ _

theorem allDigits_fractionText (x : Decimal) : allDigits x.fractionText = true := by
  rw [fractionText]
  split
  · rfl
  · exact allDigits_decimalPadded _ _

theorem render_eq_text (hx : x.WellFormed) : x.render = x.spelling.text := by
  have hfraction : (if x.fractionText = [] then [] else '.' :: x.fractionText)
      = if x.digits = 0 then [] else '.' :: decimalPadded x.digits x.fraction := by
    have hnil : x.fractionText = [] ↔ x.digits = 0 := by
      rw [← List.length_eq_zero_iff, length_fractionText hx]
    by_cases hnone : x.digits = 0
    · rw [if_pos (hnil.2 hnone), if_pos hnone]
    · rw [if_neg (mt hnil.1 hnone), if_neg hnone, fractionText, if_neg hnone]
  rw [render, List.append_assoc, ← hfraction]
  rfl

theorem valid_spelling (hx : x.Representable) : x.spelling.Valid where
  integer_ne_nil := decimal_ne_nil _
  integer_digits := allDigits_decimal _
  integer_lt := by
    rw [spelling, decimalValue_decimal]
    exact hx.integer
  fraction_digits := allDigits_fractionText x
  fraction_length := by
    rw [spelling, length_fractionText hx.wellFormed]
    exact hx.digits

/-- What is written denotes the number. -/
theorem number_spelling (hx : x.WellFormed) : x.spelling.number = x := by
  rw [Spelling.number, spelling]
  simp only [decimalValue_decimal, decimalValue_fractionText hx, length_fractionText hx]

theorem representable_number {s : Spelling} (h : s.Valid) : s.number.Representable where
  wellFormed := decimalValue_lt h.fraction_digits
  digits := h.fraction_length
  integer := h.integer_lt

/-- A number is written as it is spelled, apart from superfluous zeros in front. -/
theorem spelling_number {s : Spelling} (h : s.Valid) : s.number.spelling = s.shortened := by
  have hfraction : s.number.fractionText = s.fraction := by
    rw [fractionText, Spelling.number]
    split
    next hnone => exact (List.length_eq_zero_iff.1 hnone).symm
    next hsome =>
      exact decimalPadded_decimalValue (List.ne_nil_of_length_pos (Nat.pos_of_ne_zero hsome))
        h.fraction_digits
  rw [spelling, hfraction, Spelling.shortened, Spelling.number,
    decimal_decimalValue h.integer_ne_nil h.integer_digits]

theorem representable_of_parse? (h : parse? text = some x) : x.Representable := by
  obtain ⟨s, hvalid, -, rfl⟩ := parse?_eq_some_iff.1 h
  exact representable_number hvalid

/-- What is written is read as the same number. -/
theorem parse?_render (hx : x.Representable) : parse? x.render = some x :=
  parse?_eq_some_iff.2 ⟨x.spelling, valid_spelling hx, (render_eq_text hx.wellFormed).symm,
    number_spelling hx.wellFormed⟩

/-- **Numbers are written as they were read.** The texts that are read as numbers are those of valid
spellings. What is read of one is the number that it denotes, and this is written as it was spelled,
without superfluous zeros in front. Every number within the limits is written in such a way that it
is read as itself, sign and digits included. -/
theorem parse?_iff_spelled :
    (∀ text, (∃ x, parse? text = some x) ↔ ∃ s : Spelling, s.Valid ∧ s.text = text)
    ∧ (∀ s : Spelling, s.Valid →
        parse? s.text = some s.number ∧ s.number.render = s.shortened.text)
    ∧ ∀ x : Decimal, x.Representable → parse? x.render = some x := by
  refine ⟨fun text => ?_, fun s hvalid => ?_, fun x hx => parse?_render hx⟩
  · constructor
    · rintro ⟨x, hread⟩
      obtain ⟨s, hvalid, htext, -⟩ := parse?_eq_some_iff.1 hread
      exact ⟨s, hvalid, htext⟩
    · rintro ⟨s, hvalid, htext⟩
      exact ⟨s.number, parse?_eq_some_iff.2 ⟨s, hvalid, htext, rfl⟩⟩
  · refine ⟨parse?_eq_some_iff.2 ⟨s, hvalid, rfl, rfl⟩, ?_⟩
    rw [render_eq_text (representable_number hvalid).wellFormed, spelling_number hvalid]

/-- The largest integer part with zeros in front, a minus sign, and a fraction that starts and ends
with a zero: `-0018446744073709551615.050`. -/
def paddedLimit : Spelling where
  negative := true
  integer := ['0', '0', '1', '8', '4', '4', '6', '7', '4', '4', '0', '7', '3', '7', '0', '9', '5',
    '5', '1', '6', '1', '5']
  fraction := ['0', '5', '0']

theorem parse?_iff_spelled_paddedLimit :
    paddedLimit.number = ⟨true, 18446744073709551615, 50, 3⟩
      ∧ parse? paddedLimit.text = some paddedLimit.number
      ∧ paddedLimit.number.render = ['-', '1', '8', '4', '4', '6', '7', '4', '4', '0', '7', '3', '7',
        '0', '9', '5', '5', '1', '6', '1', '5', '.', '0', '5', '0']
      ∧ parse? paddedLimit.number.render = some paddedLimit.number := by
  have hvalid : paddedLimit.Valid := ⟨by decide, by decide, by decide, by decide, by decide⟩
  obtain ⟨hread, hwritten⟩ := parse?_iff_spelled.2.1 paddedLimit hvalid
  exact ⟨by decide, hread, hwritten.trans (by decide),
    parse?_iff_spelled.2.2 _ ⟨by decide, by decide, by decide⟩⟩

end MessageCatalog.Decimal
