import MessageCatalog.Encoding.Utf16
import MessageCatalog.Proofs.Encoding.Inversion

/-!
# The decoder of UTF-16 inverts the encoding

The decoder gives a character exactly for one unit that is no surrogate and for a high surrogate
with a low one behind it (`Utf16.Sequence`), and these are the units that a character is stored as.
The two byte orders differ only in the bytes of a unit, which determine it and are determined by it.
-/

namespace MessageCatalog.Utf16

open Decoder

variable {order : ByteOrder} {bytes : Bytes} {c : Char}

/-! ### Units -/

/-- Two bytes are those of their unit. -/
theorem encodeUnit_unit (order : ByteOrder) (first second : UInt8) :
    encodeUnit order (unit order first second) = [first, second] := by
  have h₁ := first.toNat_lt
  have h₂ := second.toNat_lt
  cases order with
  | little =>
    simp only [encodeUnit, unit, List.cons.injEq, and_true, byteOfNat_eq_iff]
    omega
  | big =>
    simp only [encodeUnit, unit, List.cons.injEq, and_true, byteOfNat_eq_iff]
    omega

theorem unit_lt (order : ByteOrder) (first second : UInt8) : unit order first second < 0x10000 := by
  have h₁ := first.toNat_lt
  have h₂ := second.toNat_lt
  cases order with
  | little => simp only [unit]; omega
  | big => simp only [unit]; omega

/-- A unit is that of its two bytes. -/
theorem exists_encodeUnit_eq {n : Nat} (hn : n < 0x10000) (order : ByteOrder) :
    ∃ first second, encodeUnit order n = [first, second] ∧ unit order first second = n := by
  cases order with
  | little =>
    refine ⟨_, _, rfl, ?_⟩
    simp only [unit, UInt8.toNat_ofNat']
    omega
  | big =>
    refine ⟨_, _, rfl, ?_⟩
    simp only [unit, UInt8.toNat_ofNat']
    omega

theorem isHigh_iff {n : Nat} : isHigh n = true ↔ 0xD800 ≤ n ∧ n < 0xDC00 := by
  simp [isHigh]

theorem isLow_iff {n : Nat} : isLow n = true ↔ 0xDC00 ≤ n ∧ n < 0xE000 := by
  simp [isLow]

/-! ### Well-formed sequences -/

/-- The well-formed sequences of units, each with the number of its character. -/
inductive Sequence : List Nat → Nat → Prop where
  /-- A unit that is no surrogate. -/
  | one {n : Nat} : n < 0x10000 → isHigh n = false → isLow n = false → Sequence [n] n
  /-- A high surrogate and a low one. -/
  | pair {high low n : Nat} : isHigh high = true → isLow low = true →
      n = 0x10000 + 0x400 * (high - 0xD800) + (low - 0xDC00) → Sequence [high, low] n

variable {sequence : List Nat} {n : Nat}

/-- A well-formed sequence is that of a character. -/
theorem Sequence.isValidChar (h : Sequence sequence n) : n.isValidChar := by
  unfold Nat.isValidChar
  cases h with
  | one hn hhigh hlow =>
    rw [Bool.eq_false_iff, Ne, isHigh_iff] at hhigh
    rw [Bool.eq_false_iff, Ne, isLow_iff] at hlow
    omega
  | pair hhigh hlow hn =>
    rw [isHigh_iff] at hhigh
    rw [isLow_iff] at hlow
    omega

/-- A sequence is how its character is stored. -/
theorem Sequence.units_eq (h : Sequence sequence n) : units (Char.ofNat n) = sequence := by
  unfold units
  rw [toNat_charOfNat h.isValidChar]
  cases h with
  | one hn _ _ => simp [hn]
  | pair hhigh hlow hn =>
    rw [isHigh_iff] at hhigh
    rw [isLow_iff] at hlow
    rw [if_neg (by omega)]
    simp only [List.cons.injEq, and_true]
    omega

/-- Every character is stored as a well-formed sequence. -/
theorem sequence_units (c : Char) : Sequence (units c) c.toNat := by
  have hvalid : c.toNat.isValidChar := c.valid
  simp only [units]
  generalize c.toNat = n at hvalid ⊢
  split
  next hn =>
    refine .one hn ?_ ?_
    · rw [Bool.eq_false_iff, Ne, isHigh_iff]
      omega
    · rw [Bool.eq_false_iff, Ne, isLow_iff]
      omega
  next hn => exact .pair (isHigh_iff.2 (by omega)) (isLow_iff.2 (by omega)) (by omega)

/-! ### What a unit gives -/

theorem lead_high (h : isHigh n = true) : lead n = ([], { surrogate := some n }) := by
  rw [lead, if_pos h]

theorem lead_low (h : isHigh n = false) (h' : isLow n = true) : lead n = ([none], {}) := by
  rw [lead, if_neg (by rw [h]; exact Bool.false_ne_true), if_pos h']

theorem lead_plain (h : isHigh n = false) (h' : isLow n = false) :
    lead n = ([some (Char.ofNat n)], {}) := by
  rw [lead, if_neg (by rw [h]; exact Bool.false_ne_true),
    if_neg (by rw [h']; exact Bool.false_ne_true)]

theorem stepUnit_low {high : Nat} (h : isLow n = true) :
    stepUnit (some high) n
      = ([some (Char.ofNat (0x10000 + 0x400 * (high - 0xD800) + (n - 0xDC00)))], {}) := by
  rw [stepUnit, if_pos h]

/-- A surrogate without its partner is malformed. -/
theorem none_mem_stepUnit {high : Nat} (h : isLow n = false) :
    none ∈ (stepUnit (some high) n).1 := by
  rw [stepUnit, if_neg (by rw [h]; exact Bool.false_ne_true)]
  exact List.mem_cons_self

/-! ### The bytes of a character -/

/-- From one unit to the next, nothing but its first byte is remembered. -/
theorem completes_iff_exists_unit {surrogate : Option Nat} :
    Completes (decoder order) { surrogate } bytes c ↔ ∃ first second rest,
      bytes = first :: second :: rest ∧
        Completes (decoder order) { half := some first, surrogate } (second :: rest) c := by
  have hstep : ∀ first, (decoder order).step { surrogate } first
      = ([], { half := some first, surrogate }) := fun _ => rfl
  constructor
  · intro h
    cases bytes with
    | nil => cases h
    | cons first bytes =>
      rw [completes_cons_of_more (hstep first)] at h
      cases bytes with
      | nil => cases h
      | cons second rest => exact ⟨first, second, rest, rfl, h⟩
  · rintro ⟨first, second, rest, rfl, h⟩
    exact .more (hstep first) h

/-- Behind a high surrogate, a low one gives the character. -/
theorem completes_surrogate_iff {high : Nat} :
    Completes (decoder order) { surrogate := some high } bytes c ↔
      ∃ low, isLow low = true ∧ bytes = encodeUnit order low ∧
        c = Char.ofNat (0x10000 + 0x400 * (high - 0xD800) + (low - 0xDC00)) := by
  constructor
  · intro h
    obtain ⟨first, second, rest, rfl, hunit⟩ := completes_iff_exists_unit.1 h
    cases hlow : isLow (unit order first second) with
    | true =>
      obtain ⟨rfl, hc⟩ := (completes_cons_of_last (stepUnit_low hlow)).1 hunit
      exact ⟨_, hlow, (encodeUnit_unit _ _ _).symm, hc⟩
    | false => exact absurd hunit (not_completes_of_none_mem (none_mem_stepUnit hlow))
  · rintro ⟨low, hlow, rfl, hc⟩
    have hlt : low < 0x10000 := by rw [isLow_iff] at hlow; omega
    obtain ⟨first, second, hbytes, rfl⟩ := exists_encodeUnit_eq hlt order
    rw [hbytes, hc]
    exact completes_iff_exists_unit.2 ⟨first, second, [], rfl, .last (stepUnit_low hlow)⟩

/-- What the decoder gives a character for are the bytes of a well-formed sequence. -/
theorem exists_sequence_of_completes (h : Completes (decoder order) {} bytes c) :
    ∃ sequence n, Sequence sequence n ∧ bytes = sequence.flatMap (encodeUnit order) ∧
      c = Char.ofNat n := by
  obtain ⟨first, second, rest, rfl, hunit⟩ := completes_iff_exists_unit.1 h
  have hbytes := encodeUnit_unit order first second
  have hlt := unit_lt order first second
  cases hhigh : isHigh (unit order first second) with
  | true =>
    rw [completes_cons_of_more (lead_high hhigh), completes_surrogate_iff] at hunit
    obtain ⟨low, hlow, rfl, hc⟩ := hunit
    exact ⟨_, _, .pair hhigh hlow rfl, by simp [hbytes], hc⟩
  | false =>
    cases hlow : isLow (unit order first second) with
    | true =>
      have hstep : (decoder order).step { half := some first } second = ([none], {}) :=
        lead_low hhigh hlow
      exact absurd hunit (not_completes_of_none_mem (by simp [hstep]))
    | false =>
      obtain ⟨rfl, rfl⟩ := (completes_cons_of_last (lead_plain hhigh hlow)).1 hunit
      exact ⟨_, _, .one hlt hhigh hlow, by simp [hbytes], rfl⟩

/-- The decoder gives a character for the bytes of every well-formed sequence. -/
theorem Sequence.completes (h : Sequence sequence n) (order : ByteOrder) :
    Completes (decoder order) {} (sequence.flatMap (encodeUnit order)) (Char.ofNat n) := by
  cases h with
  | one hlt hhigh hlow =>
    obtain ⟨first, second, hbytes, rfl⟩ := exists_encodeUnit_eq hlt order
    rw [List.flatMap_singleton, hbytes]
    exact completes_iff_exists_unit.2 ⟨first, second, [], rfl, .last (lead_plain hhigh hlow)⟩
  | @pair high low _ hhigh hlow hn =>
    have hlt : high < 0x10000 := by rw [isHigh_iff] at hhigh; omega
    obtain ⟨first, second, hbytes, rfl⟩ := exists_encodeUnit_eq hlt order
    rw [List.flatMap_cons, List.flatMap_singleton, hbytes, hn]
    refine completes_iff_exists_unit.2 ⟨first, second, _, rfl, .more (lead_high hhigh) ?_⟩
    exact completes_surrogate_iff.2 ⟨low, hlow, rfl, rfl⟩

/-- The decoder gives a character exactly for the bytes that it is stored as. -/
theorem completes_iff :
    Completes (decoder order) {} bytes c ↔ bytes = (units c).flatMap (encodeUnit order) := by
  constructor
  · intro h
    obtain ⟨sequence, n, hsequence, rfl, rfl⟩ := exists_sequence_of_completes h
    rw [hsequence.units_eq]
  · rintro rfl
    have h := (sequence_units c).completes order
    rwa [Char.ofNat_toNat] at h

/-! ### The decoder -/

theorem stepUnit_cases (surrogate : Option Nat) (n : Nat) :
    (∃ next, stepUnit surrogate n = ([], next) ∧ next ≠ {}) ∨
    (∃ c, stepUnit surrogate n = ([some c], {})) ∨ none ∈ (stepUnit surrogate n).1 := by
  cases surrogate with
  | none =>
    cases hhigh : isHigh n with
    | true => exact .inl ⟨_, lead_high hhigh, by simp⟩
    | false =>
      cases hlow : isLow n with
      | true =>
        have hstep : stepUnit none n = ([none], {}) := lead_low hhigh hlow
        exact .inr (.inr (by simp [hstep]))
      | false => exact .inr (.inl ⟨_, lead_plain hhigh hlow⟩)
  | some high =>
    cases hlow : isLow n with
    | true => exact .inr (.inl ⟨_, stepUnit_low hlow⟩)
    | false => exact .inr (.inr (none_mem_stepUnit hlow))

/-- **The decoder inverts the encoding**, in either byte order. -/
theorem inverts (order : ByteOrder) :
    Inverts (decoder order) fun c => (units c).flatMap (encodeUnit order) where
  completes_iff _ _ := completes_iff
  step_cases memory byte := by
    obtain ⟨half, surrogate⟩ := memory
    cases half with
    | none => exact .inl ⟨_, rfl, by simp [decoder]⟩
    | some first => exact stepUnit_cases surrogate _
  finish_start := rfl
  none_mem_finish memory hmemory := by
    have hfinish : (decoder order).finish memory = [none] := if_neg hmemory
    rw [hfinish]
    exact List.mem_singleton.2 rfl

end MessageCatalog.Utf16
