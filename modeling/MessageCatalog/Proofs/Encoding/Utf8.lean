import MessageCatalog.Encoding.Utf8
import MessageCatalog.Proofs.Encoding.Inversion

/-!
# The decoder of UTF-8 inverts the encoding

The decoder gives a character exactly for the well-formed sequences of one to four bytes
(`Utf8.Sequence`), and these are what the characters are stored as: no character has two sequences,
for the bounds on the second byte keep out overlong forms, and no sequence is without a character,
for they keep out surrogates and numbers beyond U+10FFFF.

The decoder reads a sequence from its first byte, which tells the bounds of the second and how many
follow. `lead_one` to `lead_other` say what each first byte gives, `step_last`, `step_more` and
`none_mem_step` what a byte behind it gives.
-/

namespace MessageCatalog.Utf8

open Decoder

/-! ### Well-formed sequences -/

/-- The bytes that may stand in a sequence behind its first. -/
def IsTrail (byte : UInt8) : Prop := 0x80 ≤ byte.toNat ∧ byte.toNat ≤ 0xBF

/-- The well-formed sequences of bytes, each with the number of its character. -/
inductive Sequence : Bytes → Nat → Prop where
  /-- One byte. -/
  | one {a : UInt8} {n : Nat} : a.toNat < 0x80 → n = a.toNat → Sequence [a] n
  /-- Two bytes. -/
  | two {a b : UInt8} {n : Nat} : 0xC2 ≤ a.toNat → a.toNat ≤ 0xDF → IsTrail b →
      n = 0x40 * (a.toNat % 0x20) + b.toNat % 0x40 → Sequence [a, b] n
  /-- Three bytes, with bounds on the second that keep out overlong forms and surrogates. -/
  | three {a b c : UInt8} {n : Nat} : 0xE0 ≤ a.toNat → a.toNat ≤ 0xEF → IsTrail b →
      (a.toNat = 0xE0 → 0xA0 ≤ b.toNat) → (a.toNat = 0xED → b.toNat ≤ 0x9F) → IsTrail c →
      n = 0x40 * (0x40 * (a.toNat % 0x10) + b.toNat % 0x40) + c.toNat % 0x40 → Sequence [a, b, c] n
  /-- Four bytes, with bounds on the second that keep out overlong forms and numbers of no
  character. -/
  | four {a b c d : UInt8} {n : Nat} : 0xF0 ≤ a.toNat → a.toNat ≤ 0xF4 → IsTrail b →
      (a.toNat = 0xF0 → 0x90 ≤ b.toNat) → (a.toNat = 0xF4 → b.toNat ≤ 0x8F) →
      IsTrail c → IsTrail d →
      n = 0x40 * (0x40 * (0x40 * (a.toNat % 8) + b.toNat % 0x40) + c.toNat % 0x40)
        + d.toNat % 0x40 → Sequence [a, b, c, d] n

variable {bytes : Bytes} {n : Nat}

/-- A well-formed sequence is that of a character. -/
theorem Sequence.isValidChar (h : Sequence bytes n) : n.isValidChar := by
  unfold Nat.isValidChar
  cases h with
  | one => omega
  | two _ _ hb => unfold IsTrail at hb; omega
  | three _ _ hb _ _ hc => unfold IsTrail at hb hc; omega
  | four _ _ hb _ _ hc hd => unfold IsTrail at hb hc hd; omega

/-- A sequence is how its character is stored. -/
theorem Sequence.encodeChar_eq (h : Sequence bytes n) : encodeChar (Char.ofNat n) = bytes := by
  unfold encodeChar
  rw [toNat_charOfNat h.isValidChar]
  cases h with
  | one ha hn => simp [ha, hn]
  | two ha ha' hb hn =>
    unfold IsTrail at hb
    rw [if_neg (by omega), if_pos (by omega)]
    simp only [List.cons.injEq, byteOfNat_eq_iff, and_true]
    omega
  | three ha ha' hb hlow hhigh hc hn =>
    unfold IsTrail at hb hc
    rw [if_neg (by omega), if_neg (by omega), if_pos (by omega)]
    simp only [List.cons.injEq, byteOfNat_eq_iff, and_true]
    omega
  | four ha ha' hb hlow hhigh hc hd hn =>
    unfold IsTrail at hb hc hd
    rw [if_neg (by omega), if_neg (by omega), if_neg (by omega)]
    simp only [List.cons.injEq, byteOfNat_eq_iff, and_true]
    omega

/-- Every character is stored as a well-formed sequence. -/
theorem sequence_encodeChar (c : Char) : Sequence (encodeChar c) c.toNat := by
  have hvalid : c.toNat.isValidChar := c.valid
  have hbyte : ∀ m, m < 0x100 → (UInt8.ofNat m).toNat = m := fun m hm => by
    rw [UInt8.toNat_ofNat', Nat.mod_eq_of_lt hm]
  simp only [encodeChar]
  generalize c.toNat = n at hvalid ⊢
  split_ifs with h₁ h₂ h₃
  · have ha := hbyte n (by omega)
    exact .one (by omega) ha.symm
  · have ha := hbyte (0xC0 + n / 0x40) (by omega)
    have hb := hbyte (0x80 + n % 0x40) (by omega)
    exact .two (by omega) (by omega) ⟨by omega, by omega⟩ (by omega)
  · have ha := hbyte (0xE0 + n / 0x1000) (by omega)
    have hb := hbyte (0x80 + n / 0x40 % 0x40) (by omega)
    have hc := hbyte (0x80 + n % 0x40) (by omega)
    exact .three (by omega) (by omega) ⟨by omega, by omega⟩ (by omega) (by omega)
      ⟨by omega, by omega⟩ (by omega)
  · have ha := hbyte (0xF0 + n / 0x40000) (by omega)
    have hb := hbyte (0x80 + n / 0x1000 % 0x40) (by omega)
    have hc := hbyte (0x80 + n / 0x40 % 0x40) (by omega)
    have hd := hbyte (0x80 + n % 0x40) (by omega)
    exact .four (by omega) (by omega) ⟨by omega, by omega⟩ (by omega) (by omega)
      ⟨by omega, by omega⟩ ⟨by omega, by omega⟩ (by omega)

/-! ### First bytes -/

section Lead

variable {a : UInt8}

theorem lead_one (h : a.toNat < 0x80) : lead a = ([some (Char.ofNat a.toNat)], none) := by
  simp only [lead]
  rw [if_pos h]

theorem lead_two (h : 0xC2 ≤ a.toNat) (h' : a.toNat ≤ 0xDF) :
    lead a = ([], some { value := a.toNat % 0x20, more := 0 }) := by
  simp only [lead]
  rw [if_neg (by omega), if_pos ⟨h, h'⟩]

theorem lead_three (h : 0xE0 ≤ a.toNat) (h' : a.toNat ≤ 0xEF) :
    lead a = ([], some { value := a.toNat % 0x10, more := 1,
                         low := if a.toNat = 0xE0 then 0xA0 else 0x80,
                         high := if a.toNat = 0xED then 0x9F else 0xBF }) := by
  simp only [lead]
  rw [if_neg (by omega), if_neg (by omega)]
  by_cases hE0 : a.toNat = 0xE0
  · simp [hE0]
  · by_cases hED : a.toNat = 0xED
    · simp [hED]
    · rw [if_neg hE0, if_neg hED, if_pos ⟨by omega, h'⟩, if_neg hE0, if_neg hED]

theorem lead_four (h : 0xF0 ≤ a.toNat) (h' : a.toNat ≤ 0xF4) :
    lead a = ([], some { value := a.toNat % 8, more := 2,
                         low := if a.toNat = 0xF0 then 0x90 else 0x80,
                         high := if a.toNat = 0xF4 then 0x8F else 0xBF }) := by
  simp only [lead]
  rw [if_neg (by omega), if_neg (by omega), if_neg (by omega), if_neg (by omega),
    if_neg (by omega)]
  by_cases hF0 : a.toNat = 0xF0
  · simp [hF0]
  · by_cases hF4 : a.toNat = 0xF4
    · simp [hF4]
    · rw [if_neg hF0, if_neg hF4, if_pos ⟨by omega, by omega⟩, if_neg hF0, if_neg hF4]

theorem lead_other (h : 0x80 ≤ a.toNat ∧ a.toNat < 0xC2 ∨ 0xF4 < a.toNat) :
    lead a = ([none], none) := by
  simp only [lead]
  rw [if_neg (by omega), if_neg (by omega), if_neg (by omega), if_neg (by omega),
    if_neg (by omega), if_neg (by omega), if_neg (by omega), if_neg (by omega)]

theorem lead_cases (a : UInt8) :
    a.toNat < 0x80 ∨ (0xC2 ≤ a.toNat ∧ a.toNat ≤ 0xDF) ∨ (0xE0 ≤ a.toNat ∧ a.toNat ≤ 0xEF) ∨
      (0xF0 ≤ a.toNat ∧ a.toNat ≤ 0xF4) ∨
      (0x80 ≤ a.toNat ∧ a.toNat < 0xC2 ∨ 0xF4 < a.toNat) := by
  omega

end Lead

/-! ### Unfinished sequences -/

section Rest

variable {value more : Nat} {low high b : UInt8} {c : Char}

/-- A byte within the bounds is taken. -/
theorem step_last (h : low ≤ b ∧ b ≤ high) :
    step (some { value, more := 0, low, high }) b
      = ([some (Char.ofNat (0x40 * value + b.toNat % 0x40))], none) := by
  simp only [step]
  rw [if_pos h]

theorem step_more (h : low ≤ b ∧ b ≤ high) :
    step (some { value, more := more + 1, low, high }) b
      = ([], some { value := 0x40 * value + b.toNat % 0x40, more }) := by
  simp only [step]
  rw [if_pos h]

/-- A byte beyond the bounds breaks the sequence off. -/
theorem none_mem_step (h : ¬(low ≤ b ∧ b ≤ high)) :
    none ∈ (step (some { value, more, low, high }) b).1 := by
  simp only [step]
  rw [if_neg h]
  exact List.mem_cons_self

theorem completes_last_iff :
    Completes decoder (some { value, more := 0, low, high }) bytes c ↔
      ∃ b, bytes = [b] ∧ (low ≤ b ∧ b ≤ high) ∧
        c = Char.ofNat (0x40 * value + b.toNat % 0x40) := by
  constructor
  · intro h
    cases bytes with
    | nil => cases h
    | cons b rest =>
      by_cases hb : low ≤ b ∧ b ≤ high
      · obtain ⟨rfl, rfl⟩ := (completes_cons_of_last (step_last hb)).1 h
        exact ⟨b, rfl, hb, rfl⟩
      · exact absurd h (not_completes_of_none_mem (none_mem_step hb))
  · rintro ⟨b, rfl, hb, rfl⟩
    exact .last (step_last hb)

theorem completes_more_iff :
    Completes decoder (some { value, more := more + 1, low, high }) bytes c ↔
      ∃ b rest, bytes = b :: rest ∧ (low ≤ b ∧ b ≤ high) ∧
        Completes decoder (some { value := 0x40 * value + b.toNat % 0x40, more }) rest c := by
  constructor
  · intro h
    cases bytes with
    | nil => cases h
    | cons b rest =>
      by_cases hb : low ≤ b ∧ b ≤ high
      · exact ⟨b, rest, rfl, hb, (completes_cons_of_more (step_more hb)).1 h⟩
      · exact absurd h (not_completes_of_none_mem (none_mem_step hb))
  · rintro ⟨b, rest, rfl, hb, hrest⟩
    exact .more (step_more hb) hrest

end Rest

/-! ### The bytes of a character -/

section Whole

variable {b : UInt8} {c : Char}

theorem isTrail_iff : IsTrail b ↔ 0x80 ≤ b ∧ b ≤ 0xBF := by
  rw [UInt8.le_iff_toNat_le, UInt8.le_iff_toNat_le]
  rfl

/-- The bounds on the second byte of three or four. -/
theorem bounds_iff {atLow atHigh : Prop} [Decidable atLow] [Decidable atHigh] {low high : UInt8}
    (hlow : 0x80 ≤ low.toNat) (hhigh : high.toNat ≤ 0xBF) :
    ((if atLow then low else 0x80) ≤ b ∧ b ≤ (if atHigh then high else 0xBF)) ↔
      IsTrail b ∧ (atLow → low.toNat ≤ b.toNat) ∧ (atHigh → b.toNat ≤ high.toNat) := by
  have h80 : (0x80 : UInt8).toNat = 0x80 := rfl
  have hBF : (0xBF : UInt8).toNat = 0xBF := rfl
  unfold IsTrail
  rw [UInt8.le_iff_toNat_le, UInt8.le_iff_toNat_le]
  split_ifs with h₁ h₂ h₂ <;>
    simp only [h₁, h₂, h80, hBF, true_imp_iff, false_imp_iff, and_true, true_and] <;> omega

/-- What the decoder gives a character for is a well-formed sequence. -/
theorem exists_sequence_of_completes (h : Completes decoder none bytes c) :
    ∃ n, Sequence bytes n ∧ c = Char.ofNat n := by
  cases bytes with
  | nil => cases h
  | cons a tail =>
    obtain ha | ⟨ha, ha'⟩ | ⟨ha, ha'⟩ | ⟨ha, ha'⟩ | ha := lead_cases a
    · obtain ⟨rfl, rfl⟩ := (completes_cons_of_last (lead_one ha)).1 h
      exact ⟨_, .one ha rfl, rfl⟩
    · have h₁ := (completes_cons_of_more (lead_two ha ha')).1 h
      obtain ⟨b, rfl, hb, rfl⟩ := completes_last_iff.1 h₁
      exact ⟨_, .two ha ha' (isTrail_iff.2 hb) rfl, rfl⟩
    · have h₁ := (completes_cons_of_more (lead_three ha ha')).1 h
      obtain ⟨b, _, rfl, hb, h₂⟩ := completes_more_iff.1 h₁
      obtain ⟨d, rfl, hd, rfl⟩ := completes_last_iff.1 h₂
      obtain ⟨hb, hlow, hhigh⟩ := (bounds_iff (by decide) (by decide)).1 hb
      exact ⟨_, .three ha ha' hb hlow hhigh (isTrail_iff.2 hd) rfl, rfl⟩
    · have h₁ := (completes_cons_of_more (lead_four ha ha')).1 h
      obtain ⟨b, _, rfl, hb, h₂⟩ := completes_more_iff.1 h₁
      obtain ⟨d, _, rfl, hd, h₃⟩ := completes_more_iff.1 h₂
      obtain ⟨e, rfl, he, rfl⟩ := completes_last_iff.1 h₃
      obtain ⟨hb, hlow, hhigh⟩ := (bounds_iff (by decide) (by decide)).1 hb
      exact ⟨_, .four ha ha' hb hlow hhigh (isTrail_iff.2 hd) (isTrail_iff.2 he) rfl, rfl⟩
    · have hstep : decoder.step none a = ([none], none) := lead_other ha
      exact absurd h (not_completes_of_none_mem (by simp [hstep]))

/-- The decoder gives a character for every well-formed sequence. -/
theorem Sequence.completes (h : Sequence bytes n) :
    Completes decoder none bytes (Char.ofNat n) := by
  cases h with
  | one ha hn =>
    rw [hn]
    exact .last (lead_one ha)
  | two ha ha' hb hn =>
    rw [hn]
    exact .more (lead_two ha ha') (completes_last_iff.2 ⟨_, rfl, isTrail_iff.1 hb, rfl⟩)
  | three ha ha' hb hlow hhigh hd hn =>
    rw [hn]
    refine .more (lead_three ha ha') (completes_more_iff.2 ⟨_, _, rfl, ?_,
      completes_last_iff.2 ⟨_, rfl, isTrail_iff.1 hd, rfl⟩⟩)
    exact (bounds_iff (by decide) (by decide)).2 ⟨hb, hlow, hhigh⟩
  | four ha ha' hb hlow hhigh hd he hn =>
    rw [hn]
    refine .more (lead_four ha ha') (completes_more_iff.2 ⟨_, _, rfl, ?_,
      completes_more_iff.2 ⟨_, _, rfl, isTrail_iff.1 hd,
        completes_last_iff.2 ⟨_, rfl, isTrail_iff.1 he, rfl⟩⟩⟩)
    exact (bounds_iff (by decide) (by decide)).2 ⟨hb, hlow, hhigh⟩

/-- The decoder gives a character exactly for the bytes that it is stored as. -/
theorem completes_iff : Completes decoder none bytes c ↔ bytes = encodeChar c := by
  constructor
  · intro h
    obtain ⟨n, hsequence, rfl⟩ := exists_sequence_of_completes h
    exact hsequence.encodeChar_eq.symm
  · rintro rfl
    have h := (sequence_encodeChar c).completes
    rwa [Char.ofNat_toNat] at h

end Whole

/-! ### The decoder -/

theorem step_cases (memory : Option Partial) (byte : UInt8) :
    (∃ next, step memory byte = ([], next) ∧ next ≠ none) ∨
    (∃ c, step memory byte = ([some c], none)) ∨ none ∈ (step memory byte).1 := by
  cases memory with
  | none =>
    obtain h | ⟨h, h'⟩ | ⟨h, h'⟩ | ⟨h, h'⟩ | h := lead_cases byte
    · exact .inr (.inl ⟨_, lead_one h⟩)
    · exact .inl ⟨_, lead_two h h', Option.some_ne_none _⟩
    · exact .inl ⟨_, lead_three h h', Option.some_ne_none _⟩
    · exact .inl ⟨_, lead_four h h', Option.some_ne_none _⟩
    · have hstep : step none byte = ([none], none) := lead_other h
      exact .inr (.inr (by simp [hstep]))
  | some sequence =>
    obtain ⟨value, more, low, high⟩ := sequence
    by_cases hb : low ≤ byte ∧ byte ≤ high
    · cases more with
      | zero => exact .inr (.inl ⟨_, step_last hb⟩)
      | succ more => exact .inl ⟨_, step_more hb, Option.some_ne_none _⟩
    · exact .inr (.inr (none_mem_step hb))

/-- **The decoder inverts the encoding.** -/
theorem inverts : Inverts decoder encodeChar where
  completes_iff _ _ := completes_iff
  step_cases := step_cases
  finish_start := rfl
  none_mem_finish memory hmemory := by
    cases memory with
    | none => exact absurd rfl hmemory
    | some sequence => exact List.mem_singleton.2 rfl

end MessageCatalog.Utf8
