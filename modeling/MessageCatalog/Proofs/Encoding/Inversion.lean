import MessageCatalog.Encoding.Decoder
import Mathlib.Data.List.Basic

/-!
# Decoders that invert an encoding

An encoding gives each character its bytes, and a text is stored as the bytes of its characters one
after another. A decoder inverts the encoding if it finds nothing malformed in exactly the bytes
that are stored so, and gives back the text (`Decoder.Inverts.run_eq_iff`).

What has to be shown of a decoder for this is about one character only (`Decoder.Inverts`): which
bytes lead it from the start to a character and back to the start (`Decoder.Completes`), and that
whatever it does besides is to remember something or to give something malformed.
-/

namespace MessageCatalog

/-! ### Bytes and characters as numbers -/

theorem byteOfNat_eq_iff {n : Nat} {byte : UInt8} :
    UInt8.ofNat n = byte ↔ n % 0x100 = byte.toNat := by
  rw [← UInt8.toNat_inj, UInt8.toNat_ofNat']

theorem toNat_charOfNat {n : Nat} (h : n.isValidChar) : (Char.ofNat n).toNat = n := by
  rw [Char.ofNat, dif_pos h]
  rfl

/-! ### Decoded texts -/

/-- Nothing in decoded input is malformed exactly if it consists of the characters of a text. -/
theorem strictText?_eq_some_iff {decoded : List (Option Char)} {text : Text} :
    strictText? decoded = some text ↔ decoded = text.map some := by
  induction decoded generalizing text with
  | nil => cases text <;> simp [strictText?]
  | cons c decoded ih =>
    cases c with
    | none => cases text <;> simp [strictText?]
    | some c =>
      cases text with
      | nil => simp [strictText?]
      | cons d text => simp [strictText?, ih, and_comm]

/-- Where nothing is malformed, nothing is repaired. -/
theorem repairedText_map_some (text : Text) : repairedText (text.map some) = text := by
  simp [repairedText, Function.comp_def]

theorem ne_map_some_of_none_mem {decoded : List (Option Char)} (h : none ∈ decoded) (text : Text) :
    decoded ≠ text.map some := by
  rintro rfl
  obtain ⟨c, -, hc⟩ := List.mem_map.1 h
  cases hc

namespace Decoder

variable {σ : Type} {decoder : Decoder σ} {memory : σ} {bytes : Bytes} {c : Char} {text : Text}
  {encodeChar : Char → Bytes}

/-! ### The bytes of one character -/

/-- With this memory, the bytes give the character and nothing else, and then nothing is
remembered. -/
inductive Completes (decoder : Decoder σ) : σ → Bytes → Char → Prop where
  /-- The last byte of a character. -/
  | last {memory : σ} {byte : UInt8} {c : Char} :
      decoder.step memory byte = ([some c], decoder.start) → Completes decoder memory [byte] c
  /-- A byte with others of the same character behind it. -/
  | more {memory next : σ} {byte : UInt8} {bytes : Bytes} {c : Char} :
      decoder.step memory byte = ([], next) → Completes decoder next bytes c →
      Completes decoder memory (byte :: bytes) c

/-- The bytes of a character give the character, whatever stands behind them. -/
theorem Completes.runFrom_append (h : Completes decoder memory bytes c) (rest : Bytes) :
    decoder.runFrom memory (bytes ++ rest) = some c :: decoder.run rest := by
  induction h with
  | last hstep => simp [runFrom, hstep, run]
  | more hstep _ ih => simp [runFrom, hstep, ih]

theorem completes_cons_of_last {byte : UInt8} {d : Char}
    (hstep : decoder.step memory byte = ([some d], decoder.start)) :
    Completes decoder memory (byte :: bytes) c ↔ bytes = [] ∧ c = d := by
  constructor
  · intro h
    cases h with
    | last hlast =>
      cases hstep.symm.trans hlast
      exact ⟨rfl, rfl⟩
    | more hmore _ => cases hstep.symm.trans hmore
  · rintro ⟨rfl, rfl⟩
    exact .last hstep

theorem completes_cons_of_more {byte : UInt8} {next : σ}
    (hstep : decoder.step memory byte = ([], next)) :
    Completes decoder memory (byte :: bytes) c ↔ Completes decoder next bytes c := by
  constructor
  · intro h
    cases h with
    | last hlast => cases hstep.symm.trans hlast
    | more hmore hrest =>
      obtain ⟨-, rfl⟩ := Prod.mk.inj (hstep.symm.trans hmore)
      exact hrest
  · exact .more hstep

theorem not_completes_of_none_mem {byte : UInt8} (hnone : none ∈ (decoder.step memory byte).1) :
    ¬Completes decoder memory (byte :: bytes) c := by
  intro h
  cases h with
  | last hlast => simp [hlast] at hnone
  | more hmore _ => simp [hmore] at hnone

/-! ### The bytes of a text -/

/-- The decoder inverts an encoding of the characters. -/
structure Inverts (decoder : Decoder σ) (encodeChar : Char → Bytes) : Prop where
  /-- Exactly the bytes of a character lead to it from the start. -/
  completes_iff : ∀ bytes c, Completes decoder decoder.start bytes c ↔ bytes = encodeChar c
  /-- A byte is remembered, or is the last of a character, or shows something malformed. -/
  step_cases : ∀ memory byte,
    (∃ next, decoder.step memory byte = ([], next) ∧ next ≠ decoder.start) ∨
    (∃ c, decoder.step memory byte = ([some c], decoder.start)) ∨
    none ∈ (decoder.step memory byte).1
  /-- Nothing is missing at the end if nothing is remembered. -/
  finish_start : decoder.finish decoder.start = []
  /-- What is remembered at the end is malformed. -/
  none_mem_finish : ∀ memory, memory ≠ decoder.start → none ∈ decoder.finish memory

/-- The bytes of a text give its characters, whatever stands behind them. -/
theorem Inverts.run_append (h : Inverts decoder encodeChar) (text : Text) (rest : Bytes) :
    decoder.run (text.flatMap encodeChar ++ rest) = text.map some ++ decoder.run rest := by
  induction text with
  | nil => rfl
  | cons c text ih =>
    have hc := (h.completes_iff (encodeChar c) c).2 rfl
    rw [List.flatMap_cons, List.append_assoc, run, hc.runFrom_append, ih, List.map_cons,
      List.cons_append]

/-- Bytes in which nothing is malformed: the rest of a character that has been started, unless
nothing is remembered, and behind it the bytes of a text. -/
theorem Inverts.bytes_of_runFrom (h : Inverts decoder encodeChar)
    (hrun : decoder.runFrom memory bytes = text.map some) :
    memory = decoder.start ∧ bytes = text.flatMap encodeChar ∨
      ∃ first c more, text = c :: more ∧ Completes decoder memory first c ∧
        bytes = first ++ more.flatMap encodeChar := by
  induction bytes generalizing memory text with
  | nil =>
    by_cases hstart : memory = decoder.start
    · rw [runFrom, hstart, h.finish_start, eq_comm, List.map_eq_nil_iff] at hrun
      exact .inl ⟨hstart, by rw [hrun]; rfl⟩
    · exact absurd hrun (ne_map_some_of_none_mem (h.none_mem_finish memory hstart) text)
  | cons byte bytes ih =>
    rw [runFrom] at hrun
    obtain ⟨next, hstep, hnext⟩ | ⟨c, hstep⟩ | hnone := h.step_cases memory byte
    · rw [hstep] at hrun
      obtain ⟨hstart, -⟩ | ⟨first, c, more, htext, hfirst, hbytes⟩ := ih hrun
      · -- the byte would be lost
        exact absurd hstart hnext
      · exact .inr ⟨byte :: first, c, more, htext, .more hstep hfirst, by rw [hbytes]; rfl⟩
    · rw [hstep] at hrun
      obtain ⟨d, more, rfl, hd, hmore⟩ := List.map_eq_cons_iff.1 hrun.symm
      obtain rfl := Option.some.inj hd
      refine .inr ⟨[byte], d, more, rfl, .last hstep, ?_⟩
      obtain ⟨-, hbytes⟩ | ⟨first, e, rest, rfl, hfirst, hbytes⟩ := ih hmore.symm
      · rw [hbytes]
        rfl
      · rw [hbytes, (h.completes_iff _ _).1 hfirst]
        rfl
    · exact absurd hrun (ne_map_some_of_none_mem (List.mem_append_left _ hnone) text)

/-- **A decoder that inverts an encoding** finds nothing malformed in exactly the bytes of texts. -/
theorem Inverts.run_eq_iff (h : Inverts decoder encodeChar) :
    decoder.run bytes = text.map some ↔ bytes = text.flatMap encodeChar := by
  constructor
  · intro hrun
    obtain ⟨-, hbytes⟩ | ⟨first, c, more, rfl, hfirst, hbytes⟩ := h.bytes_of_runFrom hrun
    · exact hbytes
    · rw [hbytes, (h.completes_iff _ _).1 hfirst, List.flatMap_cons]
  · rintro rfl
    have hrun := h.run_append text []
    have hnil : decoder.run [] = [] := h.finish_start
    rwa [List.append_nil, hnil, List.append_nil] at hrun

end Decoder

end MessageCatalog
