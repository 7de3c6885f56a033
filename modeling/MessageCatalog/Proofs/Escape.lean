import Mathlib.Data.List.Basic
import Mathlib.Data.Set.Operations
import MessageCatalog.Escape

/-!
# Escaped texts read back

`escape` writes each character of a value on its own, so what is to be shown of it is shown of one
character, in front of whatever follows: reading the written character gives it back
(`unescape_encode_append`). The same holds then of the whole value (`unescape_escape`). No control
character is left in what is written (`le_toNat_of_mem_escape`), and a quote in it is the end of
what is written for a quote of the value (`escape_eq_append_quote`).
-/

namespace MessageCatalog

open Escape

/-! ### Reading one character -/

theorem named?_of_letter? {c letter : Char} (h : letter? c = some letter) :
    named? letter = some c := by
  unfold letter? at h
  split at h
  case h_11 => cases h
  all_goals
    obtain rfl := Option.some.inj h
    rfl

/-- A named escape stands for its character. -/
theorem unescape_named {code c : Char} (h : named? code = some c) (rest : Text) :
    unescape ('\\' :: code :: rest) = (unescape rest).map (c :: ·) := by
  have hx : code ≠ 'x' := by
    rintro rfl
    cases h
  rw [unescape.eq_5 _ _ hx, h]

/-- A character other than the backslash stands for itself. -/
theorem unescape_plain {c : Char} (h : c ≠ '\\') (rest : Text) :
    unescape (c :: rest) = (unescape rest).map (c :: ·) :=
  unescape.eq_6 _ _ (fun hc _ => h hc) (fun _ hc _ => h hc) (fun _ _ hc _ => h hc)

theorem hexValue?_digitChar {d : Nat} (h : d < 16) : Text.hexValue? (Nat.digitChar d) = some d := by
  have hall : ∀ d < 16, Text.hexValue? (Nat.digitChar d) = some d := by decide
  exact hall d h

theorem ne_backslash_of_letter? {c : Char} (h : letter? c = none) : c ≠ '\\' := by
  rintro rfl
  cases h

theorem ne_quote_of_letter? {c : Char} (h : letter? c = none) : c ≠ '"' := by
  rintro rfl
  cases h

/-- A written character reads back, whatever follows it. -/
theorem unescape_encode_append (c : Char) (rest : Text) :
    unescape (encode c ++ rest) = (unescape rest).map (c :: ·) := by
  rw [encode]
  cases hletter : letter? c with
  | some letter => exact unescape_named (named?_of_letter? hletter) rest
  | none =>
    dsimp only
    split
    next hcontrol =>
      have hvalue : Char.ofNat (16 * (c.toNat / 16) + c.toNat % 16) = c := by
        rw [Nat.div_add_mod, Char.ofNat_toNat]
      simp only [List.cons_append, List.nil_append]
      rw [unescape.eq_3, hexValue?_digitChar (by omega), hexValue?_digitChar (by omega)]
      simp only [hvalue]
    next => exact unescape_plain (ne_backslash_of_letter? hletter) rest

/-! ### Whole values -/

theorem escape_cons (c : Char) (value : Text) : escape (c :: value) = encode c ++ escape value :=
  rfl

/-- A written value reads back. -/
theorem unescape_escape (value : Text) : unescape (escape value) = .ok value := by
  induction value with
  | nil => rfl
  | cons c value ih =>
    rw [escape_cons, unescape_encode_append, ih]
    rfl

theorem le_toNat_of_letter? {c letter : Char} (h : letter? c = some letter) :
    0x20 ≤ letter.toNat := by
  unfold letter? at h
  split at h
  case h_11 => cases h
  all_goals
    obtain rfl := Option.some.inj h
    decide

/-- A written value holds no control characters. -/
theorem le_toNat_of_mem_escape {value : Text} {d : Char} (h : d ∈ escape value) :
    0x20 ≤ d.toNat := by
  obtain ⟨c, -, hd⟩ := List.mem_flatMap.1 h
  rw [encode] at hd
  cases hletter : letter? c with
  | some letter =>
    rw [hletter] at hd
    simp only [List.mem_cons, List.not_mem_nil, or_false] at hd
    rcases hd with rfl | rfl
    · decide
    · exact le_toNat_of_letter? hletter
  | none =>
    rw [hletter] at hd
    dsimp only at hd
    split at hd
    next hcontrol =>
      have hall : ∀ d < 16, 0x20 ≤ (Nat.digitChar d).toNat := by decide
      simp only [List.mem_cons, List.not_mem_nil, or_false] at hd
      rcases hd with rfl | rfl | rfl | rfl
      · decide
      · decide
      · exact hall _ (by omega)
      · exact hall _ (by omega)
    next hcontrol =>
      rw [List.mem_singleton.1 hd]
      omega

/-! ### Quotes -/

/-- Only what is written for a quote holds a quote, and it holds a backslash in front of it. -/
theorem encode_eq_append_quote {c : Char} {front behind : Text}
    (h : encode c = front ++ '"' :: behind) : c = '"' ∧ front = ['\\'] ∧ behind = [] := by
  rw [encode] at h
  cases hletter : letter? c with
  | some letter =>
    rw [hletter] at h
    rcases front with _ | ⟨a, _ | ⟨b, front⟩⟩
    · cases (List.cons.inj h).1
    · simp only [List.cons_append, List.nil_append, List.cons.injEq] at h
      obtain ⟨rfl, rfl, rfl⟩ := h
      obtain rfl := Option.some.inj (named?_of_letter? hletter)
      exact ⟨rfl, rfl, rfl⟩
    · simp at h
  | none =>
    rw [hletter] at h
    dsimp only at h
    have hmem : '"' ∈ front ++ '"' :: behind := by simp
    rw [← h] at hmem
    exfalso
    split at hmem
    next hcontrol =>
      have hall : ∀ d < 16, '"' ≠ Nat.digitChar d := by decide
      simp only [List.mem_cons, List.not_mem_nil, or_false] at hmem
      rcases hmem with hslash | hx | hhigh | hlow
      · cases hslash
      · cases hx
      · exact hall _ (by omega) hhigh
      · exact hall _ (by omega) hlow
    next => exact ne_quote_of_letter? hletter (List.mem_singleton.1 hmem).symm

/-- A quote in a written value stands behind the backslash that escapes it, and for a quote of the
value: what is written in front of these two and what is written behind them are the values in front
of that quote and behind it. -/
theorem escape_eq_append_quote {value front behind : Text}
    (h : escape value = front ++ '"' :: behind) :
    ∃ before after, value = before ++ '"' :: after ∧ front = escape before ++ ['\\'] ∧
      behind = escape after := by
  induction value generalizing front with
  | nil => simp [escape] at h
  | cons c value ih =>
    rw [escape_cons] at h
    rcases List.append_eq_append_iff.1 h with ⟨more, rfl, hmore⟩ | ⟨last, hc, hlast⟩
    · -- the quote is written for a later character
      obtain ⟨before, after, rfl, rfl, rfl⟩ := ih hmore
      exact ⟨c :: before, after, rfl, by rw [escape_cons, List.append_assoc], rfl⟩
    · cases last with
      | nil =>
        -- it would be the first character that is written for the next one
        have hfirst : escape value = [] ++ '"' :: behind := hlast.symm
        obtain ⟨before, after, -, hfront, -⟩ := ih hfirst
        simp at hfront
      | cons quote last =>
        obtain ⟨rfl, rfl⟩ := List.cons.inj hlast
        obtain ⟨rfl, rfl, rfl⟩ := encode_eq_append_quote hc
        exact ⟨[], value, rfl, rfl, rfl⟩

/-- **Writing loses nothing and needs no quoting.** A written value reads back. It holds no control
character, and each quote in it is the second character of an escape sequence, which is written for
a quote of the value. So writing what a written text is read as gives the same text. -/
theorem escape_reads_back :
    (∀ value, unescape (escape value) = .ok value ∧ (∀ c ∈ escape value, 0x20 ≤ c.toNat) ∧
      ∀ front behind, escape value = front ++ '"' :: behind →
        ∃ before after, value = before ++ '"' :: after ∧ front = escape before ++ ['\\'] ∧
          behind = escape after) ∧
    ∀ raw ∈ Set.range escape, (unescape raw).map escape = .ok raw := by
  constructor
  · intro value
    exact ⟨unescape_escape value, fun c hc => le_toNat_of_mem_escape hc,
      fun front behind h => escape_eq_append_quote h⟩
  · rintro raw ⟨value, rfl⟩
    rw [unescape_escape]
    rfl

/-- A value with a control character in front of a digit, a backslash in front of a quote, and a
line feed. -/
def crowdedValue : Text := ['\x01', '1', '\\', '"', '\n', 'é']

theorem escape_reads_back_crowdedValue :
    escape crowdedValue = "\\x011\\\\\\".toList ++ '"' :: "\\né".toList ∧
      unescape (escape crowdedValue) = .ok crowdedValue ∧
      (∃ before after, crowdedValue = before ++ '"' :: after ∧
        "\\x011\\\\\\".toList = escape before ++ ['\\'] ∧ "\\né".toList = escape after) ∧
      (unescape (escape crowdedValue)).map escape = .ok (escape crowdedValue) := by
  have hwritten : escape crowdedValue
      = "\\x011\\\\\\".toList ++ '"' :: "\\né".toList := by decide
  obtain ⟨hreads, -, hquotes⟩ := escape_reads_back.1 crowdedValue
  exact ⟨hwritten, hreads, hquotes _ _ hwritten, escape_reads_back.2 _ ⟨crowdedValue, rfl⟩⟩

end MessageCatalog
