import Mathlib.Data.List.Basic
import MessageCatalog.Line.Parser
import MessageCatalog.Proofs.Outcome

/-!
# What a line reads as

A line keeps its text (`raw_of_parse`), so reading that text again gives the same line. A text that
starts with a character of a name starts with a keyword (`parse_cons_of_isNameChar`); a byte order
mark is such a character. What the readers of the parts take is what stands in front of a character
that they do not take (`takeWhile_append_of_noHead`).
-/

namespace MessageCatalog.Line

open Text

/-! ### The text of a line -/

/-- A line keeps the text that it was read from. -/
theorem raw_of_parse {text : Text} {line : Line} (h : parse text = .ok line) : line.raw = text := by
  rw [parse] at h
  split at h
  next hidden _ =>
    split at h
    · obtain rfl := Except.ok.inj h
      rfl
    · obtain ⟨logical, -, rfl⟩ := Outcome.map_eq_ok_iff.1 h
      rfl
  next =>
    split at h
    · cases h
    · obtain rfl := Except.ok.inj h
      rfl

/-- The text of a line reads as that line. -/
theorem parse_raw {text : Text} {line : Line} (h : parse text = .ok line) :
    parse line.raw = .ok line := by
  rw [raw_of_parse h]
  exact h

/-! ### Texts that start with a name -/

theorem not_isBlank_of_isNameChar {c : Char} (h : Keyword.isNameChar c = true) :
    Text.isBlank c = false := by
  simp only [Keyword.isNameChar, Bool.and_eq_true, Bool.not_eq_true'] at h
  exact h.1.1.1

theorem ne_hash_of_isNameChar {c : Char} (h : Keyword.isNameChar c = true) : c ≠ '#' := by
  simp only [Keyword.isNameChar, Bool.and_eq_true, bne_iff_ne] at h
  exact h.2

theorem hidden?_cons_of_isNameChar {c : Char} (h : Keyword.isNameChar c = true) (rest : Text) :
    hidden? (c :: rest) = none := by
  simp [hidden?, trimStart_cons_of_not_blank (not_isBlank_of_isNameChar h), after?,
    ne_hash_of_isNameChar h]

/-- A text without an obsolete marker reads as its parts. -/
theorem parse_of_readParts {text : Text} {parts : Parts} (hhidden : hidden? text = none)
    (h : readParts text = .ok parts) : parse text = .ok (plain parts text) := by
  rw [parse]
  split
  next hidden hsome => cases hhidden.symm.trans hsome
  next => rw [h]

theorem readKeyword_cons_of_isNameChar {c : Char} {text rest : Text} {keyword : Option Keyword}
    (hc : Keyword.isNameChar c = true) (h : readKeyword (c :: text) = .ok (keyword, rest)) :
    ∃ name index, keyword = some { name := c :: name, index } := by
  rw [readKeyword, List.takeWhile_cons_of_pos hc] at h
  dsimp only at h
  split at h
  · obtain ⟨⟨index, rest'⟩, -, heq⟩ := Outcome.map_eq_ok_iff.1 h
    exact ⟨_, _, (Prod.mk.inj heq).1⟩
  · exact ⟨_, none, (Prod.mk.inj (Except.ok.inj h)).1.symm⟩

/-- A text that starts with a character of a name reads as a line whose keyword starts with it. -/
theorem parse_cons_of_isNameChar {c : Char} {text : Text} {line : Line}
    (hc : Keyword.isNameChar c = true) (h : parse (c :: text) = .ok line) :
    ∃ name index, line.logical.keyword = some { name := c :: name, index } := by
  rw [parse] at h
  split at h
  next hidden hsome => cases (hidden?_cons_of_isNameChar hc text).symm.trans hsome
  next =>
    split at h
    · cases h
    next parts hparts =>
      obtain rfl := Except.ok.inj h
      rw [readParts, trimStart_cons_of_not_blank (not_isBlank_of_isNameChar hc)] at hparts
      obtain ⟨⟨keyword, rest⟩, hkeyword, hparts⟩ := Outcome.bind_eq_ok_iff.1 hparts
      obtain ⟨⟨value, rest'⟩, -, hparts⟩ := Outcome.bind_eq_ok_iff.1 hparts
      obtain ⟨comment, -, hparts⟩ := Outcome.bind_eq_ok_iff.1 hparts
      obtain rfl := Except.ok.inj hparts
      exact readKeyword_cons_of_isNameChar hc hkeyword

/-! ### Where a reader stops -/

/-- The text does not start with a character that satisfies `p`. -/
def NoHead (p : Char → Bool) (text : Text) : Prop := ∀ c rest, text = c :: rest → p c = false

theorem NoHead.cons {p : Char → Bool} {c : Char} (h : p c = false) (rest : Text) :
    NoHead p (c :: rest) := by
  intro d tail heq
  rw [← (List.cons.inj heq).1]
  exact h

variable {p : Char → Bool} {front rest : Text}

theorem takeWhile_append_of_noHead (hfront : ∀ c ∈ front, p c = true) (hrest : NoHead p rest) :
    (front ++ rest).takeWhile p = front := by
  rw [List.takeWhile_append_of_pos hfront]
  cases rest with
  | nil => simp
  | cons c rest => simp [hrest c rest rfl]

theorem dropWhile_append_of_noHead (hfront : ∀ c ∈ front, p c = true) (hrest : NoHead p rest) :
    (front ++ rest).dropWhile p = rest := by
  rw [List.dropWhile_append_of_pos hfront]
  cases rest with
  | nil => rfl
  | cons c rest => simp [hrest c rest rfl]

end MessageCatalog.Line
