import MessageCatalog.Proofs.Escape
import MessageCatalog.Proofs.Outcome

/-!
# The units of a raw text

What a raw text looks like, said without reference to how it is read: it is a sequence of units,
each of which stands for one character. A unit is a character other than the backslash, a named
escape, or a backslash with the digits of a number.

`unescape` succeeds exactly on the texts that fall into units and gives the characters for which
these stand (`unescape_eq_ok_iff`). No unit can be cut short and be a unit still
(`EscapeUnit.eq_of_append`), so a text falls into units in one way only, and a text behind one that
falls into units is read as if it stood alone (`unescape_append`).
-/

namespace MessageCatalog

/-! ### Units -/

namespace Escape

/-- The named escapes: the letter behind the backslash, and the character for which both stand. -/
def names : List (Char × Char) :=
  [('a', '\x07'), ('b', '\x08'), ('e', '\x1b'), ('f', '\x0c'), ('n', '\n'), ('r', '\r'),
    ('t', '\t'), ('v', '\x0b'), ('\\', '\\'), ('"', '"'), ('\'', '\''), ('?', '?')]

/-- The character is the digit for this value in a base of at most sixteen, in either case. -/
def IsDigit (base : Nat) (c : Char) (value : Nat) : Prop :=
  value < base ∧ (c = Nat.digitChar value ∨ c = (Nat.digitChar value).toUpper)

instance (base : Nat) (c : Char) (value : Nat) : Decidable (IsDigit base c value) :=
  inferInstanceAs (Decidable (_ ∧ _))

end Escape

open Escape

/-- A piece of a raw text that stands for one character. -/
inductive EscapeUnit : Text → Char → Prop where
  /-- A character other than the backslash stands for itself. -/
  | plain {c : Char} (h : c ≠ '\\') : EscapeUnit [c] c
  /-- A backslash and a letter that names a character. -/
  | named {letter c : Char} (h : (letter, c) ∈ names) : EscapeUnit ['\\', letter] c
  /-- A backslash, the letter `x`, and two hexadecimal digits of the character's number. -/
  | hexadecimal {high low : Char} {h l : Nat} (hhigh : IsDigit 16 high h)
    (hlow : IsDigit 16 low l) :
    EscapeUnit ['\\', 'x', high, low] (Char.ofNat (16 * h + l))
  /-- A backslash and three octal digits of the character's number. -/
  | octal {high middle low : Char} {h m l : Nat} (hhigh : IsDigit 8 high h)
    (hmiddle : IsDigit 8 middle m) (hlow : IsDigit 8 low l) :
    EscapeUnit ['\\', high, middle, low] (Char.ofNat (64 * h + 8 * m + l))

/-- The raw text falls into units, which stand for the characters of the value. -/
def FallsIntoUnits (raw value : Text) : Prop :=
  ∃ pieces : List Text, raw = pieces.flatten ∧ List.Forall₂ EscapeUnit pieces value

theorem FallsIntoUnits.nil : FallsIntoUnits [] [] := ⟨[], rfl, .nil⟩

theorem FallsIntoUnits.cons {piece rest value : Text} {c : Char} (hpiece : EscapeUnit piece c)
    (hrest : FallsIntoUnits rest value) : FallsIntoUnits (piece ++ rest) (c :: value) := by
  obtain ⟨pieces, rfl, hpieces⟩ := hrest
  exact ⟨piece :: pieces, rfl, .cons hpiece hpieces⟩

/-! ### Letters and digits -/

namespace Escape

theorem named?_eq_some_iff {letter c : Char} : named? letter = some c ↔ (letter, c) ∈ names := by
  constructor
  · intro h
    unfold named? at h
    split at h
    case h_13 => cases h
    all_goals
      obtain rfl := Option.some.inj h
      decide
  · intro h
    have hall : ∀ pair ∈ names, named? pair.1 = some pair.2 := by decide
    exact hall _ h

theorem toNat_le_of_hexValue? {c : Char} {value : Nat} (h : Text.hexValue? c = some value) :
    c.toNat ≤ 'f'.toNat := by
  unfold Text.hexValue? at h
  split at h
  next hdigit =>
    have hle : c.val ≤ 57 := by simp_all [Char.isDigit]
    exact Nat.le_trans hle (by decide)
  next =>
    split at h
    next hlower => exact hlower.2
    next =>
      split at h
      next hupper => exact Nat.le_trans hupper.2 (by decide)
      next => cases h

theorem hexValue?_eq_some_iff {c : Char} {value : Nat} :
    Text.hexValue? c = some value ↔ IsDigit 16 c value := by
  constructor
  · intro h
    have hall : ∀ n ≤ 'f'.toNat, ∀ v ∈ Text.hexValue? (Char.ofNat n),
        IsDigit 16 (Char.ofNat n) v := by
      decide
    have hdigit := hall c.toNat (toNat_le_of_hexValue? h) value
    rw [Char.ofNat_toNat] at hdigit
    exact hdigit h
  · rintro ⟨hlt, rfl | rfl⟩
    · exact hexValue?_digitChar hlt
    · have hall : ∀ v < 16, Text.hexValue? (Nat.digitChar v).toUpper = some v := by decide
      exact hall value hlt

theorem octalValue?_eq_some_iff {c : Char} {value : Nat} :
    Text.octalValue? c = some value ↔ IsDigit 8 c value := by
  constructor
  · intro h
    have hle : c.toNat ≤ '7'.toNat := by
      unfold Text.octalValue? at h
      split at h
      next hbounds => exact hbounds.2
      next => cases h
    have hall : ∀ n ≤ '7'.toNat, ∀ v ∈ Text.octalValue? (Char.ofNat n),
        IsDigit 8 (Char.ofNat n) v := by
      decide
    have hdigit := hall c.toNat hle value
    rw [Char.ofNat_toNat] at hdigit
    exact hdigit h
  · rintro ⟨hlt, rfl | rfl⟩
    · have hall : ∀ v < 8, Text.octalValue? (Nat.digitChar v) = some v := by decide
      exact hall value hlt
    · have hall : ∀ v < 8, Text.octalValue? (Nat.digitChar v).toUpper = some v := by decide
      exact hall value hlt

/-- An octal digit names no character, and it is not the letter of a hexadecimal number. -/
theorem named?_of_isDigit {c : Char} {value : Nat} (h : IsDigit 8 c value) :
    named? c = none ∧ c ≠ 'x' := by
  obtain ⟨hlt, rfl | rfl⟩ := h
  · have hall : ∀ v < 8, named? (Nat.digitChar v) = none ∧ Nat.digitChar v ≠ 'x' := by decide
    exact hall value hlt
  · have hall : ∀ v < 8, named? (Nat.digitChar v).toUpper = none ∧
        (Nat.digitChar v).toUpper ≠ 'x' := by decide
    exact hall value hlt

end Escape

/-! ### Reading units -/

/-- A unit in front of a text is read as its character. -/
theorem EscapeUnit.unescape_append {piece : Text} {c : Char} (h : EscapeUnit piece c)
    (rest : Text) : unescape (piece ++ rest) = (unescape rest).map (c :: ·) := by
  cases h with
  | plain h => exact unescape_plain h rest
  | named h => exact unescape_named (named?_eq_some_iff.2 h) rest
  | hexadecimal hhigh hlow =>
    simp only [List.cons_append, List.nil_append]
    rw [unescape.eq_3, hexValue?_eq_some_iff.2 hhigh, hexValue?_eq_some_iff.2 hlow]
  | octal hhigh hmiddle hlow =>
    obtain ⟨hname, hx⟩ := named?_of_isDigit hhigh
    simp only [List.cons_append, List.nil_append]
    rw [unescape.eq_5 _ _ hx, hname, octalValue?_eq_some_iff.2 hhigh]
    simp only [octalValue?_eq_some_iff.2 hmiddle, octalValue?_eq_some_iff.2 hlow]

/-- A text that falls into units is read as their characters, whatever follows it. -/
theorem FallsIntoUnits.unescape_append {raw value : Text} (h : FallsIntoUnits raw value)
    (rest : Text) : unescape (raw ++ rest) = (unescape rest).map (value ++ ·) := by
  obtain ⟨pieces, rfl, hpieces⟩ := h
  induction hpieces with
  | nil => cases hrest : unescape rest <;> simp [hrest, Except.map]
  | cons hpiece _ ih =>
    rw [List.flatten_cons, List.append_assoc, hpiece.unescape_append, ih]
    cases unescape rest <;> rfl

/-- What can be read falls into units. -/
theorem fallsIntoUnits_of_unescape {raw value : Text} (h : unescape raw = .ok value) :
    FallsIntoUnits raw value := by
  fun_induction unescape raw generalizing value with
  | case1 =>
    obtain rfl := Except.ok.inj h
    exact FallsIntoUnits.nil
  | case3 high low rest h l hlow hhigh ih =>
    obtain ⟨more, hmore, rfl⟩ := Outcome.map_eq_ok_iff.1 h
    exact FallsIntoUnits.cons (.hexadecimal (hexValue?_eq_some_iff.1 hhigh)
      (hexValue?_eq_some_iff.1 hlow)) (ih hmore)
  | case6 code rest hx c hname ih =>
    obtain ⟨more, hmore, rfl⟩ := Outcome.map_eq_ok_iff.1 h
    exact FallsIntoUnits.cons (.named (named?_eq_some_iff.1 hname)) (ih hmore)
  | case8 code hx high hcode hname middle low rest m l hlow hmiddle ih =>
    obtain ⟨more, hmore, rfl⟩ := Outcome.map_eq_ok_iff.1 h
    exact FallsIntoUnits.cons (.octal (octalValue?_eq_some_iff.1 hcode)
      (octalValue?_eq_some_iff.1 hmiddle) (octalValue?_eq_some_iff.1 hlow)) (ih hmore)
  | case11 c rest hend hx hcode ih =>
    obtain ⟨more, hmore, rfl⟩ := Outcome.map_eq_ok_iff.1 h
    refine FallsIntoUnits.cons (.plain ?_) (ih hmore)
    rintro rfl
    cases rest with
    | nil => exact hend rfl rfl
    | cons code rest => exact hcode code rest rfl rfl
  | _ => cases h

theorem unescape_eq_ok_iff {raw value : Text} :
    unescape raw = .ok value ↔ FallsIntoUnits raw value := by
  constructor
  · exact fallsIntoUnits_of_unescape
  · intro h
    have hread := h.unescape_append []
    rw [List.append_nil] at hread
    rw [hread]
    show Except.ok (value ++ []) = .ok value
    rw [List.append_nil]

/-! ### One way to fall into units -/

/-- How long the unit is that starts a text, which its first two characters tell. -/
def unitLength : Text → Nat
  | '\\' :: code :: _ => if code = 'x' ∨ (Text.octalValue? code).isSome then 4 else 2
  | _ => 1

theorem EscapeUnit.unitLength_append {piece : Text} {c : Char} (h : EscapeUnit piece c)
    (rest : Text) : unitLength (piece ++ rest) = piece.length := by
  cases h with
  | plain h => exact unitLength.eq_2 _ fun _ _ hcons => h (List.cons.inj hcons).1
  | @named letter _ h =>
    have hall : ∀ pair ∈ names, ¬(pair.1 = 'x' ∨ (Text.octalValue? pair.1).isSome) := by decide
    exact if_neg (hall _ h)
  | hexadecimal hhigh hlow => rfl
  | octal hhigh hmiddle hlow =>
    refine if_pos (.inr ?_)
    rw [octalValue?_eq_some_iff.2 hhigh]
    rfl

/-- A unit does not continue another one. -/
theorem EscapeUnit.eq_of_append {piece other rest more : Text} {c d : Char}
    (h : EscapeUnit piece c) (hother : EscapeUnit other d) (heq : piece ++ rest = other ++ more) :
    piece = other ∧ rest = more := by
  refine List.append_inj heq ?_
  rw [← h.unitLength_append rest, ← hother.unitLength_append more, heq]

theorem EscapeUnit.ne_nil {piece : Text} {c : Char} (h : EscapeUnit piece c) : piece ≠ [] := by
  cases h <;> exact List.cons_ne_nil _ _

/-- A text falls into units in one way only. -/
theorem eq_of_flatten_eq {pieces others : List Text} (h : ∀ piece ∈ pieces, ∃ c, EscapeUnit piece c)
    (hothers : ∀ piece ∈ others, ∃ c, EscapeUnit piece c)
    (heq : pieces.flatten = others.flatten) : pieces = others := by
  induction pieces generalizing others with
  | nil =>
    cases others with
    | nil => rfl
    | cons other others =>
      obtain ⟨c, hother⟩ := hothers other List.mem_cons_self
      exact absurd (List.append_eq_nil_iff.1 heq.symm).1 hother.ne_nil
  | cons piece pieces ih =>
    obtain ⟨c, hpiece⟩ := h piece List.mem_cons_self
    cases others with
    | nil => exact absurd (List.append_eq_nil_iff.1 heq).1 hpiece.ne_nil
    | cons other others =>
      obtain ⟨d, hother⟩ := hothers other List.mem_cons_self
      obtain ⟨rfl, hmore⟩ := hpiece.eq_of_append hother heq
      rw [ih (fun p hp => h p (List.mem_cons_of_mem _ hp))
        (fun p hp => hothers p (List.mem_cons_of_mem _ hp)) hmore]

/-- **The escape grammar.** Reading a raw text succeeds exactly if it falls into units, and gives
the characters for which they stand. It falls into them in one way only, so reading goes through two
texts one after the other: a text behind one that can be read gives its own value behind the
other's, or its own fault.

An octal number may exceed that of a byte; it then stands for the character with that number. -/
theorem unescape_grammar :
    (∀ raw value, unescape raw = .ok value ↔
      ∃ pieces : List Text, raw = pieces.flatten ∧ List.Forall₂ EscapeUnit pieces value) ∧
    (∀ pieces others : List Text, (∀ piece ∈ pieces, ∃ c, EscapeUnit piece c) →
      (∀ piece ∈ others, ∃ c, EscapeUnit piece c) → pieces.flatten = others.flatten →
      pieces = others) ∧
    ∀ a b x, unescape a = .ok x →
      (∀ y, unescape b = .ok y → unescape (a ++ b) = .ok (x ++ y)) ∧
      ∀ fault, unescape b = .error fault → unescape (a ++ b) = .error fault := by
  refine ⟨fun raw value => unescape_eq_ok_iff, fun pieces others h hothers heq =>
    eq_of_flatten_eq h hothers heq, ?_⟩
  intro a b x ha
  have happend := (unescape_eq_ok_iff.1 ha).unescape_append b
  constructor
  · intro y hb
    rw [happend, hb]
    rfl
  · intro fault hb
    rw [happend, hb]
    rfl

/-- Escapes in front of digits that could continue them, and their units. -/
def adjacentUnits : List Text :=
  [['\\', 'x', '4', 'a'], ['4'], ['\\', '1', '0', '1'], ['2'], ['\\', '\\'], ['x']]

theorem unescape_grammar_adjacentUnits :
    List.Forall₂ EscapeUnit adjacentUnits "J4A2\\x".toList ∧
      unescape adjacentUnits.flatten = .ok "J4A2\\x".toList ∧
      unescape (adjacentUnits.flatten ++ "\\x0A".toList) = .ok ("J4A2\\x".toList ++ ['\n']) ∧
      unescape (adjacentUnits.flatten ++ "\\12".toList) = .error .octalDigits := by
  have hunits : List.Forall₂ EscapeUnit adjacentUnits "J4A2\\x".toList :=
    .cons (.hexadecimal (h := 4) (l := 10) (by decide) (by decide)) <|
    .cons (.plain (by decide)) <|
    .cons (.octal (h := 1) (m := 0) (l := 1) (by decide) (by decide) (by decide)) <|
    .cons (.plain (by decide)) <| .cons (.named (by decide)) <| .cons (.plain (by decide)) .nil
  have hread := (unescape_grammar.1 adjacentUnits.flatten _).2 ⟨adjacentUnits, rfl, hunits⟩
  exact ⟨hunits, hread,
    (unescape_grammar.2.2 adjacentUnits.flatten "\\x0A".toList _ hread).1 ['\n'] (by decide),
    (unescape_grammar.2.2 adjacentUnits.flatten "\\12".toList _ hread).2 _ (by decide)⟩

end MessageCatalog
