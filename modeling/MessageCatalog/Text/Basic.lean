/-!
# Texts

A text is the list of its characters, so that every reader of this library is a recursion on a
list and every statement about one is a statement about lists. This module holds the few
operations on texts that have no notion of their own: joining, removing a leading character,
comparing without regard to the case of ASCII letters, cutting at the first separator, and cutting
a text into the lines that a file of it has.

`lines_unlines` says that the line form loses nothing as long as no line holds a line feed or ends
with a carriage return.
-/

namespace MessageCatalog

/-- A text is the list of its characters. -/
abbrev Text := List Char

namespace Text

/-- The texts one after another, with `separator` between neighbours. -/
def join (separator : Text) (texts : List Text) : Text := separator.intercalate texts

/-- What follows `mark`, if the text starts with that character. -/
def after? (mark : Char) : Text → Option Text
  | c :: rest => if c = mark then some rest else none
  | [] => none

/-- The text without `mark` in front, or the text itself if it starts otherwise. -/
def dropMark (mark : Char) (text : Text) : Text := (after? mark text).getD text

/-- Whether the text starts with `mark`. -/
def startsWith (mark : Char) (text : Text) : Bool := (after? mark text).isSome

theorem after?_eq_some {mark : Char} {text rest : Text} :
    after? mark text = some rest ↔ text = mark :: rest := by
  cases text with
  | nil => simp [after?]
  | cons c cs =>
    by_cases h : c = mark <;> simp [after?, h]

/-- The parts before and after the first `separator`, if there is one. -/
def cutAt? (separator : Char) : Text → Option (Text × Text)
  | [] => none
  | c :: rest =>
    if c = separator then some ([], rest)
    else (cutAt? separator rest).map fun (before, behind) => (c :: before, behind)

/-- Cutting at a separator removes one separator and nothing else. -/
theorem eq_append_of_cutAt? {separator : Char} {text before behind : Text}
    (h : cutAt? separator text = some (before, behind)) :
    text = before ++ separator :: behind := by
  induction text generalizing before with
  | nil => simp [cutAt?] at h
  | cons c rest ih =>
    by_cases hc : c = separator
    · simp only [cutAt?, hc, if_true, Option.some.injEq, Prod.mk.injEq] at h
      simp [← h.1, ← h.2, hc]
    · simp only [cutAt?, hc, if_false, Option.map_eq_some_iff, Prod.exists, Prod.mk.injEq] at h
      obtain ⟨front, back, hcut, rfl, rfl⟩ := h
      simp [ih hcut]

/-- A text is cut at its first separator. -/
theorem cutAt?_append {separator : Char} {before : Text} (h : separator ∉ before) (behind : Text) :
    cutAt? separator (before ++ separator :: behind) = some (before, behind) := by
  induction before with
  | nil => simp [cutAt?]
  | cons c before ih =>
    have hc : c ≠ separator := fun heq => h (by simp [heq])
    simp [cutAt?, hc, ih fun hmem => h (List.mem_cons_of_mem _ hmem)]

theorem cutAt?_eq_none {separator : Char} {text : Text} (h : separator ∉ text) :
    cutAt? separator text = none := by
  induction text with
  | nil => rfl
  | cons c text ih =>
    have hc : c ≠ separator := fun heq => h (heq ▸ List.mem_cons_self)
    simp [cutAt?, hc, ih fun hmem => h (List.mem_cons_of_mem _ hmem)]

/-- Cuts the text at every character that satisfies `cut`; a text with `n` of them has `n + 1`
pieces. -/
def splitWhere (cut : Char → Bool) : Text → List Text
  | [] => [[]]
  | c :: rest =>
    if cut c then [] :: splitWhere cut rest
    else match splitWhere cut rest with
      | [] => [[c]]
      | piece :: pieces => (c :: piece) :: pieces

/-- The text with its ASCII letters in lower case. -/
def lower (text : Text) : Text := text.map Char.toLower

/-- The text with its ASCII letters in upper case. -/
def upper (text : Text) : Text := text.map Char.toUpper

/-- Whether two texts differ at most in the case of their ASCII letters. -/
def sameLetters (a b : Text) : Bool := lower a = lower b

/-! ### Lines of a text -/

/-- The lines of a text. A line ends at a line feed, and a carriage return directly before that
line feed belongs to the line end; a carriage return elsewhere is an ordinary character. A text
that ends with a line feed has no further, empty line behind it. -/
def lines : Text → List Text
  | [] => []
  | '\n' :: rest => [] :: lines rest
  | '\r' :: '\n' :: rest => [] :: lines rest
  | c :: rest =>
    match lines rest with
    | [] => [[c]]
    | line :: more => (c :: line) :: more

/-- Writes each line with a line feed behind it. -/
def unlines (texts : List Text) : Text := texts.flatMap (· ++ ['\n'])

/-- A line that can be written and read back: it holds no line feed and does not end with a
carriage return. -/
def IsLine (text : Text) : Prop := '\n' ∉ text ∧ text.getLast? ≠ some '\r'

theorem lines_append_newline {text : Text} (h : IsLine text) (rest : Text) :
    lines (text ++ '\n' :: rest) = text :: lines rest := by
  induction text with
  | nil => simp [lines]
  | cons c cs ih =>
    obtain ⟨hmem, hlast⟩ := h
    have hc : c ≠ '\n' := fun hc => hmem (by simp [hc])
    have hcs : IsLine cs := by
      refine ⟨fun hm => hmem (by simp [hm]), ?_⟩
      cases cs with
      | nil => simp
      | cons d ds => simpa [List.getLast?_cons_cons] using hlast
    have hr : c = '\r' → ∀ r, cs ++ '\n' :: rest ≠ '\n' :: r := by
      intro hcr r heq
      cases cs with
      | nil => simp [hcr] at hlast
      | cons d ds =>
        simp only [List.cons_append, List.cons.injEq] at heq
        exact hmem (by simp [heq.1])
    rw [List.cons_append, lines.eq_4 _ _ (by simpa using hc) (by
      intro r h1 h2; exact hr h1 r h2), ih hcs]

/-- Reading back written lines gives the same lines. -/
theorem lines_unlines {texts : List Text} (h : ∀ t ∈ texts, IsLine t) :
    lines (unlines texts) = texts := by
  induction texts with
  | nil => rfl
  | cons t ts ih =>
    have ht : IsLine t := h t (by simp)
    have hts : ∀ u ∈ ts, IsLine u := fun u hu => h u (by simp [hu])
    have : unlines (t :: ts) = t ++ '\n' :: unlines ts := by simp [unlines]
    rw [this, lines_append_newline ht, ih hts]

end Text

end MessageCatalog
