import MessageCatalog.Plural.Fault
import MessageCatalog.Plural.Operand
import MessageCatalog.Text.Blank
import MessageCatalog.Text.Letter

/-!
# Reading tokens

`Token.ofRule` reads the relations of a rule up to the first `@`, which starts the sample clause;
`Token.ofSamples` reads such a clause. Blanks may stand between tokens and separate them.

A token takes at least one character, which is why both readers come to an end:
`ruleToken_append` and `sampleToken_append` say that a token and what follows it are together the
text that was there.
-/

namespace MessageCatalog.Token

open Text

/-! ### Numbers -/

/-- Splits off the number at the start of a text: digits, and a point with the digits behind it if
there is a digit behind it. -/
def splitNumber (text : Text) : Text × Text :=
  let whole := text.takeWhile Char.isDigit
  match text.dropWhile Char.isDigit with
  | '.' :: digit :: rest =>
    if digit.isDigit then
      (whole ++ '.' :: (digit :: rest).takeWhile Char.isDigit,
        (digit :: rest).dropWhile Char.isDigit)
    else (whole, '.' :: digit :: rest)
  | rest => (whole, rest)

theorem splitNumber_append (text : Text) : (splitNumber text).1 ++ (splitNumber text).2 = text := by
  have h := List.takeWhile_append_dropWhile (p := Char.isDigit) (l := text)
  unfold splitNumber
  split
  · next digit rest hrest =>
    rw [hrest] at h
    split
    · simpa [List.append_assoc, List.takeWhile_append_dropWhile] using h
    · exact h
  · exact h

theorem splitNumber_ne_nil {c : Char} (hc : c.isDigit = true) (rest : Text) :
    (splitNumber (c :: rest)).1 ≠ [] := by
  unfold splitNumber
  split
  · split <;> simp [hc]
  · simp [hc]

/-! ### Tokens of the relations -/

/-- The kind of token that a word is. -/
def wordKind? (word : Text) : Option TokenKind :=
  if word = ['a', 'n', 'd'] then some .and
  else if word = ['o', 'r'] then some .or
  else if (Operand.parse? word).isSome then some .operand
  else none

/-- Splits off the word at the start of a text, which has to be one that a rule may hold. -/
def splitWord (text : Text) : Except RuleFault (Token × Text) :=
  let word := text.takeWhile isLetter
  match wordKind? word with
  | some kind => .ok ({ kind, text := word }, text.dropWhile isLetter)
  | none => .error (.unknownWord word)

/-- Splits off the token at the start of the text `c :: rest`, whose first character is neither a
blank nor `@`. -/
def ruleToken (c : Char) (rest : Text) : Except RuleFault (Token × Text) :=
  if c.isDigit then
    .ok ({ kind := .number, text := (splitNumber (c :: rest)).1 }, (splitNumber (c :: rest)).2)
  else if isLetter c then splitWord (c :: rest)
  else match c, rest with
    | '%', rest => .ok ({ kind := .modulus, text := ['%'] }, rest)
    | ',', rest => .ok ({ kind := .comma, text := [','] }, rest)
    | '=', rest => .ok ({ kind := .equals, text := ['='] }, rest)
    | '!', '=' :: rest => .ok ({ kind := .notEquals, text := ['!', '='] }, rest)
    | '.', '.' :: rest => .ok ({ kind := .range, text := ['.', '.'] }, rest)
    | c, _ => .error (.unexpectedCharacter c)

/-- A token of a rule and what follows it make up the text, and the token is not empty. -/
theorem ruleToken_append {c : Char} {rest after : Text} {token : Token}
    (h : ruleToken c rest = .ok (token, after)) :
    token.text ++ after = c :: rest ∧ token.text ≠ [] := by
  unfold ruleToken at h
  split at h
  · next hdigit =>
    simp only [Except.ok.injEq, Prod.mk.injEq] at h
    rw [← h.1, ← h.2]
    exact ⟨splitNumber_append _, splitNumber_ne_nil hdigit _⟩
  · split at h
    · next hletter =>
      simp only [splitWord] at h
      split at h
      · simp only [Except.ok.injEq, Prod.mk.injEq] at h
        rw [← h.1, ← h.2]
        exact ⟨List.takeWhile_append_dropWhile, by simp [hletter]⟩
      · simp at h
    · split at h <;> cases h <;> simp

theorem length_lt_of_ruleToken {c : Char} {rest after : Text} {token : Token}
    (h : ruleToken c rest = .ok (token, after)) : after.length < (c :: rest).length := by
  obtain ⟨happend, hne⟩ := ruleToken_append h
  have := List.length_pos_iff.2 hne
  rw [← happend, List.length_append]
  omega

/-- Reads the tokens of a rule's relations; what is left starts with the `@` of the sample clause or
is empty. -/
def ofRule : Text → Except RuleFault (List Token × Text)
  | [] => .ok ([], [])
  | c :: rest =>
    if isBlank c then ofRule rest
    else if c = '@' then .ok ([], c :: rest)
    else match _h : ruleToken c rest with
      | .error fault => .error fault
      | .ok (token, after) => (ofRule after).map fun (tokens, clause) => (token :: tokens, clause)
termination_by text => text.length
decreasing_by
  · simp
  · exact length_lt_of_ruleToken _h

/-! ### Tokens of a sample clause -/

/-- Splits off the token at the start of the text `c :: rest`, whose first character is neither a
blank nor the letter of an exponent. -/
def sampleToken (c : Char) (rest : Text) : Except RuleFault (Token × Text) :=
  if c.isDigit then
    .ok ({ kind := .number, text := (splitNumber (c :: rest)).1 }, (splitNumber (c :: rest)).2)
  else match c, rest with
    | '~', rest => .ok ({ kind := .range, text := ['~'] }, rest)
    | ',', rest => .ok ({ kind := .comma, text := [','] }, rest)
    | '…', rest => .ok ({ kind := .ellipsis, text := ['…'] }, rest)
    | '.', '.' :: '.' :: rest => .ok ({ kind := .ellipsis, text := ['.', '.', '.'] }, rest)
    | '@', 'i' :: 'n' :: 't' :: 'e' :: 'g' :: 'e' :: 'r' :: rest =>
      .ok ({ kind := .integerMark, text := ['@', 'i', 'n', 't', 'e', 'g', 'e', 'r'] }, rest)
    | '@', 'd' :: 'e' :: 'c' :: 'i' :: 'm' :: 'a' :: 'l' :: rest =>
      .ok ({ kind := .decimalMark, text := ['@', 'd', 'e', 'c', 'i', 'm', 'a', 'l'] }, rest)
    | '@', _ => .error .unknownMark
    | c, _ => .error (.unexpectedCharacter c)

/-- A token of a sample clause and what follows it make up the text, and the token is not empty. -/
theorem sampleToken_append {c : Char} {rest after : Text} {token : Token}
    (h : sampleToken c rest = .ok (token, after)) :
    token.text ++ after = c :: rest ∧ token.text ≠ [] := by
  unfold sampleToken at h
  split at h
  · next hdigit =>
    simp only [Except.ok.injEq, Prod.mk.injEq] at h
    rw [← h.1, ← h.2]
    exact ⟨splitNumber_append _, splitNumber_ne_nil hdigit _⟩
  · split at h <;> cases h <;> simp

theorem length_lt_of_sampleToken {c : Char} {rest after : Text} {token : Token}
    (h : sampleToken c rest = .ok (token, after)) : after.length < (c :: rest).length := by
  obtain ⟨happend, hne⟩ := sampleToken_append h
  have := List.length_pos_iff.2 hne
  rw [← happend, List.length_append]
  omega

/-- Whether a character introduces an exponent, as in `1c6` or `1e6`. -/
def isExponentLetter (c : Char) : Bool := c = 'c' || c = 'e'

/-- The tokens read so far, latest first, without the number that an exponent belongs to; `none` if
the latest token is not a number or no digit follows the exponent's letter. -/
def dropBase? (read : List Token) (rest : Text) : Option (List Token) :=
  match read, rest with
  | token :: earlier, digit :: _ =>
    if token.kind = .number ∧ digit.isDigit then some earlier else none
  | _, _ => none

/-- Reads the tokens of a sample clause, behind those already read, which are given latest first. A
number in exponent notation is dropped. -/
def ofSamplesFrom (read : List Token) : Text → Except RuleFault (List Token)
  | [] => .ok read.reverse
  | c :: rest =>
    if isBlank c then ofSamplesFrom read rest
    else if isExponentLetter c then
      match dropBase? read rest with
      | none => .error (.misplacedExponent c)
      | some earlier => ofSamplesFrom earlier (splitNumber rest).2
    else match _h : sampleToken c rest with
      | .error fault => .error fault
      | .ok (token, after) => ofSamplesFrom (token :: read) after
termination_by text => text.length
decreasing_by
  · simp
  · have := congrArg List.length (splitNumber_append rest)
    simp only [List.length_append, List.length_cons] at *
    omega
  · exact length_lt_of_sampleToken _h

/-- Reads the tokens of a sample clause. -/
def ofSamples (clause : Text) : Except RuleFault (List Token) := ofSamplesFrom [] clause

end MessageCatalog.Token
