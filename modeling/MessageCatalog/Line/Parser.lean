import MessageCatalog.Line.Basic

/-!
# Reading and composing lines

`Line.parse` reads the text of a line, `Line.compose` builds a line from its parts. Both look behind
the obsolete marker: what stands there has to be a line itself, unless it starts with a bar, which
introduces the former text of a message and is a comment under the marker as it is without one.

A line's text is read in three steps, each on what the step before has left: the keyword with its
index, the quoted string, the comment. Blanks may stand before each of them, and nothing may stand
behind the last.
-/

namespace MessageCatalog

/-- Why a text is not a line. -/
inductive LineFault where
  /-- A bracket behind a keyword holds something other than digits, or is not closed. -/
  | malformedIndex
  /-- An index does not fit a machine word. -/
  | indexOutOfRange
  /-- A quoted string has no closing quote. -/
  | unterminatedString
  /-- A quoted string holds a bad escape sequence. -/
  | escape (fault : EscapeFault)
  /-- Behind the last part stands something else. -/
  | trailingText
  /-- The keyword to be composed cannot be read back. -/
  | invalidKeyword
  deriving DecidableEq, Repr

/-- The wording of a fault. -/
def LineFault.message : LineFault → String
  | malformedIndex => "malformed keyword index"
  | indexOutOfRange => "keyword index out of range"
  | unterminatedString => "unterminated string"
  | escape fault => fault.message
  | trailingText => "unexpected trailing text"
  | invalidKeyword => "invalid keyword name"

/-- A fault together with the text in which it was found. -/
structure LineError where
  /-- What is wrong. -/
  fault : LineFault
  /-- The text that was read; for a fault behind an obsolete marker, the text behind it. -/
  text : Text
  deriving DecidableEq, Repr

/-- The wording of an error. -/
def LineError.message (error : LineError) : String :=
  error.fault.message ++ " in `" ++ String.ofList error.text ++ "`"

namespace Line

open Text

/-! ### The parts of a text -/

/-- Reads an index behind its opening bracket: digits and the closing bracket. -/
def readIndex (text : Text) : Except LineFault (Nat × Text) :=
  match text.takeWhile Char.isDigit, text.dropWhile Char.isDigit with
  | digit :: digits, ']' :: rest =>
    let index := decimalValue (digit :: digits)
    if index < wordLimit then .ok (index, rest) else .error .indexOutOfRange
  | _, _ => .error .malformedIndex

/-- Reads a keyword, if the text starts with one. -/
def readKeyword (text : Text) : Except LineFault (Option Keyword × Text) :=
  match text.takeWhile Keyword.isNameChar with
  | [] => .ok (none, text)
  | name =>
    match trimStart (text.dropWhile Keyword.isNameChar) with
    | '[' :: rest => (readIndex rest).map fun (index, rest) => (some { name, index }, rest)
    | rest => .ok (some { name }, rest)

/-- Splits a text at the quote that closes a string: the first one that does not follow a backslash
as its escaped character. -/
def closeQuote? : Text → Option (Text × Text)
  | [] => none
  | '"' :: rest => some ([], rest)
  | '\\' :: c :: rest => (closeQuote? rest).map fun (raw, rest) => ('\\' :: c :: raw, rest)
  | c :: rest => (closeQuote? rest).map fun (raw, rest) => (c :: raw, rest)

/-- Reads a quoted string, if the text starts with one. -/
def readValue (text : Text) : Except LineFault (Option Payload × Text) :=
  match text with
  | '"' :: rest =>
    match closeQuote? rest with
    | none => .error .unterminatedString
    | some (raw, rest) =>
      match Payload.ofRaw raw with
      | .error fault => .error (.escape fault)
      | .ok payload => .ok (some payload, rest)
  | _ => .ok (none, text)

/-- Reads a comment that takes the rest of the text. -/
def readComment : Text → Except LineFault (Option Text)
  | [] => .ok none
  | '#' :: comment => .ok (some comment)
  | _ => .error .trailingText

/-- Reads the parts of a line. -/
def readParts (text : Text) : Except LineFault Parts := do
  let (keyword, rest) ← readKeyword (trimStart text)
  let (value, rest) ← readValue (trimStart rest)
  let comment ← readComment (trimStart rest)
  return { keyword, value, comment }

/-! ### Obsolete lines -/

/-- What stands behind the obsolete marker, if the first part of the text is a comment that starts
with it. -/
def hidden? (text : Text) : Option Text :=
  (after? '#' (trimStart text)).bind (after? obsoleteMarker)

/-- Whether the text behind a marker is the former text of a message: it starts with a bar. -/
def isFormer (hidden : Text) : Bool := startsWith '|' (trimStart hidden)

/-- The comment line that holds the former text of a message. -/
def former (hidden : Text) : Line := plain { comment := some (trimStart hidden) } hidden

theorem length_lt_of_hidden? {text hidden : Text} (h : hidden? text = some hidden) :
    hidden.length < text.length := by
  simp only [hidden?, Option.bind_eq_some_iff, after?_eq_some] at h
  obtain ⟨comment, htrim, hcomment⟩ := h
  have := length_trimStart_le text
  simp only [htrim, hcomment, List.length_cons] at this
  omega

/-- Reads the text of a line. -/
def parse (text : Text) : Except LineError Line :=
  match _h : hidden? text with
  | some hidden =>
    if isFormer hidden then .ok (obsolete hidden text (former hidden))
    else (parse hidden).map (obsolete hidden text)
  | none =>
    match readParts text with
    | .error fault => .error { fault, text }
    | .ok parts => .ok (plain parts text)
termination_by text.length
decreasing_by exact length_lt_of_hidden? _h

/-! ### Composing lines -/

/-- What stands behind the obsolete marker, if the parts are a comment that starts with it and
nothing else. -/
def hiddenIn? (parts : Parts) : Option Text :=
  if parts.hasContent then none else parts.comment.bind (after? obsoleteMarker)

/-- Builds the line that holds the given parts, written with one space between neighbours. -/
def compose (parts : Parts) : Except LineError Line :=
  let raw := parts.render
  if parts.keyword.all fun keyword => Keyword.isName keyword.name then
    match hiddenIn? parts with
    | none => .ok (plain parts raw)
    | some hidden =>
      if isFormer hidden then .ok (obsolete hidden raw (former hidden))
      else (parse hidden).map (obsolete hidden raw)
  else .error { fault := .invalidKeyword, text := raw }

end Line

end MessageCatalog
