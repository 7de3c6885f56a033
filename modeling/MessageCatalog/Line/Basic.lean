import MessageCatalog.Escape
import MessageCatalog.Text.Blank

/-!
# Catalog lines

A line of a catalog holds up to three parts, in this order: a keyword, which may carry an index in
brackets; a quoted string; and a comment, which starts at a number sign and takes the rest of the
line.

A message that is no longer used is kept in the catalog behind the marker `~`: its lines are
comments whose text starts with the marker, and what follows the marker is a line again. Such a line
is called obsolete, and the line behind the marker is its *logical* line. A line that is not
obsolete is its own logical line.
-/

namespace MessageCatalog

/-- The word that says what a line is about, with an index when there are several of a kind. -/
structure Keyword where
  /-- The word itself. -/
  name : Text
  /-- The number in brackets behind the word. -/
  index : Option Nat := none
  deriving DecidableEq, Repr

namespace Keyword

/-- Whether a character may stand in a keyword's name: anything but a blank and the three characters
that introduce an index, a string and a comment. -/
def isNameChar (c : Char) : Bool := !Text.isBlank c && c != '[' && c != '"' && c != '#'

/-- Whether a text can be read back as a keyword's name. -/
def isName (name : Text) : Bool := !name.isEmpty && name.all isNameChar

/-- A keyword as it stands in a line. -/
def render (keyword : Keyword) : Text :=
  match keyword.index with
  | none => keyword.name
  | some index => keyword.name ++ '[' :: Text.decimal index ++ [']']

end Keyword

/-- A quoted string: the raw text between the quotes, and the value it stands for. -/
structure Payload where
  /-- The text between the quotes. -/
  raw : Text
  /-- What the raw text stands for. -/
  value : Text
  deriving DecidableEq, Repr

namespace Payload

/-- The string with the given raw text. -/
def ofRaw (raw : Text) : Except EscapeFault Payload :=
  (unescape raw).map fun value => { raw, value }

/-- The string with the given value, written in the standard way. -/
def ofValue (value : Text) : Payload := { raw := escape value, value }

/-- A string as it stands in a line. -/
def render (payload : Payload) : Text := '"' :: payload.raw ++ ['"']

end Payload

/-- The parts of a line. -/
structure Parts where
  /-- The keyword in front. -/
  keyword : Option Keyword := none
  /-- The quoted string. -/
  value : Option Payload := none
  /-- The text behind the number sign. -/
  comment : Option Text := none
  deriving DecidableEq, Repr

namespace Parts

/-- Whether the line is about something: it has a keyword or a string. -/
def hasContent (parts : Parts) : Bool := parts.keyword.isSome || parts.value.isSome

/-- The parts in their order, with one space between neighbours. -/
def render (parts : Parts) : Text :=
  Text.join [' '] <|
    (parts.keyword.map Keyword.render).toList ++ (parts.value.map Payload.render).toList
      ++ (parts.comment.map ('#' :: ·)).toList

end Parts

/-- The character that, at the start of a comment, marks the line as obsolete. -/
def obsoleteMarker : Char := '~'

/-- A line of a catalog. -/
inductive Line where
  /-- A line that is not marked obsolete: its parts, and its text as read. -/
  | plain (parts : Parts) (raw : Text)
  /-- An obsolete line: the text behind the marker, the whole text as read, and the line that the
  text behind the marker holds. -/
  | obsolete (hidden : Text) (raw : Text) (logical : Line)
  deriving DecidableEq, Repr

namespace Line

/-- The parts of the line as it stands; an obsolete line is a comment. -/
def parts : Line → Parts
  | plain parts _ => parts
  | obsolete hidden _ _ => { comment := some (obsoleteMarker :: hidden) }

/-- The text of the line as read. -/
def raw : Line → Text
  | plain _ raw => raw
  | obsolete _ raw _ => raw

/-- The line behind the marker, or the line itself if it is not marked. -/
def logical : Line → Line
  | obsolete _ _ logical => logical
  | line => line

/-- Whether the line is marked obsolete. -/
def isObsolete : Line → Bool
  | plain .. => false
  | obsolete .. => true

/-- The keyword of the line as it stands. -/
def keyword (line : Line) : Option Keyword := line.parts.keyword

/-- The quoted string of the line as it stands. -/
def value (line : Line) : Option Payload := line.parts.value

/-- The comment of the line as it stands. -/
def comment (line : Line) : Option Text := line.parts.comment

/-- Whether the line has neither keyword nor string. -/
def isCommentOrBlank (line : Line) : Bool := !line.parts.hasContent

/-- Whether the line has no part at all. -/
def isBlank (line : Line) : Bool := line.isCommentOrBlank && line.comment.isNone

/-- Whether the line has a comment and no other part. -/
def isComment (line : Line) : Bool := line.isCommentOrBlank && line.comment.isSome

/-- Whether the line has the keyword `name` without an index. -/
def hasKeyword (line : Line) (name : Text) : Bool := line.keyword = some { name }

/-- The line written anew from its parts. -/
def recompose (line : Line) : Text := line.parts.render

end Line

end MessageCatalog
