import MessageCatalog.Line.Basic

/-!
# Comments of an entry

The comment lines in front of an entry tell about it. The first character of a comment says what
kind it is: `:` for places in the source code, `,` for flags, `.` for a note that was extracted from
the source code, `|` for the former text of the message. Any other comment is the translator's own.
-/

namespace MessageCatalog

/-- What the comment lines in front of an entry say. -/
structure Comments where
  /-- The translator's own notes, trimmed. -/
  translator : List Text := []
  /-- The notes extracted from the source code, trimmed. -/
  extracted : List Text := []
  /-- The places in the source code that use the message. -/
  references : List Text := []
  /-- The flags of the message, such as `fuzzy`. -/
  flags : List Text := []
  deriving DecidableEq, Repr

namespace Comments

open Text

/-- The flags that a comment lists behind its comma: the trimmed pieces between commas that are not
empty. -/
def flagsIn (text : Text) : List Text :=
  ((splitWhere (· = ',') text).map trim).filter (· ≠ [])

/-- Adds what one more comment says. The former text of a message is not kept. -/
def add (comments : Comments) : Text → Comments
  | ':' :: text => { comments with references := comments.references ++ words text }
  | ',' :: text => { comments with flags := comments.flags ++ flagsIn text }
  | '.' :: text => { comments with extracted := comments.extracted ++ [trim text] }
  | '|' :: _ => comments
  | text => { comments with translator := comments.translator ++ [trim text] }

/-- Whether a line still belongs to the comments in front of an entry: it has neither keyword nor
string and is not marked obsolete. -/
def isLeading (line : Line) : Bool := line.isCommentOrBlank && !line.isObsolete

/-- What the comment lines in front of an entry's first other line say. -/
def ofLines (lines : List Line) : Comments :=
  ((lines.takeWhile isLeading).filterMap Line.comment).foldl add {}

/-- Whether the translated text is marked as uncertain. -/
def isFuzzy (comments : Comments) : Bool := comments.flags.contains ['f', 'u', 'z', 'z', 'y']

end Comments

end MessageCatalog
