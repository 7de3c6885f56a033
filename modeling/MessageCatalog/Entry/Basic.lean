import MessageCatalog.Entry.Comments
import MessageCatalog.Entry.Field
import MessageCatalog.Text.Quoted

/-!
# Entries

An entry is a run of lines that together hold one message: the comments in front of it, its id and
possibly a context, and its translated text, or one such text for each plural form.

`Entry.issue?` says what, if anything, is wrong with a run of lines, and `Entry.ofLines` makes an
entry of a run that nothing is wrong with.
-/

namespace MessageCatalog

/-- Why a run of lines is not an entry. -/
inductive EntryIssue where
  /-- A keyword without an index comes a second time. -/
  | repeatedKeyword (name : Text)
  /-- A plural form comes a second time. -/
  | duplicatePluralIndex (index : Nat)
  /-- The plural forms are not numbered from zero without a gap: so many are needed for the highest
  index, and so many are there. -/
  | pluralIndexGap (expected found : Nat)
  /-- There is a plural id and no plural form. -/
  | pluralIdWithoutValues
  /-- There is a plural form and no plural id. -/
  | pluralValuesWithoutId
  /-- A string comes before the first keyword, on a line with this text. -/
  | orphanValue (raw : Text)
  /-- Some lines with content are obsolete and some are not. -/
  | mixedObsolete
  /-- Some keywords are none of an entry: these, as written, in their order. -/
  | unsupportedKeywords (keywords : List Text)
  deriving DecidableEq, Repr

/-- The wording of an issue. -/
def EntryIssue.message : EntryIssue → String
  | repeatedKeyword name =>
    "keyword `" ++ String.ofList name ++ "` has already appeared in a prior line"
  | duplicatePluralIndex index => s!"duplicate plural index {index}"
  | pluralIndexGap expected found =>
    s!"expected {expected} plural values based on the highest index, found {found}"
  | pluralIdWithoutValues => "plural id provided, but no plural values found"
  | pluralValuesWithoutId => "plural values provided, but no plural id found"
  | orphanValue raw =>
    "string-only line without a prior keyworded line: `" ++ String.ofList raw ++ "`"
  | mixedObsolete => "entry mixes obsolete and non-obsolete lines"
  | unsupportedKeywords keywords =>
    "unsupported keywords: " ++ String.ofList (Text.join ", ".toList keywords)

/-- What identifies a message within a catalog. -/
structure EntryKey where
  /-- The context of the message. -/
  context : Option Text := none
  /-- The id of the message. -/
  id : Text
  deriving DecidableEq, Repr

/-- The key as shown in messages: the quoted id, behind the quoted context and a slash if there is a
context. -/
def EntryKey.render (key : EntryKey) : Text :=
  match key.context with
  | some context => Text.quoted context ++ '/' :: Text.quoted key.id
  | none => Text.quoted key.id

/-- One message of a catalog, with the lines that hold it. -/
structure Entry where
  /-- What the comments in front say. -/
  comments : Comments
  /-- The context of the message. -/
  context : Option Text
  /-- The id of the message; empty if no line gives one. -/
  id : Text
  /-- The translated text; empty if no line gives one. -/
  value : Text
  /-- The id used for more than one thing. -/
  pluralId : Option Text
  /-- The translated texts of the plural forms, by index. -/
  pluralValues : List Text
  /-- Whether the message is no longer used. -/
  obsolete : Bool
  /-- The lines of the entry. -/
  lines : List Line
  deriving DecidableEq, Repr

namespace Entry

/-! ### Reading a run of lines -/

/-- The first element of a list that equals an earlier one or one of `seen`. -/
def firstRepeat {α : Type} [DecidableEq α] (seen : List α) : List α → Option α
  | [] => none
  | a :: rest => if a ∈ seen then some a else firstRepeat (a :: seen) rest

/-- The first line with a string before any line with a keyword. -/
def orphan? (lines : List Line) : Option Line :=
  (lines.takeWhile fun line => line.logical.keyword.isNone).find? fun line =>
    line.logical.value.isSome

/-- The fields that the lines hold, in their order. -/
def fields (lines : List Line) : List Field := (Block.ofLines lines).filterMap Block.field?

/-- The indices of the plural forms that the lines hold, in their order. -/
def pluralIndices (lines : List Line) : List Nat := (fields lines).filterMap Field.index?

/-- The issue that a second occurrence of a field is. -/
def repeatIssue : Field → EntryIssue
  | .plural index => .duplicatePluralIndex index
  | field => .repeatedKeyword field.name

/-- Whether some line with content is obsolete. -/
def anyObsolete (lines : List Line) : Bool :=
  lines.any fun line => line.hasContent && line.isObsolete

/-- Whether some line with content is not obsolete. -/
def anyActive (lines : List Line) : Bool :=
  lines.any fun line => line.hasContent && !line.isObsolete

/-- The issue that a gap in the numbering of the plural forms is. The indices are known to be
distinct, so there is no gap exactly if there are as many as the highest one asks for. That number
is computed without regard to machine words: for the last index that fits a word it is
`Text.wordLimit`, which no word holds. Such forms are an issue in any case, as there are never so
many. -/
def gapIssue? (indices : List Nat) : Option EntryIssue :=
  match indices.max? with
  | none => none
  | some highest =>
    if highest + 1 = indices.length then none
    else some (.pluralIndexGap (highest + 1) indices.length)

/-- The issue that a plural id without plural forms is, and the reverse. -/
def pluralIssue? (fields : List Field) (indices : List Nat) : Option EntryIssue :=
  if .pluralId ∈ fields then
    if indices.isEmpty then some .pluralIdWithoutValues else none
  else if indices.isEmpty then none
  else some .pluralValuesWithoutId

/-- The keywords that are none of an entry, as written, in their order. -/
def unsupported (lines : List Line) : List Text :=
  ((Block.ofLines lines).filter fun block => block.field?.isNone).map fun block =>
    block.keyword.render

/-- What is wrong with a run of lines; of several issues, the first in the order given here. -/
def issue? (lines : List Line) : Option EntryIssue :=
  ((orphan? lines).map fun line => .orphanValue line.raw)
  |>.or ((firstRepeat [] (fields lines)).map repeatIssue)
  |>.or (if anyObsolete lines && anyActive lines then some .mixedObsolete else none)
  |>.or (gapIssue? (pluralIndices lines))
  |>.or (pluralIssue? (fields lines) (pluralIndices lines))
  |>.or (if unsupported lines = [] then none else some (.unsupportedKeywords (unsupported lines)))

/-- The content of a run of lines that nothing is wrong with. -/
def content (lines : List Line) : Entry :=
  let textOf? := Block.textOf? (Block.ofLines lines)
  { comments := Comments.ofLines lines
    context := textOf? .context
    id := (textOf? .id).getD []
    value := (textOf? .value).getD []
    pluralId := textOf? .pluralId
    pluralValues :=
      (List.range (pluralIndices lines).length).filterMap fun index => textOf? (.plural index)
    obsolete := anyObsolete lines
    lines }

/-- The entry that a run of lines holds. -/
def ofLines (lines : List Line) : Except EntryIssue Entry :=
  match issue? lines with
  | some issue => .error issue
  | none => .ok (content lines)

/-! ### Views of an entry -/

/-- What identifies the entry's message. -/
def key (entry : Entry) : EntryKey := { context := entry.context, id := entry.id }

/-- Whether the entry is a catalog's header: its id is empty and it has no context. -/
def isHeader (entry : Entry) : Bool := entry.key = { id := [] }

/-- Whether the entry has plural forms. -/
def isPlural (entry : Entry) : Bool := entry.pluralId.isSome

/-- Whether the entry has a context. -/
def isContextual (entry : Entry) : Bool := entry.context.isSome

/-- The entry as shown in messages. -/
def render (entry : Entry) : Text :=
  "Entry \x7b key: ".toList ++ entry.key.render ++ ", value: ".toList ++ Text.quoted entry.value
    ++ ", obsolete: ".toList ++ (if entry.obsolete then "true" else "false").toList
    ++ " \x7d".toList

end Entry

end MessageCatalog
