import MessageCatalog.Encoding.Basic
import MessageCatalog.Entry.Basic
import MessageCatalog.Line.Parser
import MessageCatalog.Plural.Fault

/-!
# Errors in catalogs

Reading a catalog is all or nothing: the first error ends it, and the error says where it was found.
-/

namespace MessageCatalog

/-- What is wrong with the sequence of entries of a catalog. -/
inductive DocumentIssue where
  /-- The catalog does not start with a header. -/
  | missingHeader
  /-- The first message has a context. -/
  | contextualHeader
  /-- The first message, with this line, has an id. -/
  | headerIdNotBlank (raw : Text)
  /-- The first message is obsolete. -/
  | obsoleteHeader
  /-- A context follows another one, with no id between them. -/
  | consecutiveContexts
  /-- A context is followed by no id. -/
  | danglingContext
  /-- An entry has the same key as an earlier one. -/
  | duplicateEntry (key : EntryKey)
  deriving DecidableEq, Repr

/-- The wording of an issue. -/
def DocumentIssue.message : DocumentIssue → String
  | missingHeader => "the first entry of a catalog must be a header with a blank msgid"
  | contextualHeader => "the header must not have a msgctxt"
  | headerIdNotBlank raw =>
    "the header must have a blank msgid, found `" ++ String.ofList raw ++ "`"
  | obsoleteHeader => "the header must not be obsolete"
  | consecutiveContexts => "two consecutive msgctxt lines without a msgid between them"
  | danglingContext => "msgctxt without a following msgid"
  | duplicateEntry key => "duplicate entry " ++ String.ofList key.render

/-- Why a catalog cannot be read. -/
inductive CatalogError where
  /-- The line with this number is malformed. -/
  | malformedLine (line : Nat) (error : LineError)
  /-- The lines from this number on do not form an entry. -/
  | entryStructure (line : Nat) (issue : EntryIssue)
  /-- The entries do not form a catalog; the issue shows at this line. -/
  | documentStructure (line : Nat) (issue : DocumentIssue)
  /-- A plural rule in the header is refused. -/
  | pluralRule (error : RuleError)
  /-- The header names no language, and none is given besides. -/
  | missingLanguage
  /-- This is not the name of a language. -/
  | unrecognizedTag (tag : Text)
  /-- The bytes are malformed in the encoding that they are in. -/
  | malformedBytes (encoding : Encoding)
  /-- The bytes of a stream are not UTF-8. -/
  | malformedStream
  deriving DecidableEq, Repr

/-- The wording of an error. -/
def CatalogError.message : CatalogError → String
  | malformedLine line error => s!"line {line}: " ++ error.message
  | entryStructure line issue => s!"entry starting at line {line}: " ++ issue.message
  | documentStructure line issue => s!"line {line}: " ++ issue.message
  | pluralRule error => error.message
  | missingLanguage => "invalid header: header has no `Language:` field"
  | unrecognizedTag tag => "unrecognized language tag `" ++ String.ofList tag ++ "`"
  | malformedBytes encoding => "I/O error: input is not valid " ++ encoding.name
  | malformedStream => "I/O error: stream did not contain valid UTF-8"

end MessageCatalog
