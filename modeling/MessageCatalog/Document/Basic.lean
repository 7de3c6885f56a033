import MessageCatalog.Document.Assembly
import MessageCatalog.Header

/-!
# Catalogs

A catalog is a header and the messages behind it. It keeps the lines of all entries, so writing it
gives the text back line by line.
-/

namespace MessageCatalog

/-- A catalog. -/
structure Document where
  /-- What the header says. -/
  header : Header
  /-- The entry of the header. -/
  headerEntry : Entry
  /-- The entries behind the header. -/
  messages : List Entry
  deriving DecidableEq, Repr

namespace Document

/-- All entries, the header first. -/
def entries (document : Document) : List Entry := document.headerEntry :: document.messages

/-! ### Reading -/

/-- The catalog with the given entries, of which the first has to be a header. -/
def ofEntries (options : ReadOptions) : List Entry → Except CatalogError Document
  | [] => .error (.documentStructure 1 .missingHeader)
  | headerEntry :: messages =>
    if headerEntry.isHeader then
      (Header.parse options headerEntry.value).map fun header => { header, headerEntry, messages }
    else .error (.documentStructure 1 .missingHeader)

/-- The mark that may stand at the start of a text and is no part of it. -/
def byteOrderMark : Char := '\ufeff'

/-- The texts of the lines of a catalog: a byte order mark in front of the first one is dropped. -/
def lineTexts (text : Text) : List Text :=
  match Text.lines text with
  | [] => []
  | first :: rest => Text.dropMark byteOrderMark first :: rest

/-- Reads the text of a catalog. -/
def parse (options : ReadOptions) (text : Text) : Except CatalogError Document := do
  let entries ← Assembly.entries (lineTexts text)
  ofEntries options entries

/-! ### Writing -/

/-- The lines of all entries. -/
def lines (document : Document) : List Line := document.entries.flatMap Entry.lines

/-- Writes a catalog: the text of each line as it was read, with a line feed behind it. -/
def write (document : Document) : Text := Text.unlines (document.lines.map Line.raw)

/-! ### Looking up messages -/

/-- The first message with this key. -/
def get? (document : Document) (key : EntryKey) : Option Entry :=
  document.messages.find? fun entry => entry.key = key

/-- The first message with this context and id. -/
def find? (document : Document) (context : Option Text) (id : Text) : Option Entry :=
  document.get? { context, id }

end Document

end MessageCatalog
