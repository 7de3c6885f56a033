import MessageCatalog.Document.Basic

/-!
# Catalogs as bytes

Bytes come from memory, from a stream or from a file, and each source has its own rule for them:
bytes in memory may start with a byte order mark and have to be well-formed; a stream holds UTF-8;
and a file that starts with a byte order mark is read whatever its bytes are, with the replacement
character for what is malformed, while one without a mark has to be UTF-8.
-/

namespace MessageCatalog.Document

/-- Where the bytes of a catalog come from. -/
inductive Source where
  /-- Bytes in memory. -/
  | memory
  /-- A stream that is read line by line. -/
  | stream
  /-- A file. -/
  | file
  deriving DecidableEq, Repr

/-- The text of UTF-8 in a stream. -/
def streamText (bytes : Bytes) : Except CatalogError Text :=
  match Encoding.utf8.strict? bytes with
  | some text => .ok text
  | none => .error .malformedStream

/-- The text of bytes in memory, which may start with a byte order mark. -/
def memoryText (bytes : Bytes) : Except CatalogError Text :=
  let (encoding, content) := (Encoding.marked? bytes).getD (.utf8, bytes)
  match encoding.strict? content with
  | some text => .ok text
  | none => .error (.malformedBytes encoding)

/-- How many bytes a file has to have for a byte order mark to be looked for. The window belongs to
the general decoder through which files are read, which is taken as it is: catalogs have no such
rule, and bytes in memory are searched for a mark however few they are. -/
def markWindow : Nat := 3

/-- The text of a file, which may start with a byte order mark, as the decoder of files gives it. -/
def fileText (bytes : Bytes) : Except CatalogError Text :=
  if bytes.length < markWindow then streamText bytes
  else match Encoding.marked? bytes with
    | some (encoding, content) => .ok (encoding.repaired content)
    | none => streamText bytes

/-- The text of bytes from the given source. -/
def sourceText : Source → Bytes → Except CatalogError Text
  | .memory, bytes => memoryText bytes
  | .stream, bytes => streamText bytes
  | .file, bytes => fileText bytes

/-- Reads a catalog from bytes. -/
def load (source : Source) (bytes : Bytes) : Except CatalogError Document := do
  let text ← sourceText source bytes
  parse {} text

/-- The bytes of a catalog as it is stored, in UTF-8 without a byte order mark. -/
def store (document : Document) : Bytes := Encoding.utf8.encode document.write

end MessageCatalog.Document
