import MessageCatalog.Error

/-!
# From lines to entries

The lines of a catalog are divided into entries in one pass. A line with content tells by its
keyword where it belongs: `msgctxt` starts an entry, `msgid` starts one unless it completes a
`msgctxt`, and any other keyword or string continues the current entry.

A line without content is held back until the next line with content shows what it belongs to. If
that line continues the entry, so does what was held back. If it starts an entry, the lines held
back up to the first blank one still belong to the entry that ends, and the rest opens the new one.
A `msgid` that completes a `msgctxt` takes its place directly, and what was held back stays so.
-/

namespace MessageCatalog

/-- Whether a line introduces a context. -/
def Line.isContext (line : Line) : Bool := line.logical.hasKeyword Field.context.name

/-- Whether a line introduces an id. -/
def Line.isId (line : Line) : Bool := line.logical.hasKeyword Field.id.name

/-- The state of the division behind the header's first line. -/
structure Body where
  /-- The entries that are complete. -/
  finished : List Entry := []
  /-- The number of the first line that belongs to no complete entry. -/
  firstLine : Nat := 1
  /-- The lines of the current entry. -/
  current : List Line
  /-- The lines without content that are held back. -/
  pending : List Line := []
  /-- The number of the line with a context that waits for its id. -/
  openContext : Option Nat := none
  deriving DecidableEq, Repr

namespace Body

/-- Adds a line to the current entry. -/
def append (body : Body) (line : Line) : Body := { body with current := body.current ++ [line] }

/-- Adds the lines that are held back to the current entry. -/
def flush (body : Body) : Body :=
  { body with current := body.current ++ body.pending, pending := [] }

/-- Completes the current entry. -/
def finishEntry (body : Body) : Except CatalogError Body :=
  match Entry.ofLines body.current with
  | .error issue => .error (.entryStructure body.firstLine issue)
  | .ok entry =>
    if entry.key ∈ body.finished.map Entry.key then
      .error (.documentStructure body.firstLine (.duplicateEntry entry.key))
    else .ok
      { body with
        finished := body.finished ++ [entry]
        firstLine := body.firstLine + body.current.length
        current := [] }

/-- Completes the current entry with the lines held back up to the first blank one, and opens the
next with the others. -/
def startEntry (body : Body) : Except CatalogError Body :=
  let isText := fun line : Line => !line.isBlank
  let ended := { body with current := body.current ++ body.pending.takeWhile isText }
  ended.finishEntry.map fun next =>
    { next with current := body.pending.dropWhile isText, pending := [] }

/-- Takes the next line, which has the given number. -/
def push (body : Body) (number : Nat) (line : Line) : Except CatalogError Body :=
  if !line.hasContent then .ok { body with pending := body.pending ++ [line] }
  else if line.isContext then
    match body.openContext with
    | some _ => .error (.documentStructure number .consecutiveContexts)
    | none => body.startEntry.map fun next => { next.append line with openContext := some number }
  else if line.isId then
    match body.openContext with
    | some _ => .ok { body.append line with openContext := none }
    | none => body.startEntry.map fun next => next.append line
  else .ok (body.flush.append line)

/-- The entries when there are no more lines. -/
def finish (body : Body) : Except CatalogError (List Entry) :=
  match body.openContext with
  | some number => .error (.documentStructure number .danglingContext)
  | none => body.flush.finishEntry.map finished

end Body

/-- The state of the division. -/
inductive Assembly where
  /-- The header has not come yet; these lines without content have. -/
  | preamble (pending : List Line)
  /-- The header has come. -/
  | body (state : Body)
  deriving DecidableEq, Repr

namespace Assembly

/-- What is wrong with the first line with content, if it is not the first line of a header. -/
def headerIssue? (line : Line) : Option DocumentIssue :=
  if line.isContext then some .contextualHeader
  else if !line.isId then some .missingHeader
  else if line.isObsolete then some .obsoleteHeader
  else if line.logical.value.any fun payload => payload.raw ≠ [] then
    some (.headerIdNotBlank line.raw)
  else none

/-- Takes the next line, which has the given number. -/
def push (assembly : Assembly) (number : Nat) (line : Line) : Except CatalogError Assembly :=
  match assembly with
  | body state => (state.push number line).map body
  | preamble pending =>
    if !line.hasContent then .ok (preamble (pending ++ [line]))
    else match headerIssue? line with
      | some issue => .error (.documentStructure number issue)
      | none => .ok (body { current := pending ++ [line] })

/-- The entries when there are no more lines; `last` is the number of the last one. -/
def finish (assembly : Assembly) (last : Nat) : Except CatalogError (List Entry) :=
  match assembly with
  | preamble _ => .error (.documentStructure (max last 1) .missingHeader)
  | body state => state.finish

/-- Reads the remaining texts as lines and takes them one by one; `done` lines have been taken. -/
def run (assembly : Assembly) (done : Nat) : List Text → Except CatalogError (List Entry)
  | [] => assembly.finish done
  | text :: texts =>
    match Line.parse text with
    | .error error => .error (.malformedLine (done + 1) error)
    | .ok line =>
      match assembly.push (done + 1) line with
      | .error error => .error error
      | .ok next => next.run (done + 1) texts

/-- Divides the lines of a catalog, given by their texts, into entries. -/
def entries (texts : List Text) : Except CatalogError (List Entry) := (preamble []).run 0 texts

end Assembly

end MessageCatalog
