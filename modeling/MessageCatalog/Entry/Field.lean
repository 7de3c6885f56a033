import MessageCatalog.Line.Basic

/-!
# Fields of an entry

Five keywords carry the content of an entry: `msgctxt`, `msgid`, `msgid_plural`, `msgstr`, and
`msgstr` with an index for each plural form. A field's text may be spread over several lines: the
line with the keyword and the lines behind it that hold only a string. These lines form a *block*,
and the field's text is the concatenation of their strings.

All of this looks at the logical lines, so an obsolete entry has the same fields as an active one.
-/

namespace MessageCatalog

/-- A piece of content of an entry. -/
inductive Field where
  /-- The context that tells messages with the same id apart. -/
  | context
  /-- The id of the message. -/
  | id
  /-- The id used for more than one thing. -/
  | pluralId
  /-- The translated text. -/
  | value
  /-- The translated text for the plural form with this index. -/
  | plural (index : Nat)
  deriving DecidableEq, Repr

namespace Field

/-- The word that introduces a field. -/
def name : Field → Text
  | context => ['m', 's', 'g', 'c', 't', 'x', 't']
  | id => ['m', 's', 'g', 'i', 'd']
  | pluralId => ['m', 's', 'g', 'i', 'd', '_', 'p', 'l', 'u', 'r', 'a', 'l']
  | value => ['m', 's', 'g', 's', 't', 'r']
  | plural _ => ['m', 's', 'g', 's', 't', 'r']

/-- The index that stands behind the word. -/
def index? : Field → Option Nat
  | plural index => some index
  | _ => none

/-- The keyword that introduces a field. -/
def keyword (field : Field) : Keyword := { name := field.name, index := field.index? }

end Field

/-- Different fields have different keywords. -/
theorem Field.keyword_injective {f g : Field} (h : f.keyword = g.keyword) : f = g := by
  cases f <;> cases g <;> simp_all [Field.keyword, Field.name, Field.index?]

/-- The field that a keyword introduces, if it is one of an entry. -/
def Keyword.field? (keyword : Keyword) : Option Field :=
  ([Field.context, .id, .pluralId, .value] ++ keyword.index.toList.map Field.plural).find?
    fun field => field.keyword = keyword

/-- A keyword introduces a field exactly if it is the field's keyword. -/
theorem Keyword.field?_eq_some_iff {keyword : Keyword} {field : Field} :
    keyword.field? = some field ↔ keyword = field.keyword := by
  constructor
  · intro h
    simpa [eq_comm] using List.find?_some h
  · rintro rfl
    have hmem : field ∈ [Field.context, .id, .pluralId, .value]
        ++ field.keyword.index.toList.map Field.plural := by
      cases field <;> simp [Field.keyword, Field.index?]
    cases hfind : field.keyword.field? with
    | none =>
      have := List.find?_eq_none.1 hfind field hmem
      simp at this
    | some found =>
      have := List.find?_some hfind
      rw [Field.keyword_injective (of_decide_eq_true this)]

/-- Whether the logical line has a keyword or a string. -/
def Line.hasContent (line : Line) : Bool := line.logical.parts.hasContent

/-- The value of the string on the logical line; empty if there is none. -/
def Line.text (line : Line) : Text := (line.logical.value.map Payload.value).getD []

/-- A keyword with the concatenated strings of its block. -/
structure Block where
  /-- The keyword that introduces the block. -/
  keyword : Keyword
  /-- The strings of the block, one after another. -/
  text : Text
  deriving DecidableEq, Repr

namespace Block

/-- Splits lines into blocks. The first component is the text of the lines before the first
block. -/
def gather : List Line → Text × List Block
  | [] => ([], [])
  | line :: lines =>
    let (text, blocks) := gather lines
    match line.logical.keyword with
    | some keyword => ([], { keyword, text := line.text ++ text } :: blocks)
    | none => (line.text ++ text, blocks)

/-- The blocks of the lines. -/
def ofLines (lines : List Line) : List Block := (gather lines).2

/-- The field that the block holds, if its keyword is one of an entry. -/
def field? (block : Block) : Option Field := block.keyword.field?

/-- The text of a field, taken from the first block that holds it. -/
def textOf? (blocks : List Block) (field : Field) : Option Text :=
  (blocks.find? fun block => block.field? = some field).map text

end Block

end MessageCatalog
