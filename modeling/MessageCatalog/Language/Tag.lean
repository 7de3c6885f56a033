import MessageCatalog.Text.Basic

/-!
# Language tags

A language tag names a language, and possibly a script, a region and variants of it. It is written
as subtags with hyphens between them, such as `sr-Latn-RS`. Each kind of subtag is recognised by its
length and its characters, and each has a standard case.
-/

namespace MessageCatalog

/-- A language tag, each subtag in its standard case. -/
structure LanguageTag where
  /-- The language, in lower case. -/
  language : Text
  /-- The script, with its first letter in upper case. -/
  script : Option Text := none
  /-- The region, in upper case. -/
  region : Option Text := none
  /-- The variants, in lower case, in ascending order and without repetitions. -/
  variants : List Text := []
  deriving DecidableEq, Repr

namespace LanguageTag

open Text

/-! ### Kinds of subtags -/

/-- Whether a character separates subtags. -/
def isSeparator (c : Char) : Bool := c = '-' || c = '_'

/-- Whether a character is an ASCII character other than NUL. -/
def isPlain (c : Char) : Bool := 0 < c.toNat && c.toNat < 0x80

/-- A language in its standard case: two, three or five to eight letters. -/
def language? (subtag : Text) : Option Text :=
  let n := subtag.length
  if (n = 2 || n = 3 || (5 ≤ n && n ≤ 8)) && subtag.all Char.isAlpha then some (lower subtag)
  else none

/-- A script in its standard case: four letters. -/
def script? (subtag : Text) : Option Text :=
  if subtag.length = 4 && subtag.all Char.isAlpha then
    some (upper (subtag.take 1) ++ lower (subtag.drop 1))
  else none

/-- A region in its standard case: two letters or three digits. -/
def region? (subtag : Text) : Option Text :=
  if (subtag.length = 2 && subtag.all Char.isAlpha)
      || (subtag.length = 3 && subtag.all Char.isDigit) then
    some (upper subtag)
  else none

/-- Whether the characters of a variant fit its length: five to eight letters or digits, or four
characters of which the first is a digit or the others are letters or digits. -/
def isVariantText (subtag : Text) : Bool :=
  (5 ≤ subtag.length && subtag.length ≤ 8 && subtag.all Char.isAlphanum)
    || (subtag.length = 4
      && ((subtag.take 1).all Char.isDigit || (subtag.drop 1).all Char.isAlphanum))

/-- A variant in its standard case. -/
def variant? (subtag : Text) : Option Text :=
  if subtag.all isPlain && isVariantText subtag then some (lower subtag) else none

/-! ### Reading and writing -/

/-- Adds a variant to an ascending list without repetitions. -/
def insertVariant (variant : Text) : List Text → List Text
  | [] => [variant]
  | first :: rest =>
    if variant < first then variant :: first :: rest
    else if variant = first then first :: rest
    else first :: insertVariant variant rest

/-- The variants in ascending order and without repetitions. -/
def sortVariants (variants : List Text) : List Text := variants.foldr insertVariant []

/-- Takes the first subtag with `read?` if it fits, and leaves the others. -/
def takeOptional (read? : Text → Option Text) : List Text → Option Text × List Text
  | [] => (none, [])
  | subtag :: rest =>
    match read? subtag with
    | some value => (some value, rest)
    | none => (none, subtag :: rest)

/-- The tag with these subtags: a language, then possibly a script, possibly a region, and any
number of variants. -/
def ofSubtags? : List Text → Option LanguageTag
  | [] => none
  | first :: rest => do
    let language ← language? first
    let (script, rest) := takeOptional script? rest
    let (region, rest) := takeOptional region? rest
    let variants ← rest.mapM variant?
    return { language, script, region, variants := sortVariants variants }

/-- Reads a tag; an underscore may stand for a hyphen. -/
def parse? (text : Text) : Option LanguageTag := ofSubtags? (splitWhere isSeparator text)

/-- Writes a tag. -/
def render (tag : LanguageTag) : Text :=
  join ['-'] (tag.language :: tag.script.toList ++ tag.region.toList ++ tag.variants)

end LanguageTag

end MessageCatalog
