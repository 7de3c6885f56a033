import MessageCatalog.Language.Tag
import MessageCatalog.Text.Blank

/-!
# Locale names

Catalogs name their language in the way of a locale: `ll`, `ll_CC`, `ll@modifier` or
`ll_CC@modifier`, where the modifier names a script, such as `sr_RS@latin`. Some hold a language tag
instead. `Locale.normalize?` turns both into a language tag.
-/

namespace MessageCatalog

/-- The name of a locale. -/
structure Locale where
  /-- The language. -/
  language : Text
  /-- The country, which stands behind an underscore. -/
  country : Option Text := none
  /-- The modifier, which stands behind an at sign. -/
  modifier : Option Text := none
  deriving DecidableEq, Repr

namespace Locale

open Text

/-- Takes the longest stretch of characters that satisfy `allowed` behind the character `mark`, if
the text starts with that character; the stretch must not be empty. -/
def takeMarked? (mark : Char) (allowed : Char → Bool) (text : Text) :
    Option (Option Text × Text) :=
  match after? mark text with
  | none => some (none, text)
  | some rest =>
    if rest.takeWhile allowed = [] then none
    else some (some (rest.takeWhile allowed), rest.dropWhile allowed)

/-- Reads the name of a locale. -/
def parse? (text : Text) : Option Locale := do
  let language := text.takeWhile Char.isAlpha
  guard (language ≠ [])
  let (country, rest) ← takeMarked? '_' Char.isAlphanum (text.dropWhile Char.isAlpha)
  let (modifier, rest) ← takeMarked? '@' Char.isAlpha rest
  guard (rest = [])
  return { language, country, modifier }

/-- The modifiers that name a script, with the script's subtag. -/
def scripts : List (Text × Text) :=
  [("latin".toList, "Latn".toList),
   ("cyrillic".toList, "Cyrl".toList),
   ("adlam".toList, "Adlm".toList),
   ("javanese".toList, "Java".toList),
   ("arabic".toList, "Arab".toList),
   ("devanagari".toList, "Deva".toList),
   ("mongolian".toList, "Mong".toList),
   ("bangla".toList, "Beng".toList),
   ("gurmukhi".toList, "Guru".toList),
   ("olchiki".toList, "Olck".toList),
   ("tifinagh".toList, "Tfng".toList),
   ("vai".toList, "Vaii".toList),
   ("simplified".toList, "Hans".toList),
   ("traditional".toList, "Hant".toList)]

/-- The subtag of the script that a modifier names, in any mixture of upper and lower case. -/
def script? (modifier : Text) : Option Text := scripts.lookup (lower modifier)

/-- The subtags that a locale stands for: the language, the script that the modifier names, and the
country. -/
def subtags? (locale : Locale) : Option (List Text) :=
  match locale.modifier with
  | none => some (locale.language :: locale.country.toList)
  | some modifier =>
    (script? modifier).map fun script => locale.language :: script :: locale.country.toList

/-- The language tag that a catalog's language value stands for, once the blanks around it are
removed: that of a locale if it is the name of one, and else the value itself as a tag. -/
def normalize? (raw : Text) : Option LanguageTag :=
  match parse? (trim raw) with
  | some locale => locale.subtags?.bind LanguageTag.ofSubtags?
  | none => LanguageTag.parse? (trim raw)

end Locale

end MessageCatalog
