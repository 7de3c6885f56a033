import MessageCatalog.Error
import MessageCatalog.Language.Locale
import MessageCatalog.Plural.RuleSet
import MessageCatalog.Text.Folding

/-!
# Catalog headers

The header of a catalog is the text that stands for the empty id: lines of the form `Name: value`.
Two kinds of them have a meaning here. `Language:` names the language of the catalog, and
`X-PluralRules-Category:` gives the plural rule of a category. Names are matched without regard to
case.
-/

namespace MessageCatalog

/-- How a catalog is read. -/
structure ReadOptions where
  /-- The language to assume if the header names none. -/
  languageHint : Option Text := none
  /-- Whether plural rules have to hold for their samples. -/
  checkSamples : Bool := true
  deriving DecidableEq, Repr

/-- What the header of a catalog says. -/
structure Header where
  /-- The language of the catalog. -/
  language : LanguageTag
  /-- The language as the header names it. -/
  rawLanguage : Option Text
  /-- The names and values of the header, in their order. -/
  fields : List (Text × Text)
  /-- The plural rules of the catalog. -/
  pluralRules : RuleSet
  deriving DecidableEq, Repr

namespace Header

open Text

/-- The name of the line that names the language. -/
def languageName : Text := "language:".toList

/-- The start of the name of a line that gives a plural rule. -/
def pluralRuleName : Text := "x-pluralrules-".toList

/-- The pieces of a header's text between line feeds. -/
def rows (text : Text) : List Text := splitWhere (· = '\n') text

/-- The language that the header names in its first line for it, unless that is blank. -/
def rawLanguage? (text : Text) : Option Text :=
  ((rows text).findSome? (afterName? languageName)).map trim |>.filter (· ≠ [])

/-- The name of a category and the text of its rule, if a line of the header gives one. -/
def pluralRule? (row : Text) : Option (Text × Text) := do
  let rest ← afterName? pluralRuleName row
  let category := rest.takeWhile foldsToLetter
  guard (category ≠ [])
  let rule ← after? ':' (rest.dropWhile foldsToLetter)
  return (category, trimEnd (rule.dropWhile fun c => c = ' ' || c = '\t'))

/-- The plural rules that the header gives, in their order. Those for an unknown category are left
out. -/
def ruleTexts (text : Text) : List (Category × Text) :=
  ((rows text).filterMap pluralRule?).filterMap fun (name, rule) =>
    (Category.parse? name).map fun category => (category, rule)

/-- The names and values of a header's text: in each line, what stands before and behind the first
colon, trimmed. A line without a name is left out. -/
def fieldsOf (text : Text) : List (Text × Text) :=
  ((lines text).filterMap (cutAt? ':')).map (fun (name, value) => (trim name, trim value))
    |>.filter fun (name, _) => name ≠ []

/-- The language tag of a language as named. -/
def languageOf (raw : Text) : Except CatalogError LanguageTag :=
  match Locale.normalize? raw with
  | some tag => .ok tag
  | none => .error (.unrecognizedTag (trim raw))

/-- Reads the text of a header. -/
def parse (options : ReadOptions) (text : Text) : Except CatalogError Header := do
  let rawLanguage := rawLanguage? text
  let language ← match rawLanguage.or options.languageHint with
    | some raw => languageOf raw
    | none => .error .missingLanguage
  let pluralRules ← (RuleSet.compile (ruleTexts text) options.checkSamples).mapError .pluralRule
  return { language, rawLanguage, fields := fieldsOf text, pluralRules }

/-- The value of the first field with this name, in any mixture of upper and lower case. -/
def field? (header : Header) (name : Text) : Option Text :=
  (header.fields.find? fun (key, _) => sameLetters key name).map Prod.snd

/-- The plural category of a number. -/
def category (header : Header) (x : Decimal) : Category := header.pluralRules.category x

end Header

end MessageCatalog
