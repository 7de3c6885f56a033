import MessageCatalog.Text.Basic

/-!
# Tokens of plural rules

A plural rule such as `i % 10 = 2..4 and v = 0 @integer 2~4, 22~24, …` consists of relations and a
clause of samples. Both are read as tokens; some kinds occur in only one of the two.
-/

namespace MessageCatalog

/-- What kind of token a piece of a rule is. -/
inductive TokenKind where
  /-- The letter of an operand. -/
  | operand
  /-- The word `and`. -/
  | and
  /-- The word `or`. -/
  | or
  /-- The sign `=`. -/
  | equals
  /-- The sign `!=`. -/
  | notEquals
  /-- The sign `%`. -/
  | modulus
  /-- A comma. -/
  | comma
  /-- The sign between the ends of a range. -/
  | range
  /-- A number. -/
  | number
  /-- The word `@integer`, before samples that are integers. -/
  | integerMark
  /-- The word `@decimal`, before samples with a fraction. -/
  | decimalMark
  /-- The sign that more samples could be listed. -/
  | ellipsis
  deriving DecidableEq, Repr

/-- How a kind of token is called in messages. -/
def TokenKind.description : TokenKind → String
  | operand => "operand"
  | and => "`and`"
  | or => "`or`"
  | equals => "`=`"
  | notEquals => "`!=`"
  | modulus => "`%`"
  | comma => "`,`"
  | range => "range"
  | number => "number"
  | integerMark => "`@integer`"
  | decimalMark => "`@decimal`"
  | ellipsis => "ellipsis"

/-- A piece of a rule: its kind and its text. -/
structure Token where
  /-- What kind of token it is. -/
  kind : TokenKind
  /-- The text as it stands in the rule. -/
  text : Text
  deriving DecidableEq, Repr

end MessageCatalog
