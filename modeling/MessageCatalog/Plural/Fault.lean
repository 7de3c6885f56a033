import MessageCatalog.Plural.Decimal
import MessageCatalog.Plural.Token

/-!
# Faults in plural rules

Why a text is not a plural rule, and why a rule is refused although it can be read.
-/

namespace MessageCatalog

/-- Why a text is not a plural rule or not a clause of samples. -/
inductive RuleFault where
  /-- A character can start no token. -/
  | unexpectedCharacter (c : Char)
  /-- A word is neither an operand nor `and` nor `or`. -/
  | unknownWord (word : Text)
  /-- A token of one of these kinds has to follow; another text or the end of the rule does. -/
  | expected (kinds : List TokenKind) (found : Option Text)
  /-- Behind the rule stands one more token. -/
  | leftover (text : Text)
  /-- A token that should name an operand does not. -/
  | unknownOperand (name : Text)
  /-- A token that should be a number is none. -/
  | invalidNumber (text : Text)
  /-- A number cannot be used as a modulus. -/
  | invalidModulus (modulus : Decimal)
  /-- The letter of an exponent does not stand between a number and a digit. -/
  | misplacedExponent (letter : Char)
  /-- A word behind `@` is neither `integer` nor `decimal`. -/
  | unknownMark
  /-- A sample is not a number. -/
  | invalidSample
  /-- A range has no number in front. -/
  | rangeWithoutLower
  /-- A range has no number behind. -/
  | rangeWithoutUpper
  /-- A range has more samples than are allowed. -/
  | rangeTooLong (low high : Decimal) (limit : Nat)
  /-- A range leaves the numbers that can be represented. -/
  | rangeOutOfBounds (low high : Decimal)
  deriving DecidableEq, Repr

namespace RuleFault

/-- The two ends of a range as written. -/
def rangeText (low high : Decimal) : String :=
  String.ofList low.render ++ "~" ++ String.ofList high.render

/-- The wording of a fault. -/
def message : RuleFault → String
  | unexpectedCharacter c => "unexpected character `" ++ c.toString ++ "`"
  | unknownWord word => "unknown identifier `" ++ String.ofList word ++ "`"
  | expected kinds found =>
    "expected " ++ " or ".intercalate (kinds.map TokenKind.description) ++ ", found "
      ++ match found with
        | some text => "`" ++ String.ofList text ++ "`"
        | none => "end of rule"
  | leftover text => "unexpected leftover token `" ++ String.ofList text ++ "`"
  | unknownOperand name => "unknown operand `" ++ String.ofList name ++ "`"
  | invalidNumber text => Decimal.invalidMessage text
  | invalidModulus modulus =>
    "modulus `" ++ String.ofList modulus.render ++ "` is not a positive integer"
  | misplacedExponent letter => "misplaced exponent marker `" ++ letter.toString ++ "`"
  | unknownMark => "unknown sample marker"
  | invalidSample => "invalid sample number"
  | rangeWithoutLower => "range without a lower bound"
  | rangeWithoutUpper => "range without an upper bound"
  | rangeTooLong low high limit =>
    "sample range " ++ rangeText low high ++ s!" expands to more than {limit} samples"
  | rangeOutOfBounds low high => "sample range " ++ rangeText low high ++ " out of bounds"

end RuleFault

/-- Why a plural rule is refused. -/
inductive RuleError where
  /-- This text, a rule or the sample clause of one, cannot be read. -/
  | malformed (rule : Text) (fault : RuleFault)
  /-- The rule does not hold for these of its samples. -/
  | failedSamples (rule : Text) (samples : List Decimal)
  deriving DecidableEq, Repr

/-- The wording of an error. -/
def RuleError.message : RuleError → String
  | malformed rule fault => "invalid plural rule `" ++ String.ofList rule ++ "`: " ++ fault.message
  | failedSamples rule samples =>
    "plural rule `" ++ String.ofList rule ++ "` failed sample validation; invalid samples: "
      ++ String.ofList (Text.join ", ".toList (samples.map Decimal.render))

end MessageCatalog
