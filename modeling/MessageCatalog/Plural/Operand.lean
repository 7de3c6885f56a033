import MessageCatalog.Plural.Decimal

/-!
# Plural operands

A plural rule does not look at a number itself but at numbers derived from it, its *operands*, each
named by a letter. They tell the value from the way it is written: `1.50` has the operands
`n` = 1.50, `i` = 1, `v` = 2, `w` = 1, `f` = 50 and `t` = 5.
-/

namespace MessageCatalog

/-- What a plural rule can ask about a number. -/
inductive Operand where
  /-- The absolute value. -/
  | n
  /-- The integer part. -/
  | i
  /-- How many fraction digits are written. -/
  | v
  /-- How many fraction digits are left without the trailing zeros. -/
  | w
  /-- The number that the fraction digits form. -/
  | f
  /-- The number that the fraction digits without the trailing zeros form. -/
  | t
  /-- The exponent in compact notation, which is always zero here. -/
  | c
  /-- Another name for the exponent. -/
  | e
  deriving DecidableEq, Repr

namespace Operand

/-- All operands. -/
def all : List Operand := [n, i, v, w, f, t, c, e]

/-- The letter that names an operand. -/
def letter : Operand → Char
  | n => 'n'
  | i => 'i'
  | v => 'v'
  | w => 'w'
  | f => 'f'
  | t => 't'
  | c => 'c'
  | e => 'e'

/-- The operand that a text names. -/
def parse? (name : Text) : Option Operand := all.find? fun operand => [operand.letter] = name

/-- The wording when a text names no operand. -/
def unknownMessage (name : Text) : String := "unknown operand `" ++ String.ofList name ++ "`"

/-- The digits of a fraction without the trailing zeros: how many there are, and the number that
they form. -/
def significant : Nat → Nat → Nat × Nat
  | 0, fraction => (0, fraction)
  | digits + 1, fraction =>
    if fraction % 10 = 0 then significant digits (fraction / 10) else (digits + 1, fraction)

/-- The value of an operand for a number. -/
def value (x : Decimal) : Operand → Decimal
  | n => x.abs
  | i => Decimal.ofNat x.integer
  | v => Decimal.ofNat x.digits
  | w => Decimal.ofNat (significant x.digits x.fraction).1
  | f => Decimal.ofNat x.fraction
  | t => Decimal.ofNat (significant x.digits x.fraction).2
  | c => Decimal.ofNat 0
  | e => Decimal.ofNat 0

end Operand

end MessageCatalog
