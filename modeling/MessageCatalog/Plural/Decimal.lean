import MessageCatalog.Text.Numeral

/-!
# Decimal numbers as written

The plural form of a noun depends on how the number in front of it is written: `1` and `1.0` are the
same value and may take different forms. A `Decimal` is such a number: its sign, its integer part,
and its fraction as the visible digits, trailing zeros included.

Numbers are compared by value, so `compare` takes `1` and `1.0` for equal, while the equality of
`Decimal` tells them apart.
-/

namespace MessageCatalog

/-- A decimal number as written: the sign, the integer part, and the fraction as the number that its
digits form together with how many digits there are. -/
structure Decimal where
  /-- Whether the number is written with a minus sign; also `-0` is. -/
  negative : Bool := false
  /-- The integer part. -/
  integer : Nat
  /-- The number that the fraction digits form. -/
  fraction : Nat := 0
  /-- How many fraction digits are written. -/
  digits : Nat := 0
  deriving DecidableEq, Repr

namespace Decimal

open Text

/-- How many fraction digits a number may have. -/
def maxDigits : Nat := 18

/-- The power of ten with this exponent, which is how many units of a decimal place make one. -/
def power (exponent : Nat) : Nat := Nat.pow 10 exponent

/-! ### Reading and writing -/

/-- The number with this sign, these integer digits and these fraction digits. There has to be an
integer digit, the integer part has to fit a machine word, and the fraction has a limited number of
digits. -/
def ofDigits? (negative : Bool) (integer fraction : Text) : Option Decimal :=
  if integer ≠ [] ∧ allDigits integer ∧ allDigits fraction ∧ fraction.length ≤ maxDigits
      ∧ decimalValue integer < wordLimit then
    some { negative
           integer := decimalValue integer
           fraction := decimalValue fraction
           digits := fraction.length }
  else none

/-- Reads a number without its sign: digits, and possibly a point with at least one digit behind
it. -/
def parseUnsigned? (negative : Bool) (text : Text) : Option Decimal :=
  match cutAt? '.' text with
  | none => ofDigits? negative text []
  | some (_, []) => none
  | some (integer, fraction) => ofDigits? negative integer fraction

/-- Reads a number. -/
def parse? : Text → Option Decimal
  | '-' :: text => parseUnsigned? true text
  | text => parseUnsigned? false text

/-- Writes a number: the minus sign if it was written with one, the integer part without leading
zeros, and the fraction digits as they were. -/
def render (x : Decimal) : Text :=
  (if x.negative then ['-'] else []) ++ decimal x.integer
    ++ (if x.digits = 0 then [] else '.' :: decimalPadded x.digits x.fraction)

/-- The wording when a text is no number. -/
def invalidMessage (text : Text) : String := "invalid number `" ++ String.ofList text ++ "`"

/-- The number of a natural number. -/
def ofNat (n : Nat) : Decimal := { integer := n }

/-- The number of an integer. -/
def ofInt (i : Int) : Decimal := { negative := i < 0, integer := i.natAbs }

/-! ### Value -/

/-- Whether the value is zero. -/
def isZero (x : Decimal) : Bool := x.integer = 0 && x.fraction = 0

/-- Whether the value is below zero; `-0` is not. -/
def isNegative (x : Decimal) : Bool := x.negative && !x.isZero

/-- The number without its sign. -/
def abs (x : Decimal) : Decimal := { x with negative := false }

/-- The fraction, counted in units of the last of `digits` places. -/
def fractionAt (x : Decimal) (digits : Nat) : Nat := x.fraction * power (digits - x.digits)

/-- Compares two numbers regardless of their signs: the integer parts first, then the fractions with
as many places as the longer one has. -/
def compareMagnitude (x y : Decimal) : Ordering :=
  let digits := max x.digits y.digits
  (Ord.compare x.integer y.integer).then (Ord.compare (x.fractionAt digits) (y.fractionAt digits))

/-- Compares two numbers by their values. -/
def compare (x y : Decimal) : Ordering :=
  match x.isNegative, y.isNegative with
  | false, false => compareMagnitude x y
  | true, true => compareMagnitude y x
  | true, false => .lt
  | false, true => .gt

instance : Ord Decimal := ⟨Decimal.compare⟩

/-- Whether the value of `x` is at most that of `y`. -/
def atMost (x y : Decimal) : Bool := (x.compare y).isLE

/-- The numbers in ascending order of their values; numbers of the same value keep their order. -/
def sort (numbers : List Decimal) : List Decimal := numbers.mergeSort atMost

/-- The number without its sign and with its integer part reduced modulo `m`; the fraction stays. -/
def modulo (x : Decimal) (m : Nat) : Decimal := { x.abs with integer := x.integer % m }

/-! ### Numbers as multiples of a decimal place

A range of numbers is counted out in units of its last place, in machine arithmetic of 128 bits. -/

/-- The number, if it is below the limit. -/
def below? (limit n : Nat) : Option Nat := if n < limit then some n else none

/-- The least number that does not fit a double machine word of 128 bits. -/
def doubleWordLimit : Nat := 0x100000000000000000000000000000000

/-- The magnitude of `x` in units of the place `scale`, if `x` has at most so many places and all
intermediate results fit a double word. -/
def scaled? (x : Decimal) (scale : Nat) : Option Nat := do
  guard (x.digits ≤ scale)
  let unit ← below? doubleWordLimit (power scale)
  let shift ← below? doubleWordLimit (power (scale - x.digits))
  let fraction ← below? doubleWordLimit (x.fraction * shift)
  let integer ← below? doubleWordLimit (x.integer * unit)
  below? doubleWordLimit (integer + fraction)

/-- The number that has `units` units of the place `scale`, if its parts fit machine words. -/
def ofScaled? (units scale : Nat) : Option Decimal := do
  let unit ← below? doubleWordLimit (power scale)
  let integer ← below? wordLimit (units / unit)
  let fraction ← below? wordLimit (units % unit)
  return { integer, fraction, digits := scale }

end Decimal

end MessageCatalog
