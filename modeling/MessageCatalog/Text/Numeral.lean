import MessageCatalog.Text.Basic

/-!
# Numerals

Decimal numerals as texts, and the values of single hexadecimal and octal digits. Reading and
writing are core's `Nat.ofDigitChars` and `Nat.toDigits`, so a written number reads back.
-/

namespace MessageCatalog.Text

/-- The least number that does not fit a machine word of 64 bits. -/
def wordLimit : Nat := 0x10000000000000000

/-- Whether the text holds ASCII digits only. -/
def allDigits (text : Text) : Bool := text.all Char.isDigit

/-- The number that a text of decimal digits denotes; the empty text denotes zero. -/
def decimalValue (digits : Text) : Nat := Nat.ofDigitChars 10 digits 0

/-- The decimal digits of a number, without leading zeros. -/
def decimal (n : Nat) : Text := Nat.toDigits 10 n

/-- The decimal digits of a number, with leading zeros up to the given width. -/
def decimalPadded (width n : Nat) : Text := (decimal n).leftpad width '0'

@[simp] theorem decimalValue_decimal (n : Nat) : decimalValue (decimal n) = n :=
  Nat.ofDigitChars_toDigits (by decide) (by decide)

/-- The value of a hexadecimal digit in either case. -/
def hexValue? (c : Char) : Option Nat :=
  if c.isDigit then some (c.toNat - '0'.toNat)
  else if 'a' ≤ c ∧ c ≤ 'f' then some (c.toNat - 'a'.toNat + 10)
  else if 'A' ≤ c ∧ c ≤ 'F' then some (c.toNat - 'A'.toNat + 10)
  else none

/-- The value of an octal digit. -/
def octalValue? (c : Char) : Option Nat :=
  if '0' ≤ c ∧ c ≤ '7' then some (c.toNat - '0'.toNat) else none

end MessageCatalog.Text
