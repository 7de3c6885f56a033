import MessageCatalog.Encoding.Decoder

/-!
# UTF-8

A character takes one to four bytes. The first byte says how many follow and, together with the
bounds on the second, keeps out overlong forms, surrogates and numbers beyond U+10FFFF.

A malformed stretch is as long as possible while it is still the start of a well-formed sequence,
and at least one byte: the byte that breaks a sequence off starts a new one.
-/

namespace MessageCatalog.Utf8

/-- An unfinished sequence. -/
structure Partial where
  /-- The bits of the character read so far. -/
  value : Nat
  /-- How many bytes are still to come, besides the next one. -/
  more : Nat
  /-- The least value that the next byte may have. -/
  low : UInt8 := 0x80
  /-- The greatest value that the next byte may have. -/
  high : UInt8 := 0xBF
  deriving DecidableEq, Repr

/-- What a byte gives that starts a sequence. -/
def lead (byte : UInt8) : List (Option Char) × Option Partial :=
  let n := byte.toNat
  if n < 0x80 then ([some (Char.ofNat n)], none)
  else if 0xC2 ≤ n ∧ n ≤ 0xDF then ([], some { value := n % 0x20, more := 0 })
  else if n = 0xE0 then ([], some { value := n % 0x10, more := 1, low := 0xA0 })
  else if n = 0xED then ([], some { value := n % 0x10, more := 1, high := 0x9F })
  else if 0xE1 ≤ n ∧ n ≤ 0xEF then ([], some { value := n % 0x10, more := 1 })
  else if n = 0xF0 then ([], some { value := n % 8, more := 2, low := 0x90 })
  else if n = 0xF4 then ([], some { value := n % 8, more := 2, high := 0x8F })
  else if 0xF1 ≤ n ∧ n ≤ 0xF3 then ([], some { value := n % 8, more := 2 })
  else ([none], none)

/-- What the next byte gives. -/
def step : Option Partial → UInt8 → List (Option Char) × Option Partial
  | none, byte => lead byte
  | some sequence, byte =>
    if sequence.low ≤ byte ∧ byte ≤ sequence.high then
      let value := 0x40 * sequence.value + byte.toNat % 0x40
      match sequence.more with
      | 0 => ([some (Char.ofNat value)], none)
      | more + 1 => ([], some { value, more })
    else
      let (output, memory) := lead byte
      (none :: output, memory)

/-- The decoder of UTF-8. -/
def decoder : Decoder (Option Partial) where
  start := none
  step := step
  finish
    | none => []
    | some _ => [none]

/-- The bytes of a character. -/
def encodeChar (c : Char) : Bytes :=
  let n := c.toNat
  if n < 0x80 then [UInt8.ofNat n]
  else if n < 0x800 then [UInt8.ofNat (0xC0 + n / 0x40), UInt8.ofNat (0x80 + n % 0x40)]
  else if n < 0x10000 then
    [UInt8.ofNat (0xE0 + n / 0x1000), UInt8.ofNat (0x80 + n / 0x40 % 0x40),
      UInt8.ofNat (0x80 + n % 0x40)]
  else
    [UInt8.ofNat (0xF0 + n / 0x40000), UInt8.ofNat (0x80 + n / 0x1000 % 0x40),
      UInt8.ofNat (0x80 + n / 0x40 % 0x40), UInt8.ofNat (0x80 + n % 0x40)]

/-- The bytes of a text. -/
def encode (text : Text) : Bytes := text.flatMap encodeChar

end MessageCatalog.Utf8
