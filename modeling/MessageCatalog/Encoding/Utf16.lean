import MessageCatalog.Encoding.Decoder

/-!
# UTF-16

A character takes one unit of two bytes, or two such units: a high and a low surrogate. A surrogate
without its partner is malformed, and so is whatever is unfinished at the end of the input.
-/

namespace MessageCatalog

/-- Which byte of a unit comes first. -/
inductive ByteOrder where
  /-- The less significant byte comes first. -/
  | little
  /-- The more significant byte comes first. -/
  | big
  deriving DecidableEq, Repr

namespace Utf16

/-- What a decoder remembers between two bytes. -/
structure Memory where
  /-- The first byte of an unfinished unit. -/
  half : Option UInt8 := none
  /-- A high surrogate that waits for its partner. -/
  surrogate : Option Nat := none
  deriving DecidableEq, Repr

/-- Whether a unit is a high surrogate. -/
def isHigh (unit : Nat) : Bool := 0xD800 ≤ unit && unit < 0xDC00

/-- Whether a unit is a low surrogate. -/
def isLow (unit : Nat) : Bool := 0xDC00 ≤ unit && unit < 0xE000

/-- What a unit gives when no surrogate waits. -/
def lead (unit : Nat) : List (Option Char) × Memory :=
  if isHigh unit then ([], { surrogate := some unit })
  else if isLow unit then ([none], {})
  else ([some (Char.ofNat unit)], {})

/-- What a unit gives, behind the surrogate that waits. -/
def stepUnit : Option Nat → Nat → List (Option Char) × Memory
  | none, unit => lead unit
  | some high, unit =>
    if isLow unit then
      ([some (Char.ofNat (0x10000 + 0x400 * (high - 0xD800) + (unit - 0xDC00)))], {})
    else
      let (output, memory) := lead unit
      (none :: output, memory)

/-- The unit of two bytes. -/
def unit (order : ByteOrder) (first second : UInt8) : Nat :=
  match order with
  | .little => first.toNat + 0x100 * second.toNat
  | .big => 0x100 * first.toNat + second.toNat

/-- What the next byte gives. -/
def step (order : ByteOrder) (memory : Memory) (byte : UInt8) : List (Option Char) × Memory :=
  match memory.half with
  | none => ([], { memory with half := some byte })
  | some first => stepUnit memory.surrogate (unit order first byte)

/-- The decoder of UTF-16. -/
def decoder (order : ByteOrder) : Decoder Memory where
  start := {}
  step := step order
  finish memory := if memory = {} then [] else [none]

/-- The bytes of a unit. -/
def encodeUnit (order : ByteOrder) (unit : Nat) : Bytes :=
  match order with
  | .little => [UInt8.ofNat (unit % 0x100), UInt8.ofNat (unit / 0x100)]
  | .big => [UInt8.ofNat (unit / 0x100), UInt8.ofNat (unit % 0x100)]

/-- The units of a character. -/
def units (c : Char) : List Nat :=
  let n := c.toNat
  if n < 0x10000 then [n]
  else [0xD800 + (n - 0x10000) / 0x400, 0xDC00 + (n - 0x10000) % 0x400]

/-- The bytes of a text. -/
def encode (order : ByteOrder) (text : Text) : Bytes :=
  text.flatMap fun c => (units c).flatMap (encodeUnit order)

end Utf16

end MessageCatalog
