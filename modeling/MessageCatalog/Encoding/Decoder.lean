import MessageCatalog.Text.Basic

/-!
# Decoding bytes

A decoder turns bytes into characters one byte at a time. Malformed input does not stop it: it gives
`none` in the place of each malformed stretch, so that the caller can refuse the input or put
U+FFFD, the replacement character, there.
-/

namespace MessageCatalog

/-- The bytes of a file. -/
abbrev Bytes := List UInt8

/-- A decoder with memory of type `σ`. -/
structure Decoder (σ : Type) where
  /-- The memory at the start. -/
  start : σ
  /-- What a byte completes, and the memory after it. -/
  step : σ → UInt8 → List (Option Char) × σ
  /-- What is still to be given at the end of the input. -/
  finish : σ → List (Option Char)

namespace Decoder

variable {σ : Type}

/-- Decodes bytes, starting with the given memory. -/
def runFrom (decoder : Decoder σ) (memory : σ) : Bytes → List (Option Char)
  | [] => decoder.finish memory
  | byte :: bytes =>
    let (output, memory) := decoder.step memory byte
    output ++ decoder.runFrom memory bytes

/-- Decodes bytes. -/
def run (decoder : Decoder σ) (bytes : Bytes) : List (Option Char) :=
  decoder.runFrom decoder.start bytes

end Decoder

/-- The replacement character, which stands for a malformed stretch of bytes. -/
def replacement : Char := '\ufffd'

/-- The text of decoded input in which nothing is malformed. -/
def strictText? : List (Option Char) → Option Text
  | [] => some []
  | none :: _ => none
  | some c :: decoded => (strictText? decoded).map (c :: ·)

/-- The text of decoded input, with the replacement character for each malformed stretch. -/
def repairedText (decoded : List (Option Char)) : Text := decoded.map fun c => c.getD replacement

end MessageCatalog
