import MessageCatalog.Encoding.Utf8
import MessageCatalog.Encoding.Utf16

/-!
# Encodings of a catalog

A catalog is stored as UTF-8 or as UTF-16. A byte order mark at the start of the bytes tells which;
without one they are UTF-8.
-/

namespace MessageCatalog

/-- How a text is stored as bytes. -/
inductive Encoding where
  /-- UTF-8. -/
  | utf8
  /-- UTF-16 in one of its two byte orders. -/
  | utf16 (order : ByteOrder)
  deriving DecidableEq, Repr

namespace Encoding

/-- The name of an encoding. -/
def name : Encoding → String
  | utf8 => "UTF-8"
  | utf16 .little => "UTF-16LE"
  | utf16 .big => "UTF-16BE"

/-- Decodes bytes, with `none` for each malformed stretch. -/
def decode : Encoding → Bytes → List (Option Char)
  | utf8, bytes => Utf8.decoder.run bytes
  | utf16 order, bytes => (Utf16.decoder order).run bytes

/-- The bytes of a text. -/
def encode : Encoding → Text → Bytes
  | utf8, text => Utf8.encode text
  | utf16 order, text => Utf16.encode order text

/-- The byte order mark of an encoding, which is U+FEFF encoded. -/
def mark : Encoding → Bytes
  | utf8 => [0xEF, 0xBB, 0xBF]
  | utf16 .little => [0xFF, 0xFE]
  | utf16 .big => [0xFE, 0xFF]

/-- The encoding that the byte order mark in front of the bytes tells, and the bytes behind it. -/
def marked? : Bytes → Option (Encoding × Bytes)
  | 0xEF :: 0xBB :: 0xBF :: bytes => some (utf8, bytes)
  | 0xFF :: 0xFE :: bytes => some (utf16 .little, bytes)
  | 0xFE :: 0xFF :: bytes => some (utf16 .big, bytes)
  | _ => none

/-- The text of bytes in an encoding, if nothing in them is malformed. -/
def strict? (encoding : Encoding) (bytes : Bytes) : Option Text :=
  strictText? (encoding.decode bytes)

/-- The text of bytes in an encoding, with the replacement character for each malformed stretch. -/
def repaired (encoding : Encoding) (bytes : Bytes) : Text := repairedText (encoding.decode bytes)

end Encoding

end MessageCatalog
