import MessageCatalog.Text.Numeral

/-!
# Escape sequences

Between the quotes of a catalog string stands a raw text, in which a backslash introduces an escape
sequence. `escape` writes a value as raw text and `unescape` reads a raw text as the value it stands
for.

A sequence is a named escape (`\n`, `\"`, …), `\x` with exactly two hexadecimal digits, or a
backslash with exactly three octal digits, which may also name a character beyond U+00FF (`\777` is
U+01FF). Writing uses named escapes where there is one, `\x` for the remaining control characters
below U+0020, and nothing else, so every other character stands for itself.
-/

namespace MessageCatalog

/-- Why a raw text stands for no value. -/
inductive EscapeFault where
  /-- The text ends with a lone backslash. -/
  | dangling
  /-- The letters `\x` are not followed by two hexadecimal digits. -/
  | hexDigits
  /-- A backslash and an octal digit are not followed by two more octal digits. -/
  | octalDigits
  /-- No escape sequence starts with a backslash and this character. -/
  | unknown (code : Char)
  deriving DecidableEq, Repr

/-- The wording of a fault. -/
def EscapeFault.message : EscapeFault → String
  | dangling => "dangling backslash"
  | hexDigits => "`\\x` must be followed by two hex digits"
  | octalDigits => "octal escapes must have three digits"
  | unknown code => "invalid escape sequence `\\" ++ code.toString ++ "`"

namespace Escape

/-- The character that a backslash and this letter stand for. -/
def named? : Char → Option Char
  | 'a' => some '\x07'
  | 'b' => some '\x08'
  | 'e' => some '\x1b'
  | 'f' => some '\x0c'
  | 'n' => some '\n'
  | 'r' => some '\r'
  | 't' => some '\t'
  | 'v' => some '\x0b'
  | '\\' => some '\\'
  | '"' => some '"'
  | '\'' => some '\''
  | '?' => some '?'
  | _ => none

/-- The letter that, behind a backslash, is written for a character. -/
def letter? : Char → Option Char
  | '\x07' => some 'a'
  | '\x08' => some 'b'
  | '\x1b' => some 'e'
  | '\x0c' => some 'f'
  | '\n' => some 'n'
  | '\r' => some 'r'
  | '\t' => some 't'
  | '\x0b' => some 'v'
  | '\\' => some '\\'
  | '"' => some '"'
  | _ => none

/-- How one character is written in a raw text. -/
def encode (c : Char) : Text :=
  match letter? c with
  | some letter => ['\\', letter]
  | none =>
    if c.toNat < 0x20 then
      ['\\', 'x', Nat.digitChar (c.toNat / 16), Nat.digitChar (c.toNat % 16)]
    else [c]

end Escape

open Escape Text

/-- Writes a value as raw text. -/
def escape (value : Text) : Text := value.flatMap encode

/-- Reads a raw text as the value it stands for. -/
def unescape : Text → Except EscapeFault Text
  | [] => .ok []
  | '\\' :: [] => .error .dangling
  | '\\' :: 'x' :: rest =>
    match rest with
    | high :: low :: rest =>
      match hexValue? high, hexValue? low with
      | some h, some l => (unescape rest).map (Char.ofNat (16 * h + l) :: ·)
      | _, _ => .error .hexDigits
    | _ => .error .hexDigits
  | '\\' :: code :: rest =>
    match named? code, octalValue? code with
    | some c, _ => (unescape rest).map (c :: ·)
    | none, none => .error (.unknown code)
    | none, some high =>
      match rest with
      | middle :: low :: rest =>
        match octalValue? middle, octalValue? low with
        | some m, some l => (unescape rest).map (Char.ofNat (64 * high + 8 * m + l) :: ·)
        | _, _ => .error .octalDigits
      | _ => .error .octalDigits
  | c :: rest => (unescape rest).map (c :: ·)

end MessageCatalog
