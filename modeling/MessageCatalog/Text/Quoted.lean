import MessageCatalog.Text.Printable

/-!
# Quoted texts

The form in which a text is shown to a person inside a longer text: between double quotes, on one
line, with every character that has no shape of its own written by its code point.
-/

namespace MessageCatalog.Text

/-- The hexadecimal digits of a number, in lower case and without leading zeros. -/
def hexDigits (n : Nat) : Text := Nat.toDigits 16 n

/-- How a character is shown between double quotes. -/
def shownChar (c : Char) : Text :=
  match c with
  | '\x00' => ['\\', '0']
  | '\t' => ['\\', 't']
  | '\r' => ['\\', 'r']
  | '\n' => ['\\', 'n']
  | '"' => ['\\', '"']
  | '\\' => ['\\', '\\']
  | c => if isPrintable c then [c] else ['\\', 'u', '\x7b'] ++ hexDigits c.toNat ++ ['\x7d']

/-- The text between double quotes, with its unprintable characters written out. -/
def quoted (text : Text) : Text := '"' :: text.flatMap shownChar ++ ['"']

end MessageCatalog.Text
