import MessageCatalog.Text.Basic

/-!
# Blank characters

The blanks are the characters of the Unicode property White_Space: the tabulator and its
neighbours, the space, the no-break spaces, the spaces of various widths and the line and paragraph
separators. A zero-width space, a byte order mark and the information separators are no blanks.
-/

namespace MessageCatalog.Text

/-- Whether a character is a blank, that is, has the Unicode property White_Space. -/
def isBlank (c : Char) : Bool :=
  let n := c.toNat
  (0x9 ≤ n && n ≤ 0xD) || n = 0x20 || n = 0x85 || n = 0xA0 || n = 0x1680
    || (0x2000 ≤ n && n ≤ 0x200A) || n = 0x2028 || n = 0x2029 || n = 0x202F || n = 0x205F
    || n = 0x3000

/-- The text without the blanks in front. -/
def trimStart (text : Text) : Text := text.dropWhile isBlank

/-- The text without the blanks at its end. -/
def trimEnd (text : Text) : Text := (text.reverse.dropWhile isBlank).reverse

/-- The text without the blanks at both ends. -/
def trim (text : Text) : Text := trimEnd (trimStart text)

/-- The longest blank-free stretches of a text, in order. -/
def words (text : Text) : List Text := (splitWhere isBlank text).filter (· ≠ [])

theorem length_trimStart_le (text : Text) : (trimStart text).length ≤ text.length :=
  (List.dropWhile_suffix isBlank).length_le

/-- A character that ends a blank stretch is kept. -/
theorem trimStart_cons_of_not_blank {c : Char} (h : isBlank c = false) (rest : Text) :
    trimStart (c :: rest) = c :: rest := by
  simp [trimStart, h]

end MessageCatalog.Text
