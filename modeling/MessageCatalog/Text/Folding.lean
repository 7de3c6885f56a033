import MessageCatalog.Text.Basic

/-!
# Matching without regard to case

Names in a catalog's header are matched without regard to case, by the simple case folding of
Unicode. Apart from the ASCII capitals, only two characters fold to an ASCII letter: the long s and
the Kelvin sign.
-/

namespace MessageCatalog.Text

/-- The case folding of a character as far as it gives an ASCII letter; other characters are left as
they are. -/
def fold (c : Char) : Char :=
  if c = 'ſ' then 's'
  else if c = '\u212a' then 'k'
  else c.toLower

/-- Whether a character folds to one of the letters `a` to `z`. -/
def foldsToLetter (c : Char) : Bool := 'a' ≤ fold c && fold c ≤ 'z'

/-- What follows the folded name `name`, if the text starts with it. -/
def afterName? : Text → Text → Option Text
  | [], text => some text
  | c :: name, d :: text => if fold d = c then afterName? name text else none
  | _ :: _, [] => none

end MessageCatalog.Text
