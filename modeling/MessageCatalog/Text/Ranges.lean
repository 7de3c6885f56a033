import MessageCatalog.Text.Basic

/-!
# Sets of characters given by ranges

A Unicode property is data: an ascending list of ranges of code points, both ends included.
-/

namespace MessageCatalog.Text

/-- An ascending list of ranges of code points; the first and the last of each belong to it. -/
abbrev Ranges := List (Nat × Nat)

/-- Whether a code point lies in one of the ranges. -/
def Ranges.contains (ranges : Ranges) (point : Nat) : Bool :=
  ranges.any fun (low, high) => low ≤ point && point ≤ high

end MessageCatalog.Text
