import MessageCatalog.Text.Basic

/-!
# Plural categories

A language uses up to six forms of a noun phrase, depending on the number in front of it. The
categories are declared in the order in which their rules are tried.
-/

namespace MessageCatalog

/-- A plural category. -/
inductive Category where
  /-- The form for nothing. -/
  | zero
  /-- The form for one. -/
  | one
  /-- The form for two. -/
  | two
  /-- The form for a few. -/
  | few
  /-- The form for many. -/
  | many
  /-- The form for every number that no other category takes. -/
  | other
  deriving DecidableEq, Repr

namespace Category

/-- All categories, in their order. -/
def all : List Category := [zero, one, two, few, many, other]

/-- The name of a category. -/
def name : Category → Text
  | zero => ['z', 'e', 'r', 'o']
  | one => ['o', 'n', 'e']
  | two => ['t', 'w', 'o']
  | few => ['f', 'e', 'w']
  | many => ['m', 'a', 'n', 'y']
  | other => ['o', 't', 'h', 'e', 'r']

/-- The position of a category in the order. -/
def rank : Category → Nat
  | zero => 0
  | one => 1
  | two => 2
  | few => 3
  | many => 4
  | other => 5

/-- The category with exactly this name. -/
def ofName? (name : Text) : Option Category := all.find? fun category => category.name = name

/-- The category with this name in any mixture of upper and lower case. No character beyond ASCII
has one of the letters of these names as its other case. -/
def parse? (name : Text) : Option Category := ofName? (Text.lower name)

/-- The wording when a name is that of no category. -/
def unknownMessage (name : Text) : String := "Unknown plural category: " ++ String.ofList name

end Category

end MessageCatalog
