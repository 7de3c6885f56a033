import MessageCatalog.Plural.Category
import MessageCatalog.Plural.Grammar
import MessageCatalog.Plural.Sample

/-!
# Plural rules

A `Rule` is a condition together with the text that states it. A `RuleSet` holds at most one rule
for each category but `other`; the category of a number is the first one whose rule holds for it,
and `other` if none does.
-/

namespace MessageCatalog

/-- A plural rule. -/
structure Rule where
  /-- The text of the rule, the sample clause included. -/
  source : Text
  /-- The condition that the text states. -/
  condition : Condition
  deriving DecidableEq, Repr

namespace Rule

/-- Reads a rule as its condition and its sample clause. -/
def read (text : Text) : Except RuleError (Condition × Text) :=
  match Token.ofRule text with
  | .error fault => .error (.malformed text fault)
  | .ok (tokens, clause) =>
    match Condition.ofTokens tokens with
    | .error fault => .error (.malformed text fault)
    | .ok condition => .ok (condition, clause)

/-- Makes a rule of its text; the empty text is no rule. If `checked` is set, the rule has to hold
for its samples. -/
def compile (text : Text) (checked : Bool) : Except RuleError (Option Rule) :=
  match text with
  | [] => .ok none
  | text => do
    let (condition, clause) ← read text
    if checked then condition.checkSamples clause text
    return some { source := text, condition }

/-- Whether a rule holds for a number. -/
def holds (rule : Rule) (x : Decimal) : Bool := rule.condition.holds x

end Rule

/-- The plural rules of a language. -/
structure RuleSet where
  /-- The rule for `zero`. -/
  zero : Option Rule := none
  /-- The rule for `one`. -/
  one : Option Rule := none
  /-- The rule for `two`. -/
  two : Option Rule := none
  /-- The rule for `few`. -/
  few : Option Rule := none
  /-- The rule for `many`. -/
  many : Option Rule := none
  deriving DecidableEq, Repr

namespace RuleSet

/-- The rule for a category; there is none for `other`. -/
def get? (rules : RuleSet) : Category → Option Rule
  | .zero => rules.zero
  | .one => rules.one
  | .two => rules.two
  | .few => rules.few
  | .many => rules.many
  | .other => none

/-- Replaces the rule for a category; for `other` nothing changes. -/
def set (rules : RuleSet) (category : Category) (rule : Option Rule) : RuleSet :=
  match category with
  | .zero => { rules with zero := rule }
  | .one => { rules with one := rule }
  | .two => { rules with two := rule }
  | .few => { rules with few := rule }
  | .many => { rules with many := rule }
  | .other => rules

/-- A replaced rule is found, and the rules for the other categories stay. -/
theorem get?_set (rules : RuleSet) (category asked : Category) (rule : Option Rule) :
    (rules.set category rule).get? asked
      = if category = asked ∧ category ≠ .other then rule else rules.get? asked := by
  cases category <;> cases asked <;> rfl

/-- Makes a set of categories and the texts of their rules; a later text for a category replaces an
earlier one. -/
def compile (texts : List (Category × Text)) (checked : Bool) : Except RuleError RuleSet :=
  texts.foldlM (fun rules (category, text) => do
    let rule ← Rule.compile text checked
    return rules.set category rule) {}

/-- How many categories have a rule. -/
def size (rules : RuleSet) : Nat := (Category.all.filterMap rules.get?).length

/-- Whether no category has a rule. -/
def isEmpty (rules : RuleSet) : Bool := rules.size = 0

/-- Whether there is a rule for the category and it holds for a number. -/
def selects (rules : RuleSet) (x : Decimal) (category : Category) : Bool :=
  (rules.get? category).any fun rule => rule.holds x

/-- The category of a number. -/
def category (rules : RuleSet) (x : Decimal) : Category :=
  (Category.all.find? (rules.selects x)).getD .other

/-! ### Changing a set -/

/-- A change of a set of rules. -/
inductive Edit where
  /-- Makes a rule of a text and puts it in the place of the one for a category. -/
  | set (category : Category) (text : Text) (checked : Bool)
  /-- Removes the rule for a category. -/
  | clear (category : Category)
  /-- Replaces the whole set. -/
  | replace (texts : List (Category × Text)) (checked : Bool)
  deriving DecidableEq, Repr

/-- The set after a change. -/
def edit (rules : RuleSet) : Edit → Except RuleError RuleSet
  | .set category text checked => (Rule.compile text checked).map (rules.set category)
  | .clear category => .ok (rules.set category none)
  | .replace texts checked => compile texts checked

/-- The set after a change, which is the set itself if the change fails. -/
def attempt (rules : RuleSet) (change : Edit) : RuleSet :=
  match rules.edit change with
  | .ok changed => changed
  | .error _ => rules

/-- The set after a sequence of changes, those that fail left out. -/
def history (changes : List Edit) : RuleSet := changes.foldl attempt {}

end RuleSet

end MessageCatalog
