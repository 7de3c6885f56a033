import MessageCatalog.Plural.Operand

/-!
# Conditions on numbers

A plural rule is a condition on a number, put together from relations by `and` and `or`. A relation
compares one operand, possibly reduced by a modulus, with a list of ranges.
-/

namespace MessageCatalog

/-- The numbers from `low` to `high`, both included. -/
structure Bounds where
  /-- The least number. -/
  low : Decimal
  /-- The greatest number. -/
  high : Decimal
  deriving DecidableEq, Repr

/-- Whether the value of a number lies within the bounds. -/
def Bounds.contains (bounds : Bounds) (x : Decimal) : Bool :=
  bounds.low.atMost x && x.atMost bounds.high

/-- How a relation compares its operand with its ranges. -/
inductive Comparison where
  /-- The operand lies within some range. -/
  | equal
  /-- The operand lies outside of some range. -/
  | notEqual
  deriving DecidableEq, Repr

/-- A comparison of an operand with a list of ranges. -/
structure Relation where
  /-- The operand that is compared. -/
  operand : Operand
  /-- The number that reduces the operand's integer part, if there is one. -/
  modulus : Option Nat
  /-- How the operand is compared. -/
  comparison : Comparison
  /-- The ranges it is compared with. -/
  bounds : List Bounds
  deriving DecidableEq, Repr

namespace Relation

/-- The number that the relation compares with its ranges. -/
def subject (relation : Relation) (x : Decimal) : Decimal :=
  match relation.modulus with
  | some m => (relation.operand.value x).modulo m
  | none => relation.operand.value x

/-- Whether the relation holds for a number: some range contains the operand, or, for `notEqual`,
some range does not. -/
def holds (relation : Relation) (x : Decimal) : Bool :=
  relation.bounds.any fun bounds =>
    match relation.comparison with
    | .equal => bounds.contains (relation.subject x)
    | .notEqual => !bounds.contains (relation.subject x)

end Relation

/-- A condition on a number. -/
inductive Condition where
  /-- Every number satisfies it. -/
  | always
  /-- One of the conditions holds. -/
  | anyOf (conditions : List Condition)
  /-- Each of the conditions holds. -/
  | allOf (conditions : List Condition)
  /-- The relation holds. -/
  | relation (relation : Relation)
  deriving Repr

namespace Condition

mutual

/-- Whether a condition holds for a number. -/
def holds (x : Decimal) : Condition → Bool
  | always => true
  | anyOf conditions => someHolds x conditions
  | allOf conditions => allHold x conditions
  | relation r => r.holds x

/-- Whether one of the conditions holds for a number. -/
def someHolds (x : Decimal) : List Condition → Bool
  | [] => false
  | condition :: conditions => condition.holds x || someHolds x conditions

/-- Whether each of the conditions holds for a number. -/
def allHold (x : Decimal) : List Condition → Bool
  | [] => true
  | condition :: conditions => condition.holds x && allHold x conditions

end

theorem someHolds_eq_any (x : Decimal) (conditions : List Condition) :
    someHolds x conditions = conditions.any (holds x) := by
  induction conditions with
  | nil => simp [someHolds]
  | cons condition conditions ih => simp [someHolds, ih]

theorem allHold_eq_all (x : Decimal) (conditions : List Condition) :
    allHold x conditions = conditions.all (holds x) := by
  induction conditions with
  | nil => simp [allHold]
  | cons condition conditions ih => simp [allHold, ih]

mutual

/-- Decides whether two conditions are the same tree. -/
def decEq : (a b : Condition) → Decidable (a = b)
  | always, always => isTrue rfl
  | anyOf as, anyOf bs =>
    match decEqList as bs with
    | isTrue h => isTrue (congrArg anyOf h)
    | isFalse h => isFalse fun heq => h (anyOf.inj heq)
  | allOf as, allOf bs =>
    match decEqList as bs with
    | isTrue h => isTrue (congrArg allOf h)
    | isFalse h => isFalse fun heq => h (allOf.inj heq)
  | relation r, relation s =>
    if h : r = s then isTrue (congrArg relation h) else isFalse fun heq => h (relation.inj heq)
  | always, anyOf _ | always, allOf _ | always, relation _
  | anyOf _, always | anyOf _, allOf _ | anyOf _, relation _
  | allOf _, always | allOf _, anyOf _ | allOf _, relation _
  | relation _, always | relation _, anyOf _ | relation _, allOf _ => isFalse nofun

/-- Decides whether two lists of conditions are the same. -/
def decEqList : (as bs : List Condition) → Decidable (as = bs)
  | [], [] => isTrue rfl
  | [], _ :: _ | _ :: _, [] => isFalse nofun
  | a :: as, b :: bs =>
    match decEq a b, decEqList as bs with
    | isTrue ha, isTrue has => isTrue (by rw [ha, has])
    | isFalse ha, _ => isFalse fun heq => ha (List.cons.inj heq).1
    | _, isFalse has => isFalse fun heq => has (List.cons.inj heq).2

end

instance : DecidableEq Condition := decEq

/-- The condition that one of the given ones holds; a single one stands for itself. -/
def either : List Condition → Condition
  | [condition] => condition
  | conditions => anyOf conditions

/-- The condition that each of the given ones holds; a single one stands for itself. -/
def both : List Condition → Condition
  | [condition] => condition
  | conditions => allOf conditions

end Condition

end MessageCatalog
