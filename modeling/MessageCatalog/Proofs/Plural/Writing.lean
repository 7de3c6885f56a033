import MessageCatalog.Plural.RuleSet
import MessageCatalog.Proofs.Plural.Operands

/-!
# What plural rules see of how a number is written

Numbers such as `-1.50` and `1.5` have the same absolute value. A rule can tell them apart by the
operands `v` and `f` only: the other operands have the same value for both, although `n` keeps the
zeros at the end (`alike_value`), and a modulus or a comparison with the ends of a range does not
see zeros at the end either (`Alike.modulo`, `Alike.compare`). The ends may be any numbers. The sign
is seen by no rule at all.

`Condition.holds_eq_of_abs_eq` puts this together for conditions and for sets of rules.
-/

namespace MessageCatalog

/-! ### Numbers that differ in zeros at the end -/

namespace Decimal

/-- The value of the fraction. -/
def fractionValue (x : Decimal) : ℚ := x.fraction / 10 ^ x.digits

/-- The numbers differ at most in zeros at the end of the fraction and in the sign of a zero. -/
structure Alike (x y : Decimal) : Prop where
  /-- Both are below zero, or none is. -/
  sign : x.isNegative = y.isNegative
  /-- The integer parts are the same. -/
  integer : x.integer = y.integer
  /-- The fractions have the same value. -/
  fraction : x.fractionValue = y.fractionValue

variable {x y z : Decimal}

theorem Alike.of_eq (h : x = y) : x.Alike y := h ▸ ⟨rfl, rfl, rfl⟩

theorem cast_fractionAt {places : Nat} (h : x.digits ≤ places) :
    (x.fractionAt places : ℚ) = x.fractionValue * 10 ^ places := by
  have hsplit : (10 : ℚ) ^ places = 10 ^ x.digits * 10 ^ (places - x.digits) := by
    rw [← pow_add, Nat.add_sub_cancel' h]
  rw [fractionAt, fractionValue, power_eq, hsplit]
  push_cast
  field_simp

/-- Fractions are compared by their values, also those that are not below one. -/
theorem compareMagnitude_eq_then (x y : Decimal) :
    x.compareMagnitude y
      = (Ord.compare x.integer y.integer).then (cmp x.fractionValue y.fractionValue) := by
  have hpos : (0 : ℚ) < 10 ^ max x.digits y.digits := by positivity
  have hfraction : Ord.compare (x.fractionAt (max x.digits y.digits))
      (y.fractionAt (max x.digits y.digits)) = cmp x.fractionValue y.fractionValue := by
    rw [← cmp_eq_compare, ← (Nat.strictMono_cast (α := ℚ)).cmp_map_eq,
      cast_fractionAt (le_max_left _ _), cast_fractionAt (le_max_right _ _),
      cmp_mul_pos_right hpos]
  rw [← hfraction]
  rfl

theorem Alike.compareMagnitude {x' y' : Decimal} (hx : x.Alike x') (hy : y.Alike y') :
    x.compareMagnitude y = x'.compareMagnitude y' := by
  rw [compareMagnitude_eq_then, compareMagnitude_eq_then, hx.integer, hy.integer, hx.fraction,
    hy.fraction]

/-- Numbers that are alike compare alike. -/
theorem Alike.compare {x' y' : Decimal} (hx : x.Alike x') (hy : y.Alike y') :
    x.compare y = x'.compare y' := by
  rw [Decimal.compare, Decimal.compare, hx.sign, hy.sign, hx.compareMagnitude hy,
    hy.compareMagnitude hx]

theorem isNegative_of_unsigned (h : x.negative = false) : x.isNegative = false := by
  rw [isNegative, h, Bool.false_and]

theorem Alike.modulo (h : x.Alike y) (m : Nat) : (x.modulo m).Alike (y.modulo m) where
  sign := (isNegative_of_unsigned rfl).trans (isNegative_of_unsigned rfl).symm
  integer := congrArg (· % m) h.integer
  fraction := h.fraction

end Decimal

theorem Bounds.contains_of_alike {x y : Decimal} (h : x.Alike y) (bounds : Bounds) :
    bounds.contains x = bounds.contains y := by
  rw [contains, contains, Decimal.atMost, Decimal.atMost, (Decimal.Alike.of_eq rfl).compare h,
    Decimal.atMost, Decimal.atMost, h.compare (Decimal.Alike.of_eq rfl)]

/-! ### Operands -/

namespace Operand

open Decimal

variable {x y : Decimal}

/-- No operand depends on the sign. -/
theorem value_abs (operand : Operand) (x : Decimal) : operand.value x.abs = operand.value x := by
  cases operand <;> rfl

/-- Whether the operand tells how a number is written and not only what its value is. -/
def seesWriting : Operand → Bool
  | v | f => true
  | n | i | w | t | c | e => false

/-- Absolute values that are the same have operands that are alike, apart from those that tell how
the number is written. -/
theorem alike_value (hx : x.WellFormed) (hy : y.WellFormed) (h : |x.toRat| = |y.toRat|)
    {operand : Operand} (hoperand : operand.seesWriting = false) :
    (operand.value x).Alike (operand.value y) := by
  rw [abs_toRat, abs_toRat] at h
  obtain ⟨hi, hw, ht⟩ := (magnitude_eq_iff hx hy).1 h
  cases operand with
  | n =>
    refine ⟨(isNegative_of_unsigned rfl).trans (isNegative_of_unsigned rfl).symm, hi, ?_⟩
    exact (fract_magnitude hx).symm.trans ((congrArg Int.fract h).trans (fract_magnitude hy))
  | i => exact .of_eq (congrArg Decimal.ofNat hi)
  | w => exact .of_eq (congrArg Decimal.ofNat hw)
  | t => exact .of_eq (congrArg Decimal.ofNat ht)
  | c | e => exact .of_eq rfl
  | v | f => cases hoperand

end Operand

/-! ### Relations and conditions -/

theorem Relation.holds_of_alike {relation : Relation} {x y : Decimal}
    (h : (relation.operand.value x).Alike (relation.operand.value y)) :
    relation.holds x = relation.holds y := by
  have hsubject : (relation.subject x).Alike (relation.subject y) := by
    rw [subject, subject]
    cases relation.modulus with
    | none => exact h
    | some m => exact h.modulo m
  simp only [holds, Bounds.contains_of_alike hsubject]

namespace Condition

mutual

/-- The operands that the relations of a condition test. -/
def operands : Condition → List Operand
  | always => []
  | anyOf conditions => operandsOf conditions
  | allOf conditions => operandsOf conditions
  | relation r => [r.operand]

/-- The operands that the relations of the conditions test. -/
def operandsOf : List Condition → List Operand
  | [] => []
  | condition :: conditions => condition.operands ++ operandsOf conditions

end

/-- No relation of the condition tests how a number is written. -/
def TestsValueOnly (condition : Condition) : Prop :=
  ∀ operand ∈ condition.operands, operand.seesWriting = false

instance (condition : Condition) : Decidable condition.TestsValueOnly :=
  inferInstanceAs (Decidable (∀ operand ∈ condition.operands, operand.seesWriting = false))

variable {x y : Decimal}

mutual

/-- A condition holds for numbers alike if the operands that it tests are alike. -/
theorem holds_of_alike : ∀ condition : Condition,
    (∀ operand ∈ condition.operands, (operand.value x).Alike (operand.value y)) →
      condition.holds x = condition.holds y
  | always, _ => rfl
  | anyOf conditions, h => (holdsAmong_of_alike conditions h).1
  | allOf conditions, h => (holdsAmong_of_alike conditions h).2
  | relation r, h => Relation.holds_of_alike (h r.operand List.mem_cons_self)

/-- The same for conditions of which one or each has to hold. -/
theorem holdsAmong_of_alike : ∀ conditions : List Condition,
    (∀ operand ∈ operandsOf conditions, (operand.value x).Alike (operand.value y)) →
      someHolds x conditions = someHolds y conditions ∧
        allHold x conditions = allHold y conditions
  | [], _ => ⟨rfl, rfl⟩
  | condition :: conditions, h => by
    have hfirst := holds_of_alike condition fun operand hmem =>
      h operand (List.mem_append_left _ hmem)
    obtain ⟨hsome, hall⟩ := holdsAmong_of_alike conditions fun operand hmem =>
      h operand (List.mem_append_right _ hmem)
    rw [someHolds, someHolds, allHold, allHold, hfirst, hsome, hall]
    exact ⟨rfl, rfl⟩

end

theorem holds_of_testsValueOnly (hx : x.WellFormed) (hy : y.WellFormed)
    (h : |x.toRat| = |y.toRat|) {condition : Condition} (hcondition : condition.TestsValueOnly) :
    condition.holds x = condition.holds y :=
  holds_of_alike condition fun operand hmem =>
    Operand.alike_value hx hy h (hcondition operand hmem)

/-- No condition sees the sign. -/
theorem holds_abs (condition : Condition) (x : Decimal) :
    condition.holds x.abs = condition.holds x :=
  holds_of_alike condition fun operand _ => .of_eq (operand.value_abs x)

end Condition

/-! ### Sets of rules -/

/-- A set of rules chooses the same category for numbers for which the same rules hold. -/
theorem RuleSet.category_congr {rules : RuleSet} {x y : Decimal}
    (h : ∀ category rule, rules.get? category = some rule → rule.holds x = rule.holds y) :
    rules.category x = rules.category y := by
  have hselects : rules.selects x = rules.selects y := by
    funext category
    rw [selects, selects]
    cases hrule : rules.get? category with
    | none => rfl
    | some rule => exact h category rule hrule
  rw [RuleSet.category, RuleSet.category, hselects]

namespace Condition

/-- **Only `v` and `f` see how a number is written, and nothing sees its sign.** Numbers with the
same absolute value satisfy the same conditions, as far as these test neither `v` nor `f`, and a set
of rules of such conditions chooses the same category for them. Without the sign, a number satisfies
the same conditions of any kind, and every set of rules chooses the same category for it. -/
theorem holds_eq_of_abs_eq :
    (∀ x y : Decimal, x.WellFormed → y.WellFormed → |x.toRat| = |y.toRat| →
      (∀ condition : Condition, condition.TestsValueOnly →
        condition.holds x = condition.holds y) ∧
      ∀ rules : RuleSet,
        (∀ category rule, rules.get? category = some rule → rule.condition.TestsValueOnly) →
          rules.category x = rules.category y) ∧
    ∀ x : Decimal, (∀ condition : Condition, condition.holds x = condition.holds x.abs) ∧
      ∀ rules : RuleSet, rules.category x = rules.category x.abs := by
  refine ⟨fun x y hx hy h => ⟨fun condition hcondition => ?_, fun rules hrules => ?_⟩,
    fun x => ⟨fun condition => (condition.holds_abs x).symm, fun rules => ?_⟩⟩
  · exact holds_of_testsValueOnly hx hy h hcondition
  · exact RuleSet.category_congr fun category rule hrule =>
      holds_of_testsValueOnly hx hy h (hrules category rule hrule)
  · exact RuleSet.category_congr fun _ rule _ => (rule.condition.holds_abs x).symm

/-- The rules `n % 10 = 2.50..4 and t != 0` for `few` and `w = 0 or i = 1, 22` for `many`. -/
def valueRules : RuleSet where
  few := some ⟨[], .allOf [.relation ⟨.n, some 10, .equal, [⟨⟨false, 2, 50, 2⟩, .ofNat 4⟩]⟩,
    .relation ⟨.t, none, .notEqual, [⟨.ofNat 0, .ofNat 0⟩]⟩]⟩
  many := some ⟨[], .anyOf [.relation ⟨.w, none, .equal, [⟨.ofNat 0, .ofNat 0⟩]⟩,
    .relation ⟨.i, none, .equal, [⟨.ofNat 1, .ofNat 1⟩, ⟨.ofNat 22, .ofNat 22⟩]⟩]⟩

/-- For the numbers `-22.500` and `22.5` these rules choose `few`, while a rule for `v` tells the
two apart. -/
theorem holds_eq_of_abs_eq_trailingZeros :
    |(⟨true, 22, 500, 3⟩ : Decimal).toRat| = |(⟨false, 22, 5, 1⟩ : Decimal).toRat| ∧
      valueRules.category ⟨true, 22, 500, 3⟩ = valueRules.category ⟨false, 22, 5, 1⟩ ∧
      valueRules.category ⟨false, 22, 5, 1⟩ = .few ∧
      holds ⟨true, 22, 500, 3⟩ (.relation ⟨.v, none, .equal, [⟨.ofNat 3, .ofNat 3⟩]⟩) = true ∧
      holds ⟨false, 22, 5, 1⟩ (.relation ⟨.v, none, .equal, [⟨.ofNat 3, .ofNat 3⟩]⟩) = false := by
  have hvalue : |(⟨true, 22, 500, 3⟩ : Decimal).toRat| = |(⟨false, 22, 5, 1⟩ : Decimal).toRat| := by
    rw [Decimal.abs_toRat, Decimal.abs_toRat, Operand.magnitude_eq_iff (by decide) (by decide)]
    decide
  have hrules : ∀ category rule, valueRules.get? category = some rule →
      rule.condition.TestsValueOnly := by
    rintro (_ | _) rule ⟨⟩ <;> decide
  obtain ⟨-, hcategory⟩ := holds_eq_of_abs_eq.1 _ _ (by decide) (by decide) hvalue
  exact ⟨hvalue, hcategory valueRules hrules, by decide, by decide, by decide⟩

end Condition

end MessageCatalog
