import MessageCatalog.Proofs.Plural.Derivation
import MessageCatalog.Proofs.Plural.Spelling

/-!
# What a plural rule says about a number

A relation asks whether a rational number, the value of an operand, lies in a range. `Satisfied`
says this without regard to how numbers are written and compared, and `ofTokens_meaning` that the
condition made of a rule's tokens holds for a number exactly if one of the chains that the grammar
finds in them has all its relations satisfied. The chains are joined by `or` and the relations of a
chain by `and`, so `and` binds tighter.

With several ranges, `=` asks that one of them covers the operand, and `!=` that one of them does
not. So `n != 1, 2` is satisfied by every number.
-/

namespace MessageCatalog

/-! ### Relations -/

/-- Whether a value lies in the range. -/
def Bounds.Covers (bounds : Bounds) (a : ℚ) : Prop := bounds.low.toRat ≤ a ∧ a ≤ bounds.high.toRat

/-- Both ends of the range have fractions below one. -/
def Bounds.WellFormed (bounds : Bounds) : Prop := bounds.low.WellFormed ∧ bounds.high.WellFormed

theorem Bounds.contains_iff {bounds : Bounds} (hbounds : bounds.WellFormed) {a : Decimal}
    (ha : a.WellFormed) : bounds.contains a = true ↔ bounds.Covers a.toRat := by
  rw [contains, Bool.and_eq_true, Decimal.atMost_iff hbounds.1 ha, Decimal.atMost_iff ha hbounds.2]
  rfl

namespace Relation

/-- The value that a relation is about: that of its operand, and if there is a modulus, with the
integer part reduced by it and the fraction kept. -/
def amount (relation : Relation) (x : Decimal) : ℚ :=
  let a := (relation.operand.value x).toRat
  match relation.modulus with
  | none => a
  | some m => (⌊a⌋₊ % m : Nat) + Int.fract a

/-- Whether a relation is satisfied by a number. -/
def Satisfied (relation : Relation) (x : Decimal) : Prop :=
  match relation.comparison with
  | .equal => ∃ range ∈ relation.bounds, range.Covers (relation.amount x)
  | .notEqual => ∃ range ∈ relation.bounds, ¬range.Covers (relation.amount x)

variable {relation : Relation} {x : Decimal}

theorem wellFormed_subject (hx : x.WellFormed) : (relation.subject x).WellFormed := by
  have hvalue := Operand.wellFormed_value hx relation.operand
  rw [subject]
  split
  · exact hvalue.modulo _
  · exact hvalue

theorem toRat_subject (hx : x.WellFormed) : (relation.subject x).toRat = relation.amount x := by
  have hvalue := Operand.wellFormed_value hx relation.operand
  rw [subject, amount]
  cases relation.modulus with
  | none => rfl
  | some m => rw [Decimal.toRat_modulo hvalue, ← Operand.toRat_value]

/-- A relation holds for a number exactly if it is satisfied by it. -/
theorem holds_iff (hx : x.WellFormed) (hbounds : ∀ range ∈ relation.bounds, range.WellFormed) :
    relation.holds x = true ↔ relation.Satisfied x := by
  have hcontains : ∀ range ∈ relation.bounds,
      (range.contains (relation.subject x) = true ↔ range.Covers (relation.amount x)) := by
    intro range hmem
    rw [Bounds.contains_iff (hbounds range hmem) (wellFormed_subject hx), toRat_subject hx]
  rw [holds, Satisfied, List.any_eq_true]
  cases relation.comparison with
  | equal => exact exists_congr fun range => and_congr_right (hcontains range)
  | notEqual =>
    refine exists_congr fun range => and_congr_right fun hmem => ?_
    rw [Bool.not_eq_true', ← hcontains range hmem, Bool.not_eq_true]

end Relation

namespace Grammar

theorem IsNumber.wellFormed {tokens : List Token} {x : Decimal} (h : IsNumber tokens x) :
    x.WellFormed := by
  cases h with
  | token hparse => exact (Decimal.representable_of_parse? hparse).wellFormed

theorem IsRange.wellFormed {tokens : List Token} {bounds : Bounds} (h : IsRange tokens bounds) :
    bounds.WellFormed := by
  cases h with
  | single hx => exact ⟨hx.wellFormed, hx.wellFormed⟩
  | pair _ hlow hhigh => exact ⟨hlow.wellFormed, hhigh.wellFormed⟩

theorem IsRelation.wellFormed {tokens : List Token} {relation : Relation}
    (h : IsRelation tokens relation) : ∀ range ∈ relation.bounds, range.WellFormed := by
  cases h with
  | compare _ _ hbounds => exact hbounds.forall_mem fun _ _ hrange => hrange.wellFormed

/-- The ranges in a rule are made of numbers that were read. -/
theorem IsRule.wellFormed {tokens : List Token} {chains : List (List Relation)}
    (h : IsRule tokens chains) :
    ∀ chain ∈ chains, ∀ relation ∈ chain, ∀ range ∈ relation.bounds, range.WellFormed :=
  h.forall_mem fun _ _ hchain => hchain.forall_mem fun _ _ hrelation => hrelation.wellFormed

end Grammar

/-! ### Conditions -/

namespace Condition

open Grammar

theorem holds_either (x : Decimal) (conditions : List Condition) :
    (either conditions).holds x = conditions.any (holds x) := by
  rw [either.eq_def]
  split
  · simp
  · rw [holds, someHolds_eq_any]

theorem holds_both (x : Decimal) (conditions : List Condition) :
    (both conditions).holds x = conditions.all (holds x) := by
  rw [both.eq_def]
  split
  · simp
  · rw [holds, allHold_eq_all]

/-- The condition of chains holds if in one of them all relations do. -/
theorem holds_ofChains_iff (x : Decimal) (chains : List (List Relation)) :
    (ofChains chains).holds x = true ↔
      ∃ chain ∈ chains, ∀ relation ∈ chain, relation.holds x = true := by
  simp [ofChains, holds_either, holds_both, holds]

/-- **What compiled tokens mean.** Tokens state a condition exactly if there are none or the grammar
derives them. Then the condition holds for every number if there are none, and otherwise for those
that satisfy, in one of the chains, all relations. -/
theorem ofTokens_meaning (tokens : List Token) :
    ((∃ condition, ofTokens tokens = .ok condition) ↔
      tokens = [] ∨ ∃ chains, IsRule tokens chains) ∧
    ∀ condition, ofTokens tokens = .ok condition → ∀ x : Decimal, x.WellFormed →
      (tokens = [] → condition.holds x = true) ∧
      ∀ chains, IsRule tokens chains →
        (condition.holds x = true ↔
          ∃ chain ∈ chains, ∀ relation ∈ chain, relation.Satisfied x) := by
  refine ⟨⟨?_, ?_⟩, fun condition h x hx => ⟨?_, fun chains hchains => ?_⟩⟩
  · rintro ⟨condition, h⟩
    rcases ofTokens_eq_ok_iff.1 h with ⟨hnil, -⟩ | ⟨chains, hchains, -⟩
    · exact .inl hnil
    · exact .inr ⟨chains, hchains⟩
  · rintro (hnil | ⟨chains, hchains⟩)
    · exact ⟨.always, ofTokens_eq_ok_iff.2 (.inl ⟨hnil, rfl⟩)⟩
    · exact ⟨ofChains chains, ofTokens_eq_ok_iff.2 (.inr ⟨chains, hchains, rfl⟩)⟩
  · rintro rfl
    obtain rfl := Except.ok.inj h
    rfl
  · -- whichever derivation is taken, reading gives the condition of its chains
    have hcompiled := ofTokens_eq_ok_iff.2 (.inr ⟨chains, hchains, rfl⟩)
    obtain rfl := Except.ok.inj (h.symm.trans hcompiled)
    rw [holds_ofChains_iff]
    refine exists_congr fun chain => and_congr_right fun hchain => ?_
    refine forall₂_congr fun relation hrelation => ?_
    exact Relation.holds_iff hx (hchains.wellFormed chain hchain relation hrelation)

/-- The tokens of `n % -100 = 3..10, 13 or i != 1, 2 and v = 0`. -/
def mixedTokens : List Token :=
  [⟨.operand, ['n']⟩, ⟨.modulus, ['%']⟩, ⟨.number, ['-', '1', '0', '0']⟩, ⟨.equals, ['=']⟩,
    ⟨.number, ['3']⟩, ⟨.range, ['.', '.']⟩, ⟨.number, ['1', '0']⟩, ⟨.comma, [',']⟩,
    ⟨.number, ['1', '3']⟩, ⟨.or, ['o', 'r']⟩, ⟨.operand, ['i']⟩, ⟨.notEquals, ['!', '=']⟩,
    ⟨.number, ['1']⟩, ⟨.comma, [',']⟩, ⟨.number, ['2']⟩, ⟨.and, ['a', 'n', 'd']⟩,
    ⟨.operand, ['v']⟩, ⟨.equals, ['=']⟩, ⟨.number, ['0']⟩]

theorem ofTokens_meaning_mixedTokens :
    ∃ condition chains, ofTokens mixedTokens = .ok condition ∧ IsRule mixedTokens chains ∧
      (⟨true, 109, 50, 2⟩ : Decimal).WellFormed ∧
      condition.holds ⟨true, 109, 50, 2⟩ = true ∧
      ∃ chain ∈ chains, ∀ relation ∈ chain, relation.Satisfied ⟨true, 109, 50, 2⟩ := by
  have hview : (ofTokens mixedTokens).toOption.map (holds ⟨true, 109, 50, 2⟩) = some true := by
    decide +kernel
  obtain ⟨condition, h, hcondition⟩ := Outcome.exists_ok_of_map_toOption hview
  have hx : (⟨true, 109, 50, 2⟩ : Decimal).WellFormed := by decide
  obtain ⟨haccepts, hholds⟩ := ofTokens_meaning mixedTokens
  obtain hnil | ⟨chains, hchains⟩ := haccepts.1 ⟨condition, h⟩
  · cases hnil
  · have hmeaning := (hholds condition h _ hx).2 chains hchains
    exact ⟨condition, chains, h, hchains, hx, hcondition, hmeaning.1 hcondition⟩

end Condition

end MessageCatalog
