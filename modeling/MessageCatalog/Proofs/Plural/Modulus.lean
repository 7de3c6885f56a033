import MessageCatalog.Proofs.Plural.Meaning

/-!
# The moduli of rules

A relation may reduce its operand by a modulus, and by zero nothing can be reduced. The grammar
excludes it: what stands behind the sign of a modulus has no fraction digits and another value than
zero, so its integer part is positive (`Grammar.IsSubject.modulus_pos`).

The condition that is made of a rule's tokens holds the relations that the grammar finds in them and
no others (`Condition.relations_ofChains`), so all their moduli are positive
(`Condition.modulus_pos_of_ofTokens`).
-/

namespace MessageCatalog

/-- A number without fraction digits that is not zero has a positive integer part. -/
theorem Decimal.integer_pos {x : Decimal} (hx : x.WellFormed) (hdigits : x.digits = 0)
    (hzero : x.toRat ≠ 0) : 0 < x.integer := by
  have hfraction : x.fraction = 0 := by
    have hlt : x.fraction < power x.digits := hx
    rw [hdigits] at hlt
    exact Nat.lt_one_iff.1 hlt
  refine Nat.pos_of_ne_zero fun hinteger => hzero ?_
  rw [toRat_eq_zero_iff]
  simp [isZero, hinteger, hfraction]

namespace Grammar

variable {tokens : List Token}

theorem IsSubject.modulus_pos {operand : Operand} {modulus : Option Nat}
    (h : IsSubject tokens operand modulus) : ∀ m ∈ modulus, 0 < m := by
  cases h with
  | plain => exact fun m hm => absurd hm (Option.not_mem_none m)
  | reduced _ _ hnumber hdigits hzero =>
    rintro m hm
    obtain rfl := Option.some.inj hm
    exact Decimal.integer_pos hnumber.wellFormed hdigits hzero

theorem IsRelation.modulus_pos {relation : Relation} (h : IsRelation tokens relation) :
    ∀ m ∈ relation.modulus, 0 < m := by
  cases h with
  | compare hsubject _ _ => exact hsubject.modulus_pos

/-- The moduli in a rule are positive. -/
theorem IsRule.modulus_pos {chains : List (List Relation)} (h : IsRule tokens chains) :
    ∀ chain ∈ chains, ∀ relation ∈ chain, ∀ m ∈ relation.modulus, 0 < m :=
  h.forall_mem fun _ _ hchain => hchain.forall_mem fun _ _ hrelation => hrelation.modulus_pos

end Grammar

namespace Condition

mutual

/-- The relations of a condition. -/
def relations : Condition → List Relation
  | always => []
  | anyOf conditions => relationsOf conditions
  | allOf conditions => relationsOf conditions
  | relation r => [r]

/-- The relations of the conditions. -/
def relationsOf : List Condition → List Relation
  | [] => []
  | condition :: conditions => condition.relations ++ relationsOf conditions

end

theorem relationsOf_eq_flatMap (conditions : List Condition) :
    relationsOf conditions = conditions.flatMap relations := by
  induction conditions with
  | nil => rfl
  | cons condition conditions ih => rw [relationsOf, ih, List.flatMap_cons]

theorem relations_either (conditions : List Condition) :
    (either conditions).relations = conditions.flatMap relations := by
  rw [either.eq_def]
  split
  · rw [List.flatMap_singleton]
  · exact relationsOf_eq_flatMap conditions

theorem relations_both (conditions : List Condition) :
    (both conditions).relations = conditions.flatMap relations := by
  rw [both.eq_def]
  split
  · rw [List.flatMap_singleton]
  · exact relationsOf_eq_flatMap conditions

/-- The condition of chains holds their relations. -/
theorem relations_ofChains (chains : List (List Relation)) :
    (ofChains chains).relations = chains.flatten := by
  have hchain : ∀ chain : List Relation, (both (chain.map relation)).relations = chain := by
    intro chain
    rw [relations_both, List.flatMap_map]
    exact List.flatMap_singleton' chain
  rw [ofChains, relations_either, List.flatMap_map]
  simp only [hchain]
  exact List.flatMap_id

/-- All moduli are positive in a condition that tokens state. -/
theorem modulus_pos_of_ofTokens {tokens : List Token} {condition : Condition}
    (h : ofTokens tokens = .ok condition) :
    ∀ relation ∈ condition.relations, ∀ m ∈ relation.modulus, 0 < m := by
  rcases ofTokens_eq_ok_iff.1 h with ⟨-, rfl⟩ | ⟨chains, hchains, rfl⟩
  · intro relation hrelation
    cases hrelation
  · intro relation hrelation
    rw [relations_ofChains] at hrelation
    obtain ⟨chain, hchain, hrelation⟩ := List.mem_flatten.1 hrelation
    exact hchains.modulus_pos chain hchain relation hrelation

end Condition

end MessageCatalog
