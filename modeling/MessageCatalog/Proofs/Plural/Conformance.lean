import Mathlib.Data.List.TakeWhile
import MessageCatalog.Plural.RuleSet
import MessageCatalog.Proofs.Outcome

/-!
# Rules and their samples

A rule that is compiled with its samples checked is the rule that is compiled without, and it holds
for every sample that its text lists (`compile_checked_iff`). The samples are those of the clause
that starts at the first `@` of the text: the lexer stops there and nowhere else, because no token
of a rule holds that character (`clause_eq_of_ofRule`). If the rule does not hold for some of them,
the error lists these, in the order in which they are listed, each as it is written and as often.
-/

namespace MessageCatalog

/-! ### Where the sample clause starts -/

namespace Token

theorem isDigit_or_point_of_mem_splitNumber {c : Char} {text : Text}
    (h : c ∈ (splitNumber text).1) : c.isDigit = true ∨ c = '.' := by
  unfold splitNumber at h
  split at h
  · next digit rest _ =>
    split at h
    · rcases List.mem_append.1 h with hwhole | hfraction
      · exact .inl (List.mem_takeWhile_imp hwhole)
      · rcases List.mem_cons.1 hfraction with hpoint | hfraction
        · exact .inr hpoint
        · exact .inl (List.mem_takeWhile_imp hfraction)
    · exact .inl (List.mem_takeWhile_imp h)
  · exact .inl (List.mem_takeWhile_imp h)

/-- A token of a rule does not hold the character that starts the sample clause. -/
theorem at_not_mem_of_ruleToken {c : Char} {rest after : Text} {token : Token}
    (h : ruleToken c rest = .ok (token, after)) : '@' ∉ token.text := by
  unfold ruleToken at h
  split at h
  · obtain ⟨rfl, -⟩ := Prod.mk.inj (Except.ok.inj h)
    intro hmem
    rcases isDigit_or_point_of_mem_splitNumber hmem with hdigit | hpoint
    · exact absurd hdigit (by decide)
    · exact absurd hpoint (by decide)
  · split at h
    · simp only [splitWord] at h
      split at h
      · obtain ⟨rfl, -⟩ := Prod.mk.inj (Except.ok.inj h)
        exact fun hmem => absurd (List.mem_takeWhile_imp hmem) (by decide +kernel)
      · cases h
    · split at h <;> cases h <;> simp

/-- The lexer reads a rule up to its first `@`, or to its end. -/
theorem split_of_ofRule {text clause : Text} {tokens : List Token}
    (h : ofRule text = .ok (tokens, clause)) :
    ∃ front, text = front ++ clause ∧ '@' ∉ front ∧ ∀ c ∈ clause.head?, c = '@' := by
  fun_induction ofRule text generalizing tokens with
  | case1 =>
    obtain ⟨rfl, rfl⟩ := Prod.mk.inj (Except.ok.inj h)
    exact ⟨[], rfl, List.not_mem_nil, by simp⟩
  | case2 c rest hblank ih =>
    obtain ⟨front, rfl, hfront, hclause⟩ := ih h
    have hc : '@' ≠ c := by
      rintro rfl
      exact absurd hblank (by decide)
    exact ⟨c :: front, rfl, by simp [hc, hfront], hclause⟩
  | case3 rest =>
    obtain ⟨rfl, rfl⟩ := Prod.mk.inj (Except.ok.inj h)
    exact ⟨[], rfl, List.not_mem_nil, by simp⟩
  | case4 => cases h
  | case5 c rest _ _ token after hread ih =>
    obtain ⟨⟨more, left⟩, hmore, heq⟩ := Outcome.map_eq_ok_iff.1 h
    obtain ⟨rfl, rfl⟩ := Prod.mk.inj heq
    obtain ⟨front, rfl, hfront, hclause⟩ := ih hmore
    obtain ⟨happend, -⟩ := ruleToken_append hread
    refine ⟨token.text ++ front, by rw [← happend, List.append_assoc], ?_, hclause⟩
    simp [at_not_mem_of_ruleToken hread, hfront]

end Token

namespace Rule

/-- The part of a rule's text from its first `@` on, which is empty if there is none. -/
def clauseOf (text : Text) : Text := text.dropWhile fun c => c ≠ '@'

/-- What the lexer leaves of a rule is its sample clause. -/
theorem clause_eq_of_ofRule {text clause : Text} {tokens : List Token}
    (h : Token.ofRule text = .ok (tokens, clause)) : clause = clauseOf text := by
  obtain ⟨front, rfl, hfront, hclause⟩ := Token.split_of_ofRule h
  have hall : ∀ c ∈ front, decide (c ≠ '@') = true := fun c hmem =>
    decide_eq_true fun heq => hfront (heq ▸ hmem)
  rw [clauseOf, List.dropWhile_append_of_pos hall]
  cases clause with
  | nil => rfl
  | cons c rest => simp [hclause c rfl]

theorem clause_eq_of_read {text clause : Text} {condition : Condition}
    (h : read text = .ok (condition, clause)) : clause = clauseOf text := by
  rw [read] at h
  cases hlexed : Token.ofRule text with
  | error fault => simp [hlexed] at h
  | ok lexed =>
    obtain ⟨tokens, left⟩ := lexed
    cases hcompiled : Condition.ofTokens tokens with
    | error fault => simp [hlexed, hcompiled] at h
    | ok found =>
      simp only [hlexed, hcompiled, Except.ok.injEq, Prod.mk.injEq] at h
      rw [← h.2]
      exact clause_eq_of_ofRule hlexed

/-! ### Checked and unchecked rules -/

theorem compile_of_read {text clause : Text} {condition : Condition} (hne : text ≠ [])
    (h : read text = .ok (condition, clause)) (checked : Bool) :
    compile text checked =
      (if checked then condition.checkSamples clause text else .ok ()).map fun _ =>
        some { source := text, condition } := by
  rw [compile]
  · cases checked with
    | false => simp [h, bind, Except.bind, pure, Except.pure, Except.map]
    | true => cases hcheck : condition.checkSamples clause text <;>
        simp [h, hcheck, bind, Except.bind, pure, Except.pure, Except.map]
  · exact hne

theorem compile_of_read_error {text : Text} {error : RuleError} (hne : text ≠ [])
    (h : read text = .error error) (checked : Bool) : compile text checked = .error error := by
  rw [compile]
  · rw [h]
    rfl
  · exact hne

/-- Checking the samples is a step of its own behind compiling without. -/
theorem compile_checked (text : Text) :
    compile text true = compile text false >>= fun compiled =>
      match compiled with
      | none => .ok none
      | some rule => (rule.condition.checkSamples (clauseOf text) text).map fun _ => some rule := by
  by_cases hne : text = []
  · subst hne
    rfl
  · cases hread : read text with
    | error error => rw [compile_of_read_error hne hread, compile_of_read_error hne hread]; rfl
    | ok found =>
      obtain ⟨condition, clause⟩ := found
      obtain rfl := clause_eq_of_read hread
      rw [compile_of_read hne hread, compile_of_read hne hread]
      rfl

theorem failing_eq_nil_iff {condition : Condition} {samples : List Decimal} :
    condition.failing samples = [] ↔ ∀ x ∈ samples, condition.holds x = true := by
  simp [Condition.failing]

theorem checkSamples_of_expand {clause : Text} {samples : List Decimal}
    (h : Sample.expand clause = .ok samples) (condition : Condition) (text : Text) :
    condition.checkSamples clause text =
      if condition.failing samples = [] then .ok ()
      else .error (.failedSamples text (condition.failing samples)) := by
  simp only [Condition.checkSamples, h]
  split
  next hnil => rw [if_pos hnil]
  next hne => rw [if_neg hne]

theorem checkSamples_eq_ok_iff {condition : Condition} {clause text : Text} :
    condition.checkSamples clause text = .ok () ↔
      ∃ samples, Sample.expand clause = .ok samples ∧ ∀ x ∈ samples, condition.holds x = true := by
  cases hexpand : Sample.expand clause with
  | error fault => simp [Condition.checkSamples, hexpand]
  | ok samples =>
    rw [checkSamples_of_expand hexpand]
    simp [failing_eq_nil_iff]

/-- **A rule is checked against the samples of its text.** Compiling with the check gives a rule
exactly if compiling without it gives the same rule, the samples from the first `@` of the text on
can be listed, and the rule holds for each of them. If only the last is not so, the error carries
the text and those samples for which the rule does not hold, in their order and as often as they are
listed. -/
theorem compile_checked_iff (text : Text) :
    (∀ rule, compile text true = .ok (some rule) ↔
      compile text false = .ok (some rule) ∧
        ∃ samples, Sample.expand (clauseOf text) = .ok samples ∧
          ∀ x ∈ samples, rule.holds x = true) ∧
    ∀ rule samples, compile text false = .ok (some rule) →
      Sample.expand (clauseOf text) = .ok samples → (∃ x ∈ samples, rule.holds x = false) →
      compile text true
        = .error (.failedSamples text (samples.filter fun x => !rule.holds x)) := by
  rw [compile_checked]
  refine ⟨fun rule => ⟨fun h => ?_, ?_⟩, ?_⟩
  · obtain ⟨compiled, hcompiled, hchecked⟩ := Outcome.bind_eq_ok_iff.1 h
    cases compiled with
    | none => cases hchecked
    | some found =>
      obtain ⟨_, hcheck, hfound⟩ := Outcome.map_eq_ok_iff.1 hchecked
      obtain rfl := Option.some.inj hfound
      exact ⟨hcompiled, checkSamples_eq_ok_iff.1 hcheck⟩
  · rintro ⟨hcompiled, hsamples⟩
    refine Outcome.bind_eq_ok_iff.2 ⟨some rule, hcompiled, ?_⟩
    exact Outcome.map_eq_ok_iff.2 ⟨(), checkSamples_eq_ok_iff.2 hsamples, rfl⟩
  · rintro rule samples hcompiled hexpand ⟨x, hx, hfails⟩
    rw [hcompiled]
    show (rule.condition.checkSamples (clauseOf text) text).map _ = _
    have hfailing : rule.condition.failing samples ≠ [] := by
      intro hnil
      have hholds : rule.holds x = true := failing_eq_nil_iff.1 hnil x hx
      simp [hholds] at hfails
    rw [checkSamples_of_expand hexpand, if_neg hfailing]
    rfl

/-- A rule for `1` with samples for which it does not hold, some of them listed twice. -/
def oneRule : Text := "i = 1 and v = 0 @integer 1~2 @decimal 0.9~1.0, 1.00, 1.0, …".toList

/-- The condition that `oneRule` states. -/
def oneCondition : Condition :=
  .allOf [.relation ⟨.i, none, .equal, [⟨.ofNat 1, .ofNat 1⟩]⟩,
    .relation ⟨.v, none, .equal, [⟨.ofNat 0, .ofNat 0⟩]⟩]

theorem compile_checked_iff_oneRule :
    compile oneRule false = .ok (some ⟨oneRule, oneCondition⟩) ∧
      Sample.expand (clauseOf oneRule)
        = .ok [⟨false, 1, 0, 0⟩, ⟨false, 2, 0, 0⟩, ⟨false, 0, 9, 1⟩, ⟨false, 1, 0, 1⟩,
            ⟨false, 1, 0, 2⟩, ⟨false, 1, 0, 1⟩] ∧
      compile oneRule true
        = .error (.failedSamples oneRule [⟨false, 2, 0, 0⟩, ⟨false, 0, 9, 1⟩, ⟨false, 1, 0, 1⟩,
            ⟨false, 1, 0, 2⟩, ⟨false, 1, 0, 1⟩]) := by
  have hcompiled : compile oneRule false = .ok (some ⟨oneRule, oneCondition⟩) := by
    decide +kernel
  have hexpand : Sample.expand (clauseOf oneRule)
      = .ok [⟨false, 1, 0, 0⟩, ⟨false, 2, 0, 0⟩, ⟨false, 0, 9, 1⟩, ⟨false, 1, 0, 1⟩,
          ⟨false, 1, 0, 2⟩, ⟨false, 1, 0, 1⟩] := by
    decide +kernel
  refine ⟨hcompiled, hexpand, ?_⟩
  exact (compile_checked_iff oneRule).2 _ _ hcompiled hexpand
    ⟨⟨false, 2, 0, 0⟩, by simp, by decide +kernel⟩

end Rule

end MessageCatalog
