import Mathlib.Data.Set.Card
import MessageCatalog.Proofs.Plural.Conformance

/-!
# Sets of rules and what they choose

A set of rules is changed step by step: a rule is set from its text, a category is cleared, or the
whole set is replaced by one compiled from pairs of a category and a text. A step that fails changes
nothing. This module says what the set holds after any sequence of steps, and what category it
chooses for a number then (`history_selects`).

A step *tells* what rule a category has if it succeeds and is about that category; a replacement is
about all of them. What the set holds for a category is what the last step told that tells about it
(`LastWord`). Within a replacement it is told by the last pair that is about the category, by the
same argument: compiling pairs is setting their rules one after another, from the empty set
(`attempt_replace_of_ok`).
-/

namespace MessageCatalog

/-! ### The last word -/

section LastWord

variable {α β σ : Type} {tells : α → β → Prop} {initial : β}

/-- What the last element of a list tells that tells something, or `initial` if none does. -/
inductive LastWord (tells : α → β → Prop) (initial : β) : List α → β → Prop where
  /-- No element tells anything. -/
  | silence {list : List α} (h : ∀ a ∈ list, ∀ b, ¬tells a b) : LastWord tells initial list initial
  /-- An element tells something, and none behind it does. -/
  | word {earlier later : List α} {a : α} {b : β} (h : tells a b)
    (hlater : ∀ c ∈ later, ∀ d, ¬tells c d) : LastWord tells initial (earlier ++ a :: later) b

theorem silent_concat {list : List α} {a : α} (h : ∀ c ∈ list, ∀ b, ¬tells c b)
    (ha : ∀ b, ¬tells a b) : ∀ c ∈ list ++ [a], ∀ b, ¬tells c b := by
  intro c hmem
  rcases List.mem_append.1 hmem with hmem | hmem
  · exact h c hmem
  · rw [List.mem_singleton.1 hmem]
    exact ha

theorem LastWord.concat_silent {list : List α} {a : α} {b : β} (h : LastWord tells initial list b)
    (ha : ∀ b, ¬tells a b) : LastWord tells initial (list ++ [a]) b := by
  cases h with
  | silence h => exact .silence (silent_concat h ha)
  | word h hlater =>
    rw [List.append_assoc, List.cons_append]
    exact .word h (silent_concat hlater ha)

variable (tells : α → β → Prop) (step : σ → α → σ) (view : σ → β)

theorem view_foldl_of_silent (hsilent : ∀ s a, (∀ b, ¬tells a b) → view (step s a) = view s)
    {list : List α} (h : ∀ a ∈ list, ∀ b, ¬tells a b) (s : σ) :
    view (list.foldl step s) = view s := by
  induction list generalizing s with
  | nil => rfl
  | cons a list ih =>
    rw [List.foldl_cons, ih (fun c hmem => h c (List.mem_cons_of_mem _ hmem)),
      hsilent s a (h a List.mem_cons_self)]

/-- If each step shows what its element tells, and keeps what is shown if the element tells nothing,
a run shows the last word. -/
theorem view_foldl_eq_iff (htells : ∀ s a b, tells a b → view (step s a) = b)
    (hsilent : ∀ s a, (∀ b, ¬tells a b) → view (step s a) = view s) (s : σ) (list : List α)
    (b : β) : view (list.foldl step s) = b ↔ LastWord tells (view s) list b := by
  constructor
  · rintro rfl
    -- from the back: the last element has the last word, or it is silent and the rest has it
    induction list using List.reverseRecOn with
    | nil => exact .silence (by simp)
    | append_singleton list a ih =>
      rw [List.foldl_append, List.foldl_cons, List.foldl_nil]
      by_cases ha : ∃ b, tells a b
      · obtain ⟨b, ha⟩ := ha
        rw [htells _ a b ha]
        exact .word ha (by simp)
      · rw [hsilent _ a (not_exists.1 ha)]
        exact ih.concat_silent (not_exists.1 ha)
  · intro h
    cases h with
    | silence h => exact view_foldl_of_silent tells step view hsilent h s
    | word h hlater =>
      rw [List.foldl_append, List.foldl_cons, view_foldl_of_silent tells step view hsilent hlater,
        htells _ _ _ h]

end LastWord

namespace RuleSet

/-! ### Compiling pairs -/

theorem attempt_set_of_ok {category : Category} {text : Text} {checked : Bool} {rule : Option Rule}
    (h : Rule.compile text checked = .ok rule) (rules : RuleSet) :
    rules.attempt (.set category text checked) = rules.set category rule := by
  simp [attempt, edit, h, Except.map]

theorem attempt_set_of_error {category : Category} {text : Text} {checked : Bool}
    {error : RuleError} (h : Rule.compile text checked = .error error) (rules : RuleSet) :
    rules.attempt (.set category text checked) = rules := by
  simp [attempt, edit, h, Except.map]

/-- Compiling pairs, from a set that is there already. -/
def compileFrom (rules : RuleSet) (texts : List (Category × Text)) (checked : Bool) :
    Except RuleError RuleSet :=
  texts.foldlM (fun rules (category, text) => do
    let rule ← Rule.compile text checked
    return rules.set category rule) rules

theorem compile_eq_compileFrom (texts : List (Category × Text)) (checked : Bool) :
    compile texts checked = compileFrom {} texts checked := rfl

theorem compileFrom_cons (rules : RuleSet) (pair : Category × Text)
    (texts : List (Category × Text)) (checked : Bool) :
    rules.compileFrom (pair :: texts) checked = Rule.compile pair.2 checked >>= fun rule =>
      (rules.set pair.1 rule).compileFrom texts checked := by
  cases h : Rule.compile pair.2 checked <;>
    simp [compileFrom, h, bind, Except.bind, pure, Except.pure]

/-- The error of the first pair whose text fails to compile. -/
inductive FirstFailure (checked : Bool) : List (Category × Text) → RuleError → Prop where
  /-- The first text fails. -/
  | here {pair : Category × Text} {later : List (Category × Text)} {error : RuleError}
    (h : Rule.compile pair.2 checked = .error error) : FirstFailure checked (pair :: later) error
  /-- The first text does not fail, and a later one does. -/
  | later {pair : Category × Text} {later : List (Category × Text)} {error : RuleError}
    {rule : Option Rule} (h : Rule.compile pair.2 checked = .ok rule)
    (hlater : FirstFailure checked later error) : FirstFailure checked (pair :: later) error

theorem exists_firstFailure_iff {texts : List (Category × Text)} {checked : Bool} :
    (∃ error, FirstFailure checked texts error) ↔
      ∃ pair ∈ texts, ∃ error, Rule.compile pair.2 checked = .error error := by
  constructor
  · rintro ⟨error, h⟩
    induction h with
    | here h => exact ⟨_, List.mem_cons_self, _, h⟩
    | later _ _ ih =>
      obtain ⟨pair, hmem, hpair⟩ := ih
      exact ⟨pair, List.mem_cons_of_mem _ hmem, hpair⟩
  · rintro ⟨pair, hmem, error, hpair⟩
    induction texts with
    | nil => cases hmem
    | cons first texts ih =>
      cases hfirst : Rule.compile first.2 checked with
      | error found => exact ⟨found, .here hfirst⟩
      | ok rule =>
        rcases List.mem_cons.1 hmem with rfl | hmem
        · simp [hpair] at hfirst
        · obtain ⟨found, hfound⟩ := ih hmem
          exact ⟨found, .later hfirst hfound⟩

/-- Compiling pairs fails with the error of the first text that fails. -/
theorem compileFrom_eq_error_iff {rules : RuleSet} {texts : List (Category × Text)}
    {checked : Bool} {error : RuleError} :
    rules.compileFrom texts checked = .error error ↔ FirstFailure checked texts error := by
  constructor
  · intro h
    induction texts generalizing rules with
    | nil => cases h
    | cons pair texts ih =>
      rw [compileFrom_cons] at h
      cases hrule : Rule.compile pair.2 checked with
      | error found =>
        rw [hrule] at h
        obtain rfl := Except.error.inj h
        exact .here hrule
      | ok rule =>
        rw [hrule] at h
        exact .later hrule (ih h)
  · intro h
    induction h generalizing rules with
    | here h =>
      rw [compileFrom_cons, h]
      rfl
    | later h _ ih =>
      rw [compileFrom_cons, h]
      exact ih

theorem compile_eq_error_iff {texts : List (Category × Text)} {checked : Bool}
    {error : RuleError} :
    compile texts checked = .error error ↔ FirstFailure checked texts error := by
  rw [compile_eq_compileFrom, compileFrom_eq_error_iff]

/-- If no text fails, compiling pairs is setting their rules one after another. -/
theorem compileFrom_eq_foldl_attempt {rules : RuleSet} {texts : List (Category × Text)}
    {checked : Bool} (h : ∀ pair ∈ texts, ∃ rule, Rule.compile pair.2 checked = .ok rule) :
    rules.compileFrom texts checked
      = .ok (texts.foldl (fun rules pair => rules.attempt (.set pair.1 pair.2 checked)) rules) := by
  induction texts generalizing rules with
  | nil => rfl
  | cons pair texts ih =>
    obtain ⟨rule, hrule⟩ := h _ List.mem_cons_self
    rw [compileFrom_cons, hrule, List.foldl_cons, attempt_set_of_ok hrule]
    exact ih fun pair hmem => h pair (List.mem_cons_of_mem _ hmem)

/-- If one text fails, a replacement changes nothing. -/
theorem attempt_replace_of_error {texts : List (Category × Text)} {checked : Bool}
    {pair : Category × Text} {error : RuleError} (hmem : pair ∈ texts)
    (h : Rule.compile pair.2 checked = .error error) (rules : RuleSet) :
    rules.attempt (.replace texts checked) = rules := by
  obtain ⟨found, hfound⟩ := exists_firstFailure_iff.2 ⟨pair, hmem, error, h⟩
  simp [attempt, edit, compile_eq_error_iff.2 hfound]

/-- If no text fails, a replacement sets the rules one after another, from the empty set. -/
theorem attempt_replace_of_ok {texts : List (Category × Text)} {checked : Bool}
    (h : ∀ pair ∈ texts, ∃ rule, Rule.compile pair.2 checked = .ok rule) (rules : RuleSet) :
    rules.attempt (.replace texts checked)
      = texts.foldl (fun rules pair => rules.attempt (.set pair.1 pair.2 checked)) {} := by
  simp [attempt, edit, compile_eq_compileFrom, compileFrom_eq_foldl_attempt h]

/-! ### What the set holds -/

/-- What a pair tells about a category: the rule that its text is compiled to. -/
def PairTells (category : Category) (checked : Bool) (pair : Category × Text)
    (rule : Option Rule) : Prop :=
  pair.1 = category ∧ Rule.compile pair.2 checked = .ok rule

/-- What a step tells about a category: the rule that the category has behind it. A step that fails
tells nothing, nor does one about another category. -/
inductive Edit.Tells (category : Category) : Edit → Option Rule → Prop where
  /-- The rule is compiled from a text. -/
  | set {text : Text} {checked : Bool} {rule : Option Rule}
    (h : Rule.compile text checked = .ok rule) : Tells category (.set category text checked) rule
  /-- The category is cleared. -/
  | clear : Tells category (.clear category) none
  /-- The whole set is replaced, and the last pair that is about the category decides. -/
  | replace {texts : List (Category × Text)} {checked : Bool} {rule : Option Rule}
    (h : ∀ pair ∈ texts, ∃ rule, Rule.compile pair.2 checked = .ok rule)
    (hlast : LastWord (PairTells category checked) none texts rule) :
    Tells category (.replace texts checked) rule

variable {category : Category}

theorem get?_empty (category : Category) : ({} : RuleSet).get? category = none := by
  cases category <;> rfl

theorem get?_attempt_set_of_tells (hcategory : category ≠ .other) (rules : RuleSet)
    (pair : Category × Text) {checked : Bool} {rule : Option Rule}
    (h : PairTells category checked pair rule) :
    (rules.attempt (.set pair.1 pair.2 checked)).get? category = rule := by
  obtain ⟨rfl, hrule⟩ := h
  rw [attempt_set_of_ok hrule, get?_set, if_pos ⟨rfl, hcategory⟩]

theorem get?_attempt_set_of_silent (rules : RuleSet) (pair : Category × Text) {checked : Bool}
    (h : ∀ rule, ¬PairTells category checked pair rule) :
    (rules.attempt (.set pair.1 pair.2 checked)).get? category = rules.get? category := by
  cases hrule : Rule.compile pair.2 checked with
  | error error => rw [attempt_set_of_error hrule]
  | ok rule =>
    have hne : pair.1 ≠ category := fun heq => h rule ⟨heq, hrule⟩
    rw [attempt_set_of_ok hrule, get?_set, if_neg fun hand => hne hand.1]

/-- What a set of pairs holds is told by the last pair that is about the category. -/
theorem get?_attempt_replace_iff (hcategory : category ≠ .other) (rules : RuleSet)
    {texts : List (Category × Text)} {checked : Bool}
    (h : ∀ pair ∈ texts, ∃ rule, Rule.compile pair.2 checked = .ok rule)
    (rule : Option Rule) :
    (rules.attempt (.replace texts checked)).get? category = rule ↔
      LastWord (PairTells category checked) none texts rule := by
  have hrun := view_foldl_eq_iff (PairTells category checked)
    (fun rules pair => rules.attempt (.set pair.1 pair.2 checked))
    (fun rules => rules.get? category)
    (fun rules pair _ htells => get?_attempt_set_of_tells hcategory rules pair htells)
    (fun rules pair hsilent => get?_attempt_set_of_silent rules pair hsilent) {} texts rule
  rw [attempt_replace_of_ok h]
  rwa [get?_empty] at hrun

/-- **One step**: behind a step that tells about a category, the set holds what it tells. -/
theorem get?_attempt_of_tells (hcategory : category ≠ .other) (rules : RuleSet) {change : Edit}
    {rule : Option Rule} (h : change.Tells category rule) :
    (rules.attempt change).get? category = rule := by
  cases h with
  | set hrule => exact get?_attempt_set_of_tells hcategory rules (category, _) ⟨rfl, hrule⟩
  | clear => rw [attempt, edit, get?_set, if_pos ⟨rfl, hcategory⟩]
  | replace hall hlast => exact (get?_attempt_replace_iff hcategory rules hall rule).2 hlast

/-- A step that tells nothing about a category leaves its rule. -/
theorem get?_attempt_of_silent (hcategory : category ≠ .other) (rules : RuleSet) {change : Edit}
    (h : ∀ rule, ¬change.Tells category rule) :
    (rules.attempt change).get? category = rules.get? category := by
  cases change with
  | set asked text checked =>
    refine get?_attempt_set_of_silent rules (asked, text) ?_
    rintro rule ⟨rfl, hrule⟩
    exact h rule (.set hrule)
  | clear asked =>
    have hne : asked ≠ category := by
      rintro rfl
      exact h none .clear
    rw [attempt, edit, get?_set, if_neg fun hand => hne hand.1]
  | replace texts checked =>
    -- a replacement that succeeds tells about every category, so this one has failed
    by_cases hfails : ∃ pair ∈ texts, ∃ error, Rule.compile pair.2 checked = .error error
    · obtain ⟨pair, hmem, error, hpair⟩ := hfails
      rw [attempt_replace_of_error hmem hpair]
    · have hall : ∀ pair ∈ texts, ∃ rule, Rule.compile pair.2 checked = .ok rule := by
        intro pair hmem
        cases hpair : Rule.compile pair.2 checked with
        | error error => exact absurd ⟨pair, hmem, error, hpair⟩ hfails
        | ok rule => exact ⟨rule, rfl⟩
      exact absurd (.replace hall ((get?_attempt_replace_iff hcategory rules hall _).1 rfl)) (h _)

/-- **A whole history**: the set holds what the last step tells that tells about the category. -/
theorem get?_history_iff (hcategory : category ≠ .other) (changes : List Edit)
    (rule : Option Rule) :
    (history changes).get? category = rule ↔
      LastWord (fun change => change.Tells category) none changes rule := by
  have hrun := view_foldl_eq_iff (fun change => change.Tells category) attempt
    (fun rules => rules.get? category)
    (fun rules _ _ htells => get?_attempt_of_tells hcategory rules htells)
    (fun rules _ hsilent => get?_attempt_of_silent hcategory rules hsilent) {} changes rule
  rwa [get?_empty] at hrun

end RuleSet

/-! ### What the set chooses -/

namespace Category

theorem mem_all (category : Category) : category ∈ all := by cases category <;> decide

theorem pairwise_rank_all : all.Pairwise fun a b => a.rank < b.rank := by decide

/-- The first category that satisfies a condition is the one with the lowest rank. -/
theorem find?_all_eq_some_iff {p : Category → Bool} {category : Category} :
    all.find? p = some category ↔
      p category = true ∧ ∀ earlier, earlier.rank < category.rank → p earlier = false := by
  rw [List.find?_eq_some_iff_append]
  refine and_congr_right fun _ => ⟨?_, ?_⟩
  · rintro ⟨before, behind, hall, hbefore⟩ earlier hrank
    have hsorted := pairwise_rank_all
    have hmem := mem_all earlier
    rw [hall] at hsorted hmem
    have hbehind := (List.pairwise_cons.1 (List.pairwise_append.1 hsorted).2.1).1
    rcases List.mem_append.1 hmem with hmem | hmem
    · simpa using hbefore earlier hmem
    · rcases List.mem_cons.1 hmem with rfl | hmem
      · exact absurd hrank (lt_irrefl _)
      · exact absurd hrank (lt_asymm (hbehind earlier hmem))
  · intro hearlier
    obtain ⟨before, behind, hall⟩ := List.append_of_mem (mem_all category)
    have hsorted := pairwise_rank_all
    rw [hall] at hsorted
    refine ⟨before, behind, hall, fun earlier hmem => ?_⟩
    have hrank := (List.pairwise_append.1 hsorted).2.2 earlier hmem category List.mem_cons_self
    simp [hearlier earlier hrank]

end Category

namespace RuleSet

variable {rules : RuleSet} {x : Decimal}

theorem selects_eq_false_iff {category : Category} :
    rules.selects x category = false ↔
      ∀ rule, rules.get? category = some rule → rule.holds x = false := by
  rw [selects]
  cases rules.get? category <;> simp

theorem selects_eq_true_iff {category : Category} :
    rules.selects x category = true ↔
      ∃ rule, rules.get? category = some rule ∧ rule.holds x = true := by
  rw [selects]
  cases rules.get? category <;> simp

theorem category_eq_iff {category : Category} (hcategory : category ≠ .other) :
    rules.category x = category ↔
      (∃ rule, rules.get? category = some rule ∧ rule.holds x = true) ∧
        ∀ earlier, earlier.rank < category.rank →
          ∀ rule, rules.get? earlier = some rule → rule.holds x = false := by
  have hfind : rules.category x = category ↔
      Category.all.find? (rules.selects x) = some category := by
    rw [RuleSet.category]
    cases Category.all.find? (rules.selects x) with
    | none => simp [hcategory.symm]
    | some found => simp
  simp only [hfind, Category.find?_all_eq_some_iff, selects_eq_true_iff, selects_eq_false_iff]

theorem category_eq_other_iff :
    rules.category x = .other ↔
      ∀ category rule, rules.get? category = some rule → rule.holds x = false := by
  simp only [← selects_eq_false_iff]
  rw [RuleSet.category]
  cases hfind : Category.all.find? (rules.selects x) with
  | none => simpa [Category.mem_all] using hfind
  | some found =>
    have hfound : rules.selects x found = true := List.find?_some hfind
    constructor
    · rintro rfl
      cases hfound
    · intro hall
      simp [hall found] at hfound

/-- The size counts the categories that have a rule. -/
theorem size_eq_ncard (rules : RuleSet) :
    rules.size = Set.ncard { category | (rules.get? category).isSome = true } := by
  have hset : { category | (rules.get? category).isSome = true }
      = ((Category.all.filter fun category => (rules.get? category).isSome).toFinset :
          Set Category) := by
    ext category
    simp [Category.mem_all]
  have hnodup : Category.all.Nodup := by decide
  rw [hset, Set.ncard_coe_finset, List.toFinset_card_of_nodup (hnodup.filter _), size,
    List.length_filterMap_eq_countP, List.countP_eq_length_filter]

end RuleSet

theorem Rule.compile_eq_ok_none_iff {text : Text} {checked : Bool} :
    compile text checked = .ok none ↔ text = [] := by
  constructor
  · intro h
    by_contra hne
    cases hread : read text with
    | error error => simp [compile_of_read_error hne hread] at h
    | ok found =>
      rw [compile_of_read hne hread] at h
      obtain ⟨_, -, hnone⟩ := Outcome.map_eq_ok_iff.1 h
      cases hnone
  · rintro rfl
    rfl

namespace RuleSet

/-- **What a set of rules holds and chooses after any history.** For a category but `other`, the set
holds what the last step tells that tells about it: the compiled rule, and none if that step cleared
the category, had the empty text for it or was a replacement without a pair for it. There is never a
rule for `other`, and the size counts the rules. The category of a number is the first one, in the
order of the ranks, whose rule holds for it, and `other` if there is none. Compiling pairs fails
exactly if one of their texts does, also one for `other`, with the error of the first such text. -/
theorem history_selects (changes : List Edit) :
    (∀ category, category ≠ .other → ∀ rule,
      (history changes).get? category = rule ↔
        LastWord (fun change => change.Tells category) none changes rule) ∧
    (∀ text checked, Rule.compile text checked = .ok none ↔ text = []) ∧
    (history changes).get? .other = none ∧
    (history changes).size
      = Set.ncard { category | ((history changes).get? category).isSome = true } ∧
    (∀ x category, category ≠ .other →
      ((history changes).category x = category ↔
        (∃ rule, (history changes).get? category = some rule ∧ rule.holds x = true) ∧
          ∀ earlier, earlier.rank < category.rank →
            ∀ rule, (history changes).get? earlier = some rule → rule.holds x = false)) ∧
    (∀ x, (history changes).category x = .other ↔
      ∀ category rule, (history changes).get? category = some rule → rule.holds x = false) ∧
    (∀ texts checked error, compile texts checked = .error error ↔
      FirstFailure checked texts error) ∧
    (∀ texts checked, (∃ error, compile texts checked = .error error) ↔
      ∃ pair ∈ texts, ∃ error, Rule.compile pair.2 checked = .error error) := by
  refine ⟨fun category hcategory rule => get?_history_iff hcategory changes rule,
    fun _ _ => Rule.compile_eq_ok_none_iff, rfl, size_eq_ncard _,
    fun x category hcategory => category_eq_iff hcategory, fun x => category_eq_other_iff,
    fun texts checked error => compile_eq_error_iff, fun texts checked => ?_⟩
  rw [← exists_firstFailure_iff]
  exact exists_congr fun error => compile_eq_error_iff

/-- A history in which `many` is cleared, the rule for `one` is replaced, a step fails, and a rule
for `other` is set. -/
def revisions : List Edit :=
  [.replace [(.one, "n = 5".toList), (.many, "n = 1".toList), (.zero, [])] true,
    .set .one "n = 1..2 @integer 1, 2".toList true, .clear .many,
    .set .one "n = 1 @integer 1, 2".toList true, .set .other "n = 1".toList false]

/-- The rule that `one` has behind `revisions`. -/
def revisedRule : Rule where
  source := "n = 1..2 @integer 1, 2".toList
  condition := .relation ⟨.n, none, .equal, [⟨.ofNat 1, .ofNat 2⟩]⟩

theorem history_selects_revisions :
    history revisions = { one := some revisedRule } ∧
      LastWord (fun change => change.Tells .one) none revisions (some revisedRule) ∧
      (history revisions).category (.ofNat 2) = .one ∧
      (history revisions).category (.ofNat 5) = .other := by
  have hcategory : Category.one ≠ .other := by decide
  have hrules : history revisions = { one := some revisedRule } := by decide +kernel
  obtain ⟨hholds, -, -, -, hchosen, hother, -, -⟩ := history_selects revisions
  rw [hrules] at hholds hchosen hother ⊢
  refine ⟨rfl, (hholds .one hcategory _).1 rfl, (hchosen _ .one hcategory).2 ⟨?_, ?_⟩,
    (hother _).2 ?_⟩
  · exact ⟨revisedRule, rfl, by decide⟩
  · rintro (_ | _) hrank rule ⟨⟩
    exact absurd hrank (by decide)
  · rintro (_ | _) rule ⟨⟩
    decide

end RuleSet

end MessageCatalog
