import MessageCatalog.Proofs.Plural.Listing
import MessageCatalog.Proofs.Plural.Modulus
import MessageCatalog.Proofs.Plural.Operands
import MessageCatalog.Proofs.Plural.Range

/-!
# Numbers in machine words

The parts of a number are kept in words of 64 bits, and a range is counted out in double words of
128 bits. Some operations on them are checked and others are not. The definitions of this library
compute with natural numbers and look at a limit only where an operation is checked. Here the same
is computed in words (`Machine`): an operation that is not checked stops the computation if its
result exceeds the word, and so does a division by zero, or an assertion about the parts of a number
that does not hold.

A number that is made has at most eighteen fraction digits, and they form a number below the power
of ten with so many zeros (`Decimal.Made.representable`). All else rests on this. Such a number has
fewer than 2 ^ 64 * 10 ^ 18 units of any place up to the eighteenth, and one more step of a range
leaves the sum below 2 ^ 128 (`Machine.next_lt`). So computing in words gives what computing in
natural numbers gives, for a range (`Machine.steps_eq`) and for a clause (`Machine.expand_eq`), and
no range of a clause leaves the numbers that can be represented
(`Sample.expand_ne_rangeOutOfBounds`). `Machine.keepsToWords_of_made` puts this together.
-/

namespace MessageCatalog

open Text

/-! ### Operands -/

namespace Operand

open Decimal

variable {x : Decimal}

theorem count_lt (hx : x.Representable) (operand : Operand) : count x operand < wordLimit := by
  have hfraction : x.fraction < wordLimit :=
    Nat.lt_trans hx.wellFormed (power_lt_wordLimit hx.digits)
  have hdigits : x.digits < wordLimit := Nat.lt_of_le_of_lt hx.digits (by decide)
  have hsignificant := isSignificant_count x
  cases operand with
  | n | i => exact hx.integer
  | v => exact hdigits
  | w => exact Nat.lt_of_le_of_lt hsignificant.le hdigits
  | f => exact hfraction
  | t =>
    have hw : count x .w ≤ maxDigits := hsignificant.le.trans hx.digits
    exact Nat.lt_trans (hsignificant.lt hx.wellFormed) (power_lt_wordLimit hw)
  | c | e => exact Nat.pos_of_ne_zero (by decide)

/-- The operands of a number that is made are made. -/
theorem made_value (hx : x.Made) (operand : Operand) : (operand.value x).Made := by
  by_cases hn : operand = .n
  · subst hn
    exact hx.abs
  · have hwhole := (describes hx.representable.wellFormed).whole operand hn
    rw [hwhole]
    exact .ofNat (count_lt hx.representable operand)

end Operand

/-! ### Computing in words -/

/-- How a computation in machine words ends without a result. -/
inductive Halt where
  /-- A fault is reported. -/
  | fault (fault : RuleFault)
  /-- An operation that is not checked has a result that does not fit its word. -/
  | overflow
  /-- A number is divided by zero. -/
  | division
  /-- An assertion about the representation of numbers does not hold. -/
  | assertion
  deriving DecidableEq, Repr

/-- A computation in machine words. -/
abbrev Machine (α : Type) := Except Halt α

namespace Machine

/-- Goes on if the condition holds. -/
def require (condition : Prop) [Decidable condition] (halt : Halt) : Machine Unit :=
  if condition then .ok () else .error halt

/-- The result of a checked operation; if there is none, the fault is reported. -/
def checked {α : Type} (fault : RuleFault) : Option α → Machine α
  | some a => .ok a
  | none => .error (.fault fault)

/-- The outcome of a computation without regard to words. -/
def reported {α : Type} (result : Except RuleFault α) : Machine α := result.mapError .fault

/-- Makes a number of its parts. There may not be too many digits, and the fraction has to be below
one, for which a power of ten is computed without a check. -/
def make (integer fraction digits : Nat) : Machine Decimal := do
  require (digits ≤ Decimal.maxDigits) .assertion
  require (Decimal.power digits < wordLimit) .overflow
  require (fraction < Decimal.power digits) .assertion
  return { integer, fraction, digits }

/-- The number of a natural number. -/
def ofNat (n : Nat) : Machine Decimal := make n 0 0

/-- The number of an integer. -/
def ofInt (i : Int) : Machine Decimal := do
  let x ← ofNat i.natAbs
  return { x with negative := i < 0 }

/-- The number without its sign and with its integer part reduced modulo `m`. -/
def modulo (x : Decimal) (m : Nat) : Machine Decimal := do
  require (0 < m) .assertion
  require (m ≠ 0) .division
  return { x.abs with integer := x.integer % m }

/-- The value of an operand for a number. -/
def value (x : Decimal) : Operand → Machine Decimal
  | .n => return x.abs
  | .i => ofNat x.integer
  | .v => ofNat x.digits
  | .w => ofNat (Operand.significant x.digits x.fraction).1
  | .f => ofNat x.fraction
  | .t => ofNat (Operand.significant x.digits x.fraction).2
  | .c => ofNat 0
  | .e => ofNat 0

/-- The number that a relation compares with its ranges. -/
def subject (relation : Relation) (x : Decimal) : Machine Decimal := do
  let a ← value x relation.operand
  match relation.modulus with
  | some m => modulo a m
  | none => return a

/-- The number that has `units` units of the place `scale`. -/
def ofScaled (fault : RuleFault) (units scale : Nat) : Machine Decimal := do
  let unit ← checked fault (Decimal.below? Decimal.doubleWordLimit (Decimal.power scale))
  require (unit ≠ 0) .division
  let integer ← checked fault (Decimal.below? wordLimit (units / unit))
  let fraction ← checked fault (Decimal.below? wordLimit (units % unit))
  make integer fraction scale

/-- The numbers from `units` up to `last` in steps of `power places`. Behind the last number there
is one more step, which leads beyond `last`. -/
def countUp (fault : RuleFault) (places scale last units : Nat) : Machine (List Decimal) :=
  if units ≤ last then do
    let x ← ofScaled fault units scale
    require (units + Decimal.power places < Decimal.doubleWordLimit) .overflow
    let more ← countUp fault places scale last (units + Decimal.power places)
    return x :: more
  else return []
termination_by last + 1 - units
decreasing_by
  have := Decimal.power_pos places
  omega

/-- Checks that a range that goes up has not too many steps. -/
def checkLength (fault : RuleFault) (step start last : Nat) : Machine Unit :=
  if start < last then do
    require (step ≠ 0) .division
    require ((last - start) / step ≤ Sample.maxSteps) (.fault fault)
  else return ()

/-- The samples of a range behind its lower end. -/
def steps (low high : Decimal) : Machine (List Decimal) := do
  let fault := RuleFault.rangeOutOfBounds low high
  let scale := max low.digits high.digits
  let places := scale - high.digits
  require (high.digits ≤ scale) .overflow
  let step ← checked fault (Decimal.below? Decimal.doubleWordLimit (Decimal.power places))
  let start ← checked fault (low.scaled? scale)
  let last ← checked fault (high.scaled? scale)
  checkLength (.rangeTooLong low high Sample.maxSteps) step start last
  require (start + step < Decimal.doubleWordLimit) .overflow
  countUp fault places scale last (start + step)

/-- The samples that tokens of a clause list. -/
def ofTokens : Sample.Pending → List Token → Machine (List Decimal)
  | .upper _, [] => .error (.fault .rangeWithoutUpper)
  | .nothing, [] => .ok []
  | .lower _, [] => .ok []
  | pending, token :: tokens =>
    match token.kind, pending with
    | .number, pending =>
      match Decimal.parse? token.text, pending with
      | none, _ => .error (.fault .invalidSample)
      | some high, .upper low => do
        let samples ← steps low high
        let more ← ofTokens .nothing tokens
        return samples ++ more
      | some x, _ => (ofTokens (.lower x) tokens).map (x :: ·)
    | .range, .lower low => ofTokens (.upper low) tokens
    | .range, _ => .error (.fault .rangeWithoutLower)
    | _, pending => ofTokens pending tokens

/-- The samples that a clause lists. -/
def expand (clause : Text) : Machine (List Decimal) := do
  let tokens ← reported (Token.ofSamples clause)
  ofTokens .nothing tokens

/-! ### One operation after the other -/

theorem reported_bind {α β : Type} (x : Except RuleFault α) (f : α → Except RuleFault β) :
    reported (x >>= f) = reported x >>= fun a => reported (f a) := by
  cases x <;> rfl

theorem reported_map {α β : Type} (f : α → β) (x : Except RuleFault α) :
    reported (x.map f) = (reported x).map f := by
  cases x <;> rfl

theorem require_bind {α : Type} {condition : Prop} [Decidable condition] (h : condition)
    (halt : Halt) (f : Unit → Machine α) : (require condition halt >>= f) = f () := by
  rw [require, if_pos h]
  rfl

theorem checked_bind {α β : Type} (fault : RuleFault) (a : α) (f : α → Machine β) :
    (checked fault (some a) >>= f) = f a :=
  rfl

/-! ### Numbers -/

theorem make_eq {integer fraction digits : Nat} (hdigits : digits ≤ Decimal.maxDigits)
    (hfraction : fraction < Decimal.power digits) :
    make integer fraction digits = .ok { integer, fraction, digits } := by
  rw [make, require_bind hdigits, require_bind (Decimal.power_lt_wordLimit hdigits),
    require_bind hfraction]
  rfl

theorem ofNat_eq (n : Nat) : ofNat n = .ok (.ofNat n) :=
  make_eq (Nat.zero_le _) Nat.one_pos

theorem ofInt_eq (i : Int) : ofInt i = .ok (.ofInt i) := by
  rw [ofInt, ofNat_eq]
  rfl

theorem modulo_eq {m : Nat} (h : 0 < m) (x : Decimal) : modulo x m = .ok (x.modulo m) := by
  rw [modulo, require_bind h, require_bind (Nat.ne_of_gt h)]
  rfl

theorem value_eq (x : Decimal) (operand : Operand) : value x operand = .ok (operand.value x) := by
  cases operand with
  | n => rfl
  | i | v | w | f | t | c | e => exact ofNat_eq _

theorem subject_eq {relation : Relation} (h : ∀ m ∈ relation.modulus, 0 < m) (x : Decimal) :
    subject relation x = .ok (relation.subject x) := by
  rw [subject, value_eq, Relation.subject]
  cases hmodulus : relation.modulus with
  | none => rfl
  | some m => exact modulo_eq (h m hmodulus) _

/-! ### Ranges -/

variable {low high : Decimal} {fault : RuleFault} {units scale places last : Nat}

/-- The step behind a number that can be represented fits a double word. -/
theorem next_lt (hunits : units < wordLimit * Decimal.power scale)
    (hscale : scale ≤ Decimal.maxDigits) (hplaces : places ≤ Decimal.maxDigits) :
    units + Decimal.power places < Decimal.doubleWordLimit := by
  have hroom : (wordLimit + 1) * Decimal.power Decimal.maxDigits < Decimal.doubleWordLimit := by
    decide
  have hlimit := Nat.mul_le_mul_left wordLimit (Decimal.power_le hscale)
  have hstep := Decimal.power_le hplaces
  rw [Nat.add_mul, Nat.one_mul] at hroom
  omega

theorem ofScaled_eq (hunits : units < wordLimit * Decimal.power scale)
    (hscale : scale ≤ Decimal.maxDigits) :
    ofScaled fault units scale = .ok (Decimal.ofUnits units scale) := by
  have hpos := Decimal.power_pos scale
  have hunit : Decimal.below? Decimal.doubleWordLimit (Decimal.power scale)
      = some (Decimal.power scale) :=
    if_pos (Decimal.power_lt hscale)
  have hinteger : Decimal.below? wordLimit (units / Decimal.power scale)
      = some (units / Decimal.power scale) :=
    if_pos ((Nat.div_lt_iff_lt_mul hpos).2 hunits)
  have hfraction : units % Decimal.power scale < Decimal.power scale := Nat.mod_lt _ hpos
  have hword : Decimal.below? wordLimit (units % Decimal.power scale)
      = some (units % Decimal.power scale) :=
    if_pos (hfraction.trans (Decimal.power_lt_wordLimit hscale))
  rw [ofScaled, hunit, checked_bind, require_bind (Nat.ne_of_gt hpos), hinteger, checked_bind,
    hword, checked_bind]
  exact make_eq hscale hfraction

/-- Counting up gives the numbers of units that are reached. -/
theorem countUp_eq (hlast : last < wordLimit * Decimal.power scale)
    (hscale : scale ≤ Decimal.maxDigits) (hplaces : places ≤ Decimal.maxDigits) {n : Nat}
    (h : ∀ k, k < n ↔ units + k * Decimal.power places ≤ last) :
    countUp fault places scale last units
      = .ok ((List.range n).map fun k =>
          Decimal.ofUnits (units + k * Decimal.power places) scale) := by
  induction n generalizing units with
  | zero =>
    have hpassed : ¬units ≤ last := by simpa using h 0
    rw [countUp, if_neg hpassed]
    rfl
  | succ n ih =>
    have hreached : units ≤ last := by simpa using h 0
    have hunits := Nat.lt_of_le_of_lt hreached hlast
    have hmore := @ih (units + Decimal.power places) fun k => by
      rw [← Nat.succ_lt_succ_iff, h, Nat.succ_mul]
      omega
    rw [countUp, if_pos hreached, ofScaled_eq hunits hscale]
    show (require _ _ >>= _) = _
    rw [require_bind (next_lt hunits hscale hplaces), hmore, List.range_succ_eq_map, List.map_cons,
      List.map_map, Nat.zero_mul, Nat.add_zero]
    show Except.ok _ = Except.ok _
    refine congrArg (fun more => Except.ok (_ :: more)) (List.map_congr_left fun k _ => ?_)
    rw [Function.comp_apply, Nat.succ_mul, Nat.add_assoc, Nat.add_comm (Decimal.power places)]

theorem checkLength_eq {step : Nat} (hstep : 0 < step) (start last : Nat) :
    checkLength fault step start last
      = if (last - start) / step > Sample.maxSteps then .error (.fault fault) else .ok () := by
  rw [checkLength]
  split
  · rw [require_bind (Nat.ne_of_gt hstep), require]
    by_cases hfew : (last - start) / step ≤ Sample.maxSteps
    · rw [if_pos hfew, if_neg (Nat.not_lt_of_le hfew)]
    · rw [if_neg hfew, if_pos (Nat.lt_of_not_le hfew)]
  next hdown =>
    have hnone : (last - start) / step = 0 := by
      rw [Nat.sub_eq_zero_of_le (Nat.le_of_not_lt hdown), Nat.zero_div]
    rw [hnone, if_neg (Nat.not_lt_zero _)]
    rfl

/-- From the number behind the lower end on, counting up gives the samples of a range. -/
theorem countUp_counted (hhigh : high.Representable)
    (hscale : max low.digits high.digits ≤ Decimal.maxDigits) :
    countUp fault (max low.digits high.digits - high.digits) (max low.digits high.digits)
        (high.units (max low.digits high.digits))
        (low.units (max low.digits high.digits)
          + Decimal.power (max low.digits high.digits - high.digits))
      = .ok (Sample.counted low high) := by
  have hlast := Decimal.units_lt hhigh (le_max_right low.digits _)
  have hplaces := (Nat.sub_le (max low.digits high.digits) high.digits).trans hscale
  rw [countUp_eq hlast hscale hplaces (n := Sample.stepCount low high) fun k => by
    rw [Sample.lt_stepCount_iff, Nat.succ_mul, Nat.add_assoc, Nat.add_comm (Decimal.power _)]]
  refine congrArg Except.ok (List.map_congr_left fun k _ => ?_)
  rw [Nat.succ_mul, Nat.add_assoc, Nat.add_comm (Decimal.power _)]

/-- **A range is counted out in words as in natural numbers.** -/
theorem steps_eq (hlow : low.Representable) (hhigh : high.Representable) :
    steps low high = reported (Sample.steps low high) := by
  have hscale : max low.digits high.digits ≤ Decimal.maxDigits := max_le hlow.digits hhigh.digits
  have hplaces := (Nat.sub_le (max low.digits high.digits) high.digits).trans hscale
  have hstart := Decimal.scaled?_eq_some hlow (le_max_left _ high.digits) hscale
  have hlast := Decimal.scaled?_eq_some hhigh (le_max_right low.digits _) hscale
  have hstep : Decimal.below? Decimal.doubleWordLimit
      (Decimal.power (max low.digits high.digits - high.digits))
      = some (Decimal.power (max low.digits high.digits - high.digits)) :=
    if_pos (Decimal.power_lt hplaces)
  have hnext := next_lt (Decimal.units_lt hlow (le_max_left _ high.digits)) hscale hplaces
  rw [Sample.steps_eq hlow hhigh, steps, require_bind (le_max_right _ _), hstep, checked_bind,
    hstart, checked_bind, hlast, checked_bind, checkLength_eq (Decimal.power_pos _),
    ← Sample.stepCount]
  by_cases hlong : Sample.stepCount low high > Sample.maxSteps
  · rw [if_pos hlong, if_pos hlong]
    rfl
  · rw [if_neg hlong, if_neg hlong]
    show (require _ _ >>= _) = _
    rw [require_bind hnext, countUp_counted hhigh hscale]
    rfl

/-! ### Clauses -/

end Machine

namespace Sample

/-- The number that is left open, if there is one, can be represented. -/
def Pending.Representable : Pending → Prop
  | .nothing => True
  | .lower low | .upper low => low.Representable

variable {low high : Decimal}

theorem steps_ne_rangeOutOfBounds (hlow : low.Representable) (hhigh : high.Representable)
    (first last : Decimal) : steps low high ≠ .error (.rangeOutOfBounds first last) := by
  rw [steps_eq hlow hhigh]
  split <;> simp

end Sample

namespace Machine

/-- Tokens list the same samples in words, whatever is left open before them. -/
theorem ofTokens_eq {pending : Sample.Pending} {tokens : List Token}
    (hpending : pending.Representable) :
    ofTokens pending tokens = reported (Sample.ofTokens pending tokens) := by
  fun_induction Sample.ofTokens pending tokens with
  | case1 low => rfl
  | case2 => rfl
  | case3 low => rfl
  | case4 token tokens pending hkind hnone => exact ofTokens.eq_4 token tokens pending hkind hnone
  | case5 token tokens hkind high low hvalue ih =>
    have hhigh := Decimal.representable_of_parse? hvalue
    rw [ofTokens.eq_5 token tokens high low hkind hvalue, steps_eq hpending hhigh, ih trivial]
    simp only [reported_bind]
    rfl
  | case6 token tokens pending hkind x hvalue hopen ih =>
    have hx := Decimal.representable_of_parse? hvalue
    rw [ofTokens.eq_6 token tokens pending x hkind hvalue hopen, ih hx, reported_map]
  | case7 token tokens low hkind ih =>
    rw [ofTokens.eq_7 token tokens low hkind]
    exact ih hpending
  | case8 pending token tokens hkind hopen => exact ofTokens.eq_8 token tokens pending hkind hopen
  | case9 token tokens pending hnumber hopen hrange ih =>
    rw [ofTokens.eq_9 token tokens pending hnumber hrange hopen]
    exact ih hpending

/-- **A clause is expanded in words as in natural numbers.** -/
theorem expand_eq (clause : Text) : expand clause = reported (Sample.expand clause) := by
  rw [expand, Sample.expand, reported_bind]
  refine congrArg (reported (Token.ofSamples clause) >>= ·) (funext fun tokens => ?_)
  exact ofTokens_eq trivial

end Machine

namespace Token

theorem ofSamplesFrom_ne_rangeOutOfBounds (low high : Decimal) (read : List Token) (text : Text) :
    ofSamplesFrom read text ≠ .error (.rangeOutOfBounds low high) := by
  fun_induction ofSamplesFrom read text with
  | case1 read => simp
  | case2 read c rest hblank ih => exact ih
  | case3 read c rest hblank hletter hbase => simp
  | case4 read c rest hblank hletter earlier hbase ih => exact ih
  | case5 read c rest hblank hletter fault hread =>
    rw [eq_signFault_of_sampleToken hread, signFault]
    split <;> simp
  | case6 read c rest hblank hletter token after hread ih => exact ih

end Token

namespace Sample

theorem ofTokens_ne_rangeOutOfBounds {pending : Pending} {tokens : List Token}
    (hpending : pending.Representable) (low high : Decimal) :
    ofTokens pending tokens ≠ .error (.rangeOutOfBounds low high) := by
  fun_induction ofTokens pending tokens with
  | case1 low => simp
  | case2 => simp
  | case3 low => simp
  | case4 token tokens pending hkind hnone => simp
  | case5 token tokens hkind last first hvalue ih =>
    have hlast := Decimal.representable_of_parse? hvalue
    simp only [ne_eq, Outcome.bind_eq_error_iff, not_or, not_exists, not_and]
    refine ⟨steps_ne_rangeOutOfBounds hpending hlast low high, fun samples _ => ?_⟩
    exact ⟨ih trivial, fun more _ => by simp [pure, Except.pure]⟩
  | case6 token tokens pending hkind x hvalue hopen ih =>
    have hx := Decimal.representable_of_parse? hvalue
    rw [ne_eq, Outcome.map_eq_error_iff]
    exact ih hx
  | case7 token tokens low hkind ih => exact ih hpending
  | case8 pending token tokens hkind hopen => simp
  | case9 token tokens pending hnumber hopen hrange ih => exact ih hpending

/-- No range of a clause leaves the numbers that can be represented. -/
theorem expand_ne_rangeOutOfBounds (clause : Text) (low high : Decimal) :
    expand clause ≠ .error (.rangeOutOfBounds low high) := by
  rw [expand, ne_eq, Outcome.bind_eq_error_iff]
  rintro (htokens | ⟨tokens, -, hsamples⟩)
  · exact Token.ofSamplesFrom_ne_rangeOutOfBounds low high [] clause htokens
  · have hnothing : Pending.nothing.Representable := trivial
    exact ofTokens_ne_rangeOutOfBounds hnothing low high hsamples

end Sample

/-! ### Keeping to words -/

/-- A number keeps to machine words: to the digits that it may have, and with what is computed of it
in words to what is computed without regard to them. -/
structure Decimal.KeepsToWords (x : Decimal) : Prop where
  /-- There are not too many fraction digits. -/
  digits : x.digits ≤ maxDigits
  /-- They form a number below the power of ten with so many zeros. -/
  fraction : x.fraction < 10 ^ x.digits
  /-- The operands are made, and are the same in words. -/
  value : ∀ operand : Operand,
    (operand.value x).Made ∧ Machine.value x operand = .ok (operand.value x)
  /-- A positive modulus gives the same in words. -/
  modulo : ∀ m, 0 < m → Machine.modulo x m = .ok (x.modulo m)
  /-- Expressed in units of a place that loses no digits, and made of these units again, it has the
  same absolute value, and its digits are those up to that place. -/
  units : ∀ scale, x.digits ≤ scale → scale ≤ maxDigits →
    ∃ units y, x.scaled? scale = some units ∧ ofScaled? units scale = some y
      ∧ y.compare x.abs = .eq ∧ y.toRat = x.abs.toRat ∧ y.digits = scale

theorem Decimal.Representable.exists_units {x : Decimal} (hx : x.Representable) {scale : Nat}
    (h : x.digits ≤ scale) (hscale : scale ≤ maxDigits) :
    ∃ units y, x.scaled? scale = some units ∧ ofScaled? units scale = some y
      ∧ y.compare x.abs = .eq ∧ y.toRat = x.abs.toRat ∧ y.digits = scale := by
  have habs : x.abs.IsSample := ⟨rfl, hx.wellFormed.abs, hx.digits, hx.integer⟩
  have hvalue : (ofUnits (x.units scale) scale).toRat = x.abs.toRat :=
    (toRat_ofUnits _ _).trans (habs.toRat_eq_units h).symm
  have hcompare := (compare_eq_eq_iff (wellFormed_ofUnits _ _) habs.wellFormed).2 hvalue
  exact ⟨x.units scale, ofUnits (x.units scale) scale, scaled?_eq_some hx h hscale,
    ofScaled?_eq_some (units_lt hx h) hscale, hcompare, hvalue, rfl⟩

theorem Decimal.Made.keepsToWords {x : Decimal} (hx : x.Made) : x.KeepsToWords where
  digits := hx.representable.digits
  fraction := hx.representable.wellFormed
  value operand := ⟨operand.made_value hx, Machine.value_eq x operand⟩
  modulo _ hm := Machine.modulo_eq hm x
  units _ h hscale := hx.representable.exists_units h hscale

namespace Machine

/-- **Nothing leaves the machine words.** The numbers that are made keep to words, and so does
making them of natural numbers and integers. Between two of them a range is counted out in words as
it is in natural numbers, and what is made of units on the way are such numbers again. Every clause
is expanded in words as it is in natural numbers, and never fails because a range leaves the numbers
that can be represented. In a condition that tokens state all moduli are positive, so no operand is
divided by zero. -/
theorem keepsToWords_of_made :
    (∀ x : Decimal, x.Made → x.KeepsToWords)
    ∧ (∀ n, ofNat n = .ok (.ofNat n)) ∧ (∀ i, ofInt i = .ok (.ofInt i))
    ∧ (∀ low high : Decimal, low.Made → high.Made →
        steps low high = reported (Sample.steps low high)
        ∧ ∀ units x, Decimal.ofScaled? units (max low.digits high.digits) = some x → x.Made)
    ∧ (∀ clause, expand clause = reported (Sample.expand clause)
        ∧ ∀ low high, Sample.expand clause ≠ .error (.rangeOutOfBounds low high))
    ∧ ∀ tokens condition, Condition.ofTokens tokens = .ok condition →
        ∀ relation ∈ condition.relations,
          (∀ m ∈ relation.modulus, 0 < m)
          ∧ ∀ x, subject relation x = .ok (relation.subject x) := by
  refine ⟨fun x hx => hx.keepsToWords, ofNat_eq, ofInt_eq, fun low high hlow hhigh => ?_,
    fun clause => ?_, fun tokens condition h relation hrelation => ?_⟩
  · have hscale := max_le hlow.representable.digits hhigh.representable.digits
    exact ⟨steps_eq hlow.representable hhigh.representable, fun units x hx => .counted hscale hx⟩
  · exact ⟨expand_eq clause, Sample.expand_ne_rangeOutOfBounds clause⟩
  · have hpos := Condition.modulus_pos_of_ofTokens h relation hrelation
    exact ⟨hpos, subject_eq hpos⟩

/-- The last integer of a word. -/
def lastInteger : Nat := 18446744073709551615

/-- The clause `18446744073709551615~18446744073709551615.000000000000000002`. -/
def lastClause : Text :=
  decimal lastInteger ++ '~' :: (decimal lastInteger ++ '.' :: decimalPadded 18 2)

/-- The tokens of `n % -3 = 0`. -/
def reducedTokens : List Token :=
  [⟨.operand, ['n']⟩, ⟨.modulus, ['%']⟩, ⟨.number, ['-', '3']⟩, ⟨.equals, ['=']⟩,
    ⟨.number, ['0']⟩]

theorem keepsToWords_of_made_lastInteger :
    (∃ units y, (⟨true, lastInteger, 9, 1⟩ : Decimal).scaled? 18 = some units
        ∧ Decimal.ofScaled? units 18 = some y ∧ y.digits = 18
        ∧ y.compare ⟨false, lastInteger, 9, 1⟩ = .eq)
      ∧ steps (.ofNat lastInteger) ⟨false, lastInteger, 2, 18⟩
        = .ok [⟨false, lastInteger, 1, 18⟩, ⟨false, lastInteger, 2, 18⟩]
      ∧ expand lastClause
        = .ok [.ofNat lastInteger, ⟨false, lastInteger, 1, 18⟩, ⟨false, lastInteger, 2, 18⟩]
      ∧ ∃ relation : Relation, Condition.ofTokens reducedTokens = .ok (.relation relation)
        ∧ relation.modulus = some 3
        ∧ subject relation ⟨true, lastInteger, 9, 1⟩ = .ok ⟨false, 0, 9, 1⟩ := by
  have hsigned : Decimal.Made ⟨true, lastInteger, 9, 1⟩ :=
    Decimal.made_iff_representable.2 ⟨by decide, by decide, by decide⟩
  have hlow : Decimal.Made (.ofNat lastInteger) := .ofNat (by decide)
  have hhigh : Decimal.Made ⟨false, lastInteger, 2, 18⟩ :=
    Decimal.made_iff_representable.2 ⟨by decide, by decide, by decide⟩
  have hsteps : Sample.steps (.ofNat lastInteger) ⟨false, lastInteger, 2, 18⟩
      = .ok [⟨false, lastInteger, 1, 18⟩, ⟨false, lastInteger, 2, 18⟩] := by
    decide +kernel
  have hsamples : Sample.expand lastClause
      = .ok [.ofNat lastInteger, ⟨false, lastInteger, 1, 18⟩, ⟨false, lastInteger, 2, 18⟩] := by
    decide +kernel
  have hcompiled : Condition.ofTokens reducedTokens
      = .ok (.relation ⟨.n, some 3, .equal, [⟨.ofNat 0, .ofNat 0⟩]⟩) := by
    decide +kernel
  obtain ⟨hnumbers, -, -, hranges, hclauses, hrules⟩ := keepsToWords_of_made
  obtain ⟨units, y, hunits, hy, hcompare, -, hdigits⟩ :=
    (hnumbers _ hsigned).units 18 (by decide) (by decide)
  obtain ⟨-, hsubject⟩ := hrules _ _ hcompiled _ List.mem_cons_self
  refine ⟨⟨units, y, hunits, hy, hdigits, hcompare⟩, ?_, ?_, _, hcompiled, rfl, hsubject _⟩
  · rw [(hranges _ _ hlow hhigh).1, hsteps]
    rfl
  · rw [(hclauses lastClause).1, hsamples]
    rfl

end Machine

end MessageCatalog
