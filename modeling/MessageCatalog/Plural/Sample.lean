import MessageCatalog.Plural.Condition
import MessageCatalog.Plural.Lexer

/-!
# Sample clauses

The clause behind a plural rule lists numbers to which the rule applies. A range `2~4` stands for
its lower end, which is listed as any other number, and the numbers that follow it in steps of one
unit in the last place of the upper end.

`Sample.expand` lists the samples of a clause, and `Condition.checkSamples` refuses a rule that does
not hold for one of them.
-/

namespace MessageCatalog.Sample

/-- How many steps a range may have. -/
def maxSteps : Nat := 10000

/-- The samples of a range behind its lower end. They have as many fraction digits as the end that
has more. -/
def steps (low high : Decimal) : Except RuleFault (List Decimal) :=
  let scale := max low.digits high.digits
  let unit := Decimal.power (scale - high.digits)
  match Decimal.below? Decimal.doubleWordLimit unit, low.scaled? scale, high.scaled? scale with
  | some step, some start, some last =>
    let count := (last - start) / step
    if count > maxSteps then .error (.rangeTooLong low high maxSteps)
    else match (List.range count).mapM fun k =>
        Decimal.ofScaled? (start + (k + 1) * step) scale with
      | some samples => .ok samples
      | none => .error (.rangeOutOfBounds low high)
  | _, _, _ => .error (.rangeOutOfBounds low high)

/-- What the tokens before a point of a clause leave open. -/
inductive Pending where
  /-- No number that could be the lower end of a range. -/
  | nothing
  /-- A number that is the lower end of a range if a range sign follows. -/
  | lower (low : Decimal)
  /-- A range that waits for its upper end. -/
  | upper (low : Decimal)
  deriving DecidableEq, Repr

/-- The samples that tokens of a clause list. Marks, commas and ellipses only separate. -/
def ofTokens : Pending → List Token → Except RuleFault (List Decimal)
  | .upper _, [] => .error .rangeWithoutUpper
  | .nothing, [] => .ok []
  | .lower _, [] => .ok []
  | pending, token :: tokens =>
    match token.kind, pending with
    | .number, pending =>
      match Decimal.parse? token.text, pending with
      | none, _ => .error .invalidSample
      | some high, .upper low => do
        let samples ← steps low high
        let more ← ofTokens .nothing tokens
        return samples ++ more
      | some x, _ => (ofTokens (.lower x) tokens).map (x :: ·)
    | .range, .lower low => ofTokens (.upper low) tokens
    | .range, _ => .error .rangeWithoutLower
    | _, pending => ofTokens pending tokens

/-- The samples that a clause lists. -/
def expand (clause : Text) : Except RuleFault (List Decimal) := do
  let tokens ← Token.ofSamples clause
  ofTokens .nothing tokens

end MessageCatalog.Sample

namespace MessageCatalog

/-- The samples for which the condition does not hold. -/
def Condition.failing (condition : Condition) (samples : List Decimal) : List Decimal :=
  samples.filter fun x => !condition.holds x

/-- Checks that a condition holds for all samples of a clause. An error about the clause itself
carries the clause, one about its samples the text of the rule. -/
def Condition.checkSamples (condition : Condition) (clause rule : Text) : Except RuleError Unit :=
  match Sample.expand clause with
  | .error fault => .error (.malformed clause fault)
  | .ok samples =>
    match condition.failing samples with
    | [] => .ok ()
    | failing => .error (.failedSamples rule failing)

end MessageCatalog
