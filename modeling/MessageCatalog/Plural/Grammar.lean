import MessageCatalog.Plural.Condition
import MessageCatalog.Plural.Fault

/-!
# The grammar of plural rules

    rule     := chain ( "or" chain )*
    chain    := relation ( "and" relation )*
    relation := operand [ "%" number ] ( "=" | "!=" ) range ( "," range )*
    range    := number [ ".." number ]

Each line of the grammar is a `Reader`, which takes what it reads from the front of a list of tokens
and leaves a shorter list. The first token that does not fit decides the fault.
-/

namespace MessageCatalog

/-- Reads something from the front of a list of tokens. -/
structure Reader (α : Type) where
  /-- What was read, and the tokens that are left. -/
  read : List Token → Except RuleFault (α × List Token)
  /-- Reading takes at least one token. -/
  shrinks : ∀ {tokens a rest}, read tokens = .ok (a, rest) → rest.length < tokens.length

namespace Reader

/-- The tokens behind the first one, if that is of the given kind. -/
def accept? (kind : TokenKind) : List Token → Option (List Token)
  | token :: rest => if token.kind = kind then some rest else none
  | [] => none

theorem length_lt_of_accept? {kind : TokenKind} {tokens rest : List Token}
    (h : accept? kind tokens = some rest) : rest.length < tokens.length := by
  cases tokens with
  | nil => simp [accept?] at h
  | cons token tokens =>
    simp only [accept?, Option.ite_none_right_eq_some, Option.some.injEq] at h
    simp [h.2]

/-- Reads a token of one of the given kinds. -/
def expect (kinds : List TokenKind) : Reader Token where
  read
    | token :: rest =>
      if token.kind ∈ kinds then .ok (token, rest) else .error (.expected kinds (some token.text))
    | [] => .error (.expected kinds none)
  shrinks {tokens} _ _ h := by
    cases tokens with
    | nil => simp at h
    | cons token tokens => grind

/-- Reads with `reader` and then converts what was read, which may fail. -/
def check {α β : Type} (reader : Reader α) (convert : α → Except RuleFault β) : Reader β where
  read tokens := do
    let (a, rest) ← reader.read tokens
    let b ← convert a
    return (b, rest)
  shrinks {tokens} _ _ h := by
    match hread : reader.read tokens with
    | .error _ => simp [hread, bind, Except.bind] at h
    | .ok (a, rest) =>
      have := reader.shrinks hread
      simp only [hread, bind, Except.bind, pure, Except.pure] at h
      split at h <;> simp_all

/-- Reads with `first` and then with the reader that `second` makes of what was read. -/
def andThen {α β : Type} (first : Reader α) (second : α → Reader β) : Reader β where
  read tokens := do
    let (a, rest) ← first.read tokens
    (second a).read rest
  shrinks {tokens} _ _ h := by
    match hread : first.read tokens with
    | .error _ => simp [hread, bind, Except.bind] at h
    | .ok (a, rest) =>
      simp only [hread, bind, Except.bind] at h
      exact Nat.lt_trans ((second a).shrinks h) (first.shrinks hread)

/-- Reads with `first` and then, if a token of the given kind follows, that token and what `second`
reads. -/
def andMaybe {α β : Type} (first : Reader α) (kind : TokenKind) (second : Reader β) :
    Reader (α × Option β) where
  read tokens := do
    let (a, rest) ← first.read tokens
    match accept? kind rest with
    | none => return ((a, none), rest)
    | some rest => do
      let (b, rest) ← second.read rest
      return ((a, some b), rest)
  shrinks {tokens} _ _ h := by
    match hread : first.read tokens with
    | .error _ => simp [hread, bind, Except.bind] at h
    | .ok (a, rest) =>
      have hfirst := first.shrinks hread
      simp only [hread, bind, Except.bind, pure, Except.pure] at h
      split at h
      · simp_all
      · next more haccept =>
        have hmore := length_lt_of_accept? haccept
        match hsecond : second.read more with
        | .error _ => simp [hsecond] at h
        | .ok (b, left) =>
          have := second.shrinks hsecond
          simp only [hsecond, Except.ok.injEq, Prod.mk.injEq] at h
          rw [← h.2]
          omega

/-- Reads items with tokens of the kind `separator` between them; there has to be one item. -/
def itemsFrom {α : Type} (separator : TokenKind) (item : Reader α) (tokens : List Token) :
    Except RuleFault (List α × List Token) :=
  match _hitem : item.read tokens with
  | .error fault => .error fault
  | .ok (a, rest) =>
    match _haccept : accept? separator rest with
    | none => .ok ([a], rest)
    | some rest => (itemsFrom separator item rest).map fun (as, rest) => (a :: as, rest)
termination_by tokens.length
decreasing_by
  have := item.shrinks _hitem
  have := length_lt_of_accept? _haccept
  omega

theorem length_lt_of_itemsFrom {α : Type} {separator : TokenKind} {item : Reader α}
    {tokens rest : List Token} {as : List α}
    (h : itemsFrom separator item tokens = .ok (as, rest)) : rest.length < tokens.length := by
  fun_induction itemsFrom separator item tokens generalizing as rest with
  | case1 => simp at h
  | case2 tokens a left hitem =>
    simp only [Except.ok.injEq, Prod.mk.injEq] at h
    rw [← h.2]
    exact item.shrinks hitem
  | case3 tokens a left hitem more haccept ih =>
    match hmore : itemsFrom separator item more with
    | .error _ => simp [hmore, Except.map] at h
    | .ok (bs, left') =>
      simp only [hmore, Except.map, Except.ok.injEq, Prod.mk.injEq] at h
      have := ih hmore
      have := item.shrinks hitem
      have := length_lt_of_accept? haccept
      rw [← h.2]
      omega

/-- Reads items with tokens of the kind `separator` between them; there has to be one item. -/
def items {α : Type} (separator : TokenKind) (item : Reader α) : Reader (List α) where
  read := itemsFrom separator item
  shrinks := length_lt_of_itemsFrom

/-! ### The lines of the grammar -/

/-- Reads a number. -/
def number : Reader Decimal :=
  (expect [.number]).check fun token =>
    match Decimal.parse? token.text with
    | some x => .ok x
    | none => .error (.invalidNumber token.text)

/-- Reads the letter of an operand. -/
def operand : Reader Operand :=
  (expect [.operand]).check fun token =>
    match Operand.parse? token.text with
    | some operand => .ok operand
    | none => .error (.unknownOperand token.text)

/-- Reads a modulus: a number without fraction digits that is not zero. A minus sign is ignored. -/
def modulus : Reader Nat :=
  number.check fun x =>
    if x.digits > 0 || x.isZero then .error (.invalidModulus x) else .ok x.integer

/-- Reads the sign of a comparison. -/
def comparison : Reader Comparison :=
  (expect [.equals, .notEquals]).check fun token =>
    .ok (if token.kind = .equals then .equal else .notEqual)

/-- Reads a range; a single number is a range with equal ends. -/
def bounds : Reader Bounds :=
  (number.andMaybe .range number).check fun (low, high) => .ok { low, high := high.getD low }

/-- Reads a relation. -/
def relation : Reader Relation :=
  (operand.andMaybe .modulus modulus).andThen fun (operand, modulus) =>
    comparison.andThen fun comparison =>
      (items .comma bounds).check fun bounds => .ok { operand, modulus, comparison, bounds }

/-- Reads relations joined by `and`. -/
def chain : Reader Condition :=
  (items .and relation).check fun relations =>
    .ok (Condition.both (relations.map Condition.relation))

/-- Reads a rule: chains joined by `or`. -/
def rule : Reader Condition :=
  (items .or chain).check fun chains => .ok (Condition.either chains)

end Reader

/-- The condition that a list of tokens states. No tokens state no condition at all, and none may be
left behind a rule. -/
def Condition.ofTokens (tokens : List Token) : Except RuleFault Condition :=
  match tokens with
  | [] => .ok .always
  | tokens =>
    match Reader.rule.read tokens with
    | .error fault => .error fault
    | .ok (condition, []) => .ok condition
    | .ok (_, token :: _) => .error (.leftover token.text)

end MessageCatalog
