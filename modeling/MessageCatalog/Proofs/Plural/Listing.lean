import MessageCatalog.Proofs.Plural.ClauseTokens

/-!
# What the tokens of a sample clause list

The tokens of a clause, without those that only separate, list samples one after the other: a number
stands for itself, and a number, a range sign and a number stand for a range (`Lists`).
`expand_eq_ok_iff` says that a clause is accepted exactly if its tokens list samples, and gives
these.

Separators are left out of account altogether, so they do not keep the ends of a range together
either: in `1, ~5` the range has its lower end in front of the comma.
-/

namespace MessageCatalog.Sample

/-! ### Items -/

/-- Three tokens that are a range: a number that is its lower end, the sign, and a number that is
its upper end. -/
structure IsRange (first sign last : Token) (low : Decimal) (more : List Decimal) : Prop where
  /-- The first token is a number. -/
  first_kind : first.kind = .number
  /-- It is the lower end. -/
  first_value : Decimal.parse? first.text = some low
  /-- The second token is the sign of a range. -/
  sign_kind : sign.kind = .range
  /-- The third token is a number. -/
  last_kind : last.kind = .number
  /-- From the lower end to it the range can be counted out. -/
  last_value : ∃ high, Decimal.parse? last.text = some high ∧ steps low high = .ok more

/-- The samples that tokens list, item by item. -/
inductive Lists : List Token → List Decimal → Prop where
  /-- No tokens list no samples. -/
  | nil : Lists [] []
  /-- A number stands for itself. -/
  | number {token : Token} {x : Decimal} {tokens : List Token} {samples : List Decimal}
    (hkind : token.kind = .number) (hvalue : Decimal.parse? token.text = some x)
    (hmore : Lists tokens samples) : Lists (token :: tokens) (x :: samples)
  /-- A range stands for its lower end and the samples behind it. -/
  | range {first sign last : Token} {low : Decimal} {more : List Decimal} {tokens : List Token}
    {samples : List Decimal} (h : IsRange first sign last low more) (hmore : Lists tokens samples) :
    Lists (first :: sign :: last :: tokens) (low :: (more ++ samples))

/-- What tokens list behind a range sign: they start with the upper end of the range. -/
inductive Closes (low : Decimal) : List Token → List Decimal → Prop where
  /-- A number as the upper end, and tokens that list samples. -/
  | intro {last : Token} {high : Decimal} {more : List Decimal} {tokens : List Token}
    {samples : List Decimal} (hkind : last.kind = .number)
    (hvalue : Decimal.parse? last.text = some high) (hsteps : steps low high = .ok more)
    (hmore : Lists tokens samples) : Closes low (last :: tokens) (more ++ samples)

/-- The samples that tokens list, with what the tokens before them leave open. -/
def Completes : Pending → List Token → List Decimal → Prop
  | .nothing, tokens, samples => Lists tokens samples
  | .lower low, tokens, samples => Lists tokens samples ∨
      ∃ sign behind, tokens = sign :: behind ∧ sign.kind = .range ∧ Closes low behind samples
  | .upper low, tokens, samples => Closes low tokens samples

variable {token : Token} {tokens : List Token} {samples : List Decimal}

theorem lists_nil_iff : Lists [] samples ↔ samples = [] := by
  constructor
  · intro h
    cases h
    rfl
  · rintro rfl
    exact Lists.nil

theorem lists_number_iff (hkind : token.kind = .number) :
    Lists (token :: tokens) samples ↔ ∃ x, Decimal.parse? token.text = some x ∧
      ∃ more, samples = x :: more ∧ Completes (.lower x) tokens more := by
  constructor
  · intro h
    cases h with
    | number _ hvalue hmore => exact ⟨_, hvalue, _, rfl, .inl hmore⟩
    | range h hmore =>
      obtain ⟨high, hhigh, hsteps⟩ := h.last_value
      exact ⟨_, h.first_value, _, rfl, .inr ⟨_, _, rfl, h.sign_kind,
        .intro h.last_kind hhigh hsteps hmore⟩⟩
  · rintro ⟨x, hvalue, more, rfl, hmore | ⟨sign, behind, rfl, hsign, hcloses⟩⟩
    · exact .number hkind hvalue hmore
    · cases hcloses with
      | intro hlast hhigh hsteps hmore =>
        exact .range ⟨hkind, hvalue, hsign, hlast, _, hhigh, hsteps⟩ hmore

/-- Behind a number, or at the start, a number opens an item. -/
theorem completes_number_iff {pending : Pending} (hkind : token.kind = .number)
    (hpending : ∀ low, pending ≠ .upper low) :
    Completes pending (token :: tokens) samples ↔ ∃ x, Decimal.parse? token.text = some x ∧
      ∃ more, samples = x :: more ∧ Completes (.lower x) tokens more := by
  rw [← lists_number_iff hkind]
  cases pending with
  | nothing => exact Iff.rfl
  | upper low => exact absurd rfl (hpending low)
  | lower low =>
    refine or_iff_left ?_
    rintro ⟨sign, behind, hcons, hsign, -⟩
    rw [← (List.cons.inj hcons).1, hkind] at hsign
    cases hsign

theorem closes_cons_iff {low : Decimal} :
    Closes low (token :: tokens) samples ↔ token.kind = .number ∧
      ∃ high, Decimal.parse? token.text = some high ∧ ∃ more, steps low high = .ok more ∧
        ∃ rest, Lists tokens rest ∧ samples = more ++ rest := by
  constructor
  · rintro ⟨hkind, hvalue, hsteps, hmore⟩
    exact ⟨hkind, _, hvalue, _, hsteps, _, hmore, rfl⟩
  · rintro ⟨hkind, high, hvalue, more, hsteps, rest, hmore, rfl⟩
    exact .intro hkind hvalue hsteps hmore

/-- Samples are not listed by tokens that start with a range sign. -/
theorem Lists.kind_eq (h : Lists (token :: tokens) samples) : token.kind = .number := by
  cases h with
  | number hkind _ _ => exact hkind
  | range h _ => exact h.first_kind

/-- A range sign behind a number asks for the upper end of the range. -/
theorem completes_sign_iff {low : Decimal} (hkind : token.kind = .range) :
    Completes (.lower low) (token :: tokens) samples ↔ Closes low tokens samples := by
  constructor
  · rintro (hlists | ⟨sign, behind, hcons, -, hcloses⟩)
    · cases hkind.symm.trans hlists.kind_eq
    · rw [(List.cons.inj hcons).2]
      exact hcloses
  · intro h
    exact .inr ⟨token, tokens, rfl, hkind, h⟩

/-- Samples are not listed by tokens that end with a range sign. -/
theorem Lists.getLast_kind_eq (h : Lists tokens samples) :
    ∀ token ∈ tokens.getLast?, token.kind = .number := by
  induction h with
  | nil => simp
  | @number token x tokens samples hkind _ _ ih =>
    cases tokens with
    | nil => simpa using hkind
    | cons => simpa [List.getLast?_cons_cons] using ih
  | @range first sign last low more tokens samples h _ ih =>
    cases tokens with
    | nil => simpa using h.last_kind
    | cons => simpa [List.getLast?_cons_cons] using ih

/-! ### Reading token by token -/

/-- Whether a token lists something, and does not only separate. -/
def isListing (token : Token) : Bool := token.kind = .number || token.kind = .range

theorem filter_isListing (h : token.kind = .number ∨ token.kind = .range) :
    (token :: tokens).filter isListing = token :: tokens.filter isListing :=
  List.filter_cons_of_pos (by simpa [isListing] using h)

/-- The reader of tokens follows the grammar, whatever is left open before it. -/
theorem ofTokens_eq_ok_iff_completes {pending : Pending} :
    ofTokens pending tokens = .ok samples ↔
      Completes pending (tokens.filter isListing) samples := by
  fun_induction ofTokens pending tokens generalizing samples with
  | case1 low =>
    constructor
    · rintro ⟨⟩
    · rintro ⟨⟩
  | case2 =>
    show _ ↔ Lists [] samples
    rw [lists_nil_iff, Except.ok.injEq, eq_comm]
  | case3 low =>
    show _ ↔ Lists [] samples ∨ _
    rw [lists_nil_iff, Except.ok.injEq, eq_comm]
    simp
  | case4 token tokens pending hkind hnone =>
    rw [filter_isListing (.inl hkind)]
    refine iff_of_false (by simp) fun h => ?_
    cases pending with
    | upper low =>
      obtain ⟨-, high, hvalue, -⟩ := closes_cons_iff.1 h
      cases hnone.symm.trans hvalue
    | nothing | lower low =>
      obtain ⟨x, hvalue, -⟩ := (completes_number_iff hkind (by simp)).1 h
      cases hnone.symm.trans hvalue
  | case5 token tokens hkind high low hvalue ih =>
    rw [filter_isListing (.inl hkind)]
    show _ ↔ Closes low _ samples
    rw [closes_cons_iff]
    simp only [Outcome.bind_eq_ok_iff, ih, hkind, hvalue, Option.some.injEq, true_and,
      exists_eq_left', pure, Except.pure, Except.ok.injEq]
    constructor
    · rintro ⟨more, hsteps, rest, hrest, rfl⟩
      exact ⟨more, hsteps, rest, hrest, rfl⟩
    · rintro ⟨more, hsteps, rest, hrest, rfl⟩
      exact ⟨more, hsteps, rest, hrest, rfl⟩
  | case6 token tokens pending hkind x hvalue hpending ih =>
    rw [filter_isListing (.inl hkind), completes_number_iff hkind hpending,
      Outcome.map_eq_ok_iff]
    simp only [ih, hvalue, Option.some.injEq, exists_eq_left', and_comm]
  | case7 token tokens low hkind ih =>
    rw [filter_isListing (.inr hkind), ih, completes_sign_iff hkind]
    rfl
  | case8 pending token tokens hkind hpending =>
    rw [filter_isListing (.inr hkind)]
    refine iff_of_false (by simp) fun h => ?_
    cases pending with
    | nothing => cases hkind.symm.trans (Lists.kind_eq h)
    | lower low => exact hpending low rfl
    | upper low => cases hkind.symm.trans (closes_cons_iff.1 h).1
  | case9 token tokens pending hnumber _ hrange ih =>
    rw [ih, List.filter_cons_of_neg]
    simpa [isListing] using And.intro hnumber hrange

/-- **A clause is accepted exactly if its tokens list samples**, the separators left out. -/
theorem expand_eq_ok_iff {clause : Text} :
    expand clause = .ok samples ↔
      ∃ tokens, Token.ofSamples clause = .ok tokens ∧ Lists (tokens.filter isListing) samples := by
  rw [expand, Outcome.bind_eq_ok_iff]
  simp only [ofTokens_eq_ok_iff_completes]
  rfl

end MessageCatalog.Sample
