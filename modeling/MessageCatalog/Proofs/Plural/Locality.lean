import MessageCatalog.Proofs.Plural.Listing

/-!
# Samples of two clauses

The samples of two clauses with a comma between them are those of the one and then those of the
other, whenever both clauses are accepted. The converse fails: the comma is read and forgotten, so a
range may have its lower end in front of it and its upper end behind, as in `1, ~5`, although one of
the two clauses is then refused when it stands alone. `expand_comma_iff` says that nothing else can
go wrong.

Between the ends of a range there is nothing but what lists no samples: separators, ellipses and
numbers in exponent notation.
-/

namespace MessageCatalog.Sample

variable {a b : List Token} {samples s t : List Decimal}

theorem Lists.append (ha : Lists a s) (hb : Lists b t) : Lists (a ++ b) (s ++ t) := by
  induction ha with
  | nil => exact hb
  | number hkind hvalue _ ih => exact .number hkind hvalue ih
  | @range first sign last low more tokens samples h _ ih =>
    simp only [List.cons_append, List.append_assoc]
    exact .range h ih

/-- Tokens cut inside a range: the samples that are listed before it, its own, and those behind. -/
inductive Straddles : List Token → List Token → List Decimal → Prop where
  /-- The cut is in front of the range sign. -/
  | lower {front back : List Token} {first sign last : Token} {low : Decimal}
    {s more t : List Decimal} (hfront : Lists front s) (h : IsRange first sign last low more)
    (hback : Lists back t) :
    Straddles (front ++ [first]) (sign :: last :: back) (s ++ low :: (more ++ t))
  /-- The cut is behind the range sign. -/
  | upper {front back : List Token} {first sign last : Token} {low : Decimal}
    {s more t : List Decimal} (hfront : Lists front s) (h : IsRange first sign last low more)
    (hback : Lists back t) :
    Straddles (front ++ [first, sign]) (last :: back) (s ++ low :: (more ++ t))

/-- Items in front of a cut range. -/
theorem Straddles.append {front : List Token} (hfront : Lists front s) (h : Straddles a b t) :
    Straddles (front ++ a) b (s ++ t) := by
  cases h with
  | lower hmore hrange hback =>
    rw [← List.append_assoc, ← List.append_assoc]
    exact .lower (hfront.append hmore) hrange hback
  | upper hmore hrange hback =>
    rw [← List.append_assoc, ← List.append_assoc]
    exact .upper (hfront.append hmore) hrange hback

/-- Tokens that are cut inside a range list samples together. -/
theorem Straddles.lists (h : Straddles a b samples) : Lists (a ++ b) samples := by
  cases h with
  | lower hfront hrange hback =>
    rw [List.append_assoc]
    exact hfront.append (.range hrange hback)
  | upper hfront hrange hback =>
    rw [List.append_assoc]
    exact hfront.append (.range hrange hback)

/-- Tokens that are cut inside a range do not both list samples. -/
theorem Straddles.not_both (h : Straddles a b samples) : ¬(Lists a s ∧ Lists b t) := by
  rintro ⟨ha, hb⟩
  cases h with
  | lower _ hrange _ => cases hrange.sign_kind.symm.trans hb.kind_eq
  | upper _ hrange _ =>
    cases hrange.sign_kind.symm.trans (ha.getLast_kind_eq _ (by simp))

/-- The samples of tokens are those of two parts of them, unless a range is cut. -/
theorem lists_append_iff :
    Lists (a ++ b) samples ↔
      (∃ s t, Lists a s ∧ Lists b t ∧ samples = s ++ t) ∨ Straddles a b samples := by
  constructor
  · intro h
    generalize htokens : a ++ b = tokens at h
    induction h generalizing a with
    | nil =>
      obtain ⟨rfl, rfl⟩ := List.append_eq_nil_iff.1 htokens
      exact .inl ⟨[], [], .nil, .nil, rfl⟩
    | @number token x tokens samples hkind hvalue hmore ih =>
      rcases List.append_eq_cons_iff.1 htokens with ⟨rfl, rfl⟩ | ⟨a, rfl, hrest⟩
      · exact .inl ⟨[], _, .nil, .number hkind hvalue hmore, rfl⟩
      · have htoken : Lists [token] [x] := .number hkind hvalue .nil
        rcases ih hrest.symm with ⟨s, t, ha, hb, rfl⟩ | hcut
        · exact .inl ⟨x :: s, t, htoken.append ha, hb, rfl⟩
        · exact .inr (Straddles.append htoken hcut)
    | @range first sign last low more tokens samples hrange hmore ih =>
      have hitem : Lists [first, sign, last] (low :: more) := by
        simpa using Lists.range hrange .nil
      rcases a with _ | ⟨_, _ | ⟨_, _ | ⟨_, a⟩⟩⟩
      · obtain rfl := htokens
        exact .inl ⟨[], _, .nil, .range hrange hmore, rfl⟩
      · -- the cut is behind the lower end
        obtain ⟨rfl, rfl⟩ := List.cons.inj htokens
        exact .inr (.lower .nil hrange hmore)
      · -- the cut is behind the sign
        simp only [List.cons_append, List.nil_append, List.cons.injEq] at htokens
        obtain ⟨rfl, rfl, rfl⟩ := htokens
        exact .inr (.upper .nil hrange hmore)
      · simp only [List.cons_append, List.cons.injEq] at htokens
        obtain ⟨rfl, rfl, rfl, hrest⟩ := htokens
        rcases ih hrest with ⟨s, t, ha, hb, rfl⟩ | hcut
        · exact .inl ⟨low :: more ++ s, t, hitem.append ha, hb, by simp⟩
        · have hall := Straddles.append hitem hcut
          exact .inr (by simpa using hall)
  · rintro (⟨s, t, ha, hb, rfl⟩ | hcut)
    · exact ha.append hb
    · exact hcut.lists

/-- A range sign among tokens that list samples has a number on each side. -/
theorem Lists.numbers_around {sign : Token} (h : Lists (a ++ sign :: b) samples)
    (hkind : sign.kind = .range) :
    (∃ lower ∈ a.getLast?, lower.kind = .number) ∧ ∃ upper ∈ b.head?, upper.kind = .number := by
  rcases lists_append_iff.1 h with ⟨s, t, -, hb, -⟩ | hcut
  · cases hkind.symm.trans hb.kind_eq
  · cases hcut with
    | @lower front _ first _ last _ _ _ _ _ hrange _ =>
      exact ⟨⟨first, by simp, hrange.first_kind⟩, ⟨last, rfl, hrange.last_kind⟩⟩
    | upper _ hrange _ => cases hkind.symm.trans hrange.last_kind

/-! ### A comma between two clauses -/

variable {front back : Text}

/-- Two clauses that hold a range together: its lower end stands in the one and its upper end in the
other. With it come the samples that both list together. -/
def RangeAcross (front back : Text) (samples : List Decimal) : Prop :=
  ∃ tokens more, Token.ofSamples front = .ok tokens ∧ Token.ofSamples back = .ok more ∧
    Straddles (tokens.filter isListing) (more.filter isListing) samples

/-- The tokens of two clauses list samples as if there were no separator between them. -/
theorem expand_append_separator {separator : Token} (h : separator ∈ Token.separators)
    (front back : Text) :
    expand (front ++ (separator.text ++ back)) = .ok samples ↔
      ∃ tokens more, Token.ofSamples front = .ok tokens ∧ Token.ofSamples back = .ok more ∧
        Lists (tokens.filter isListing ++ more.filter isListing) samples := by
  have hseparates : ∀ separator ∈ Token.separators, isListing separator = false := by decide
  have hfilter : ∀ tokens more : List Token, (tokens ++ separator :: more).filter isListing
      = tokens.filter isListing ++ more.filter isListing := by
    simp [hseparates separator h]
  rw [expand_eq_ok_iff, Token.ofSamples_append_separator h]
  simp only [Outcome.bind_eq_ok_iff, pure, Except.pure, Except.ok.injEq]
  constructor
  · rintro ⟨_, ⟨tokens, hfront, more, hback, rfl⟩, hlists⟩
    rw [hfilter] at hlists
    exact ⟨tokens, more, hfront, hback, hlists⟩
  · rintro ⟨tokens, more, hfront, hback, hlists⟩
    rw [← hfilter] at hlists
    exact ⟨_, ⟨tokens, hfront, more, hback, rfl⟩, hlists⟩

/-- Of two clauses that hold a range together one is refused when it stands alone. -/
theorem RangeAcross.not_both (h : RangeAcross front back samples) :
    ¬(expand front = .ok s ∧ expand back = .ok t) := by
  rintro ⟨hs, ht⟩
  obtain ⟨tokens, more, hfront, hback, hcut⟩ := h
  obtain ⟨tokens', hfront', hlists⟩ := expand_eq_ok_iff.1 hs
  obtain ⟨more', hback', hlists'⟩ := expand_eq_ok_iff.1 ht
  obtain rfl := Except.ok.inj (hfront.symm.trans hfront')
  obtain rfl := Except.ok.inj (hback.symm.trans hback')
  exact hcut.not_both ⟨hlists, hlists'⟩

/-- The samples of two clauses with a separator between them, with or without a range across it. -/
theorem expand_append_separator_iff {separator : Token} (h : separator ∈ Token.separators)
    (front back : Text) :
    expand (front ++ (separator.text ++ back)) = .ok samples ↔
      (∃ s t, expand front = .ok s ∧ expand back = .ok t ∧ samples = s ++ t)
        ∨ RangeAcross front back samples := by
  rw [expand_append_separator h]
  simp only [lists_append_iff, expand_eq_ok_iff]
  constructor
  · rintro ⟨tokens, more, hfront, hback, ⟨s, t, hs, ht, rfl⟩ | hcut⟩
    · exact .inl ⟨s, t, ⟨tokens, hfront, hs⟩, ⟨more, hback, ht⟩, rfl⟩
    · exact .inr ⟨tokens, more, hfront, hback, hcut⟩
  · rintro (⟨s, t, ⟨tokens, hfront, hs⟩, ⟨more, hback, ht⟩, rfl⟩ |
      ⟨tokens, more, hfront, hback, hcut⟩)
    · exact ⟨tokens, more, hfront, hback, .inl ⟨s, t, hs, ht, rfl⟩⟩
    · exact ⟨tokens, more, hfront, hback, .inr hcut⟩

/-- A comma is written with a space behind it. -/
theorem expand_comma_eq_ok_iff :
    expand (front ++ [',', ' '] ++ back) = .ok samples ↔
      (∃ s t, expand front = .ok s ∧ expand back = .ok t ∧ samples = s ++ t)
        ∨ RangeAcross front back samples := by
  have hcomma : (⟨.comma, [',']⟩ : Token) ∈ Token.separators := by decide
  have hblank : Token.ofSamples (' ' :: back) = Token.ofSamples back :=
    Token.ofSamplesFrom_blank rfl [] back
  have hexpand : expand (' ' :: back) = expand back := by rw [expand, hblank, expand]
  have hacross : RangeAcross front (' ' :: back) samples ↔ RangeAcross front back samples := by
    rw [RangeAcross, hblank, RangeAcross]
  rw [List.append_assoc, ← hexpand, ← hacross]
  exact expand_append_separator_iff hcomma front (' ' :: back)

/-- **Samples are local to a clause unless a range goes across.** A clause with a comma in it lists
the samples of the parts before and behind it, or the two parts hold a range together; the first
alone is what happens exactly if there is no such range. In every clause that is accepted a range
sign has a number on each side of it, apart from what lists nothing. -/
theorem expand_comma_iff (front back : Text) :
    (∀ samples, expand (front ++ [',', ' '] ++ back) = .ok samples ↔
      (∃ s t, expand front = .ok s ∧ expand back = .ok t ∧ samples = s ++ t)
        ∨ RangeAcross front back samples)
    ∧ ((∀ samples, expand (front ++ [',', ' '] ++ back) = .ok samples ↔
          ∃ s t, expand front = .ok s ∧ expand back = .ok t ∧ samples = s ++ t)
        ↔ ¬∃ samples, RangeAcross front back samples)
    ∧ ∀ clause samples tokens before sign behind, expand clause = .ok samples →
        Token.ofSamples clause = .ok tokens →
        tokens.filter isListing = before ++ sign :: behind → sign.kind = .range →
        (∃ lower ∈ before.getLast?, lower.kind = .number)
          ∧ ∃ upper ∈ behind.head?, upper.kind = .number := by
  refine ⟨fun samples => expand_comma_eq_ok_iff, ⟨?_, ?_⟩, ?_⟩
  · rintro hlocal ⟨samples, hacross⟩
    obtain ⟨s, t, hs, ht, -⟩ := (hlocal samples).1 (expand_comma_eq_ok_iff.2 (.inr hacross))
    exact hacross.not_both ⟨hs, ht⟩
  · intro hnone samples
    rw [expand_comma_eq_ok_iff]
    exact or_iff_left fun hacross => hnone ⟨samples, hacross⟩
  · intro clause samples tokens before sign behind hexpand htokens hsplit hkind
    obtain ⟨tokens', htokens', hlists⟩ := expand_eq_ok_iff.1 hexpand
    obtain rfl := Except.ok.inj (htokens.symm.trans htokens')
    rw [hsplit] at hlists
    exact hlists.numbers_around hkind

/-- There are clauses that hold a range together, such as `1` and `~5`. -/
theorem expand_comma_iff_lowerEnd : ∃ samples, RangeAcross ['1'] ['~', '5'] samples := by
  have hexpand : expand (['1'] ++ [',', ' '] ++ ['~', '5'])
      = .ok [.ofNat 1, .ofNat 2, .ofNat 3, .ofNat 4, .ofNat 5] := by decide +kernel
  have hrefused : expand ['~', '5'] = .error .rangeWithoutLower := by decide +kernel
  rcases ((expand_comma_iff ['1'] ['~', '5']).1 _).1 hexpand with ⟨s, t, -, ht, -⟩ | hacross
  · cases hrefused.symm.trans ht
  · exact ⟨_, hacross⟩

/-- In `1, ~5` a range goes across the comma: the clause is accepted although `~5` is not. -/
theorem expand_range_across_comma :
    expand (['1'] ++ [',', ' '] ++ ['~', '5'])
        = .ok [.ofNat 1, .ofNat 2, .ofNat 3, .ofNat 4, .ofNat 5]
      ∧ ¬∃ s t, expand ['1'] = .ok s ∧ expand ['~', '5'] = .ok t
          ∧ [.ofNat 1, .ofNat 2, .ofNat 3, .ofNat 4, .ofNat 5] = s ++ t := by
  refine ⟨by decide +kernel, ?_⟩
  rintro ⟨s, t, -, ht, -⟩
  have hrefused : expand ['~', '5'] = .error .rangeWithoutLower := by decide +kernel
  cases hrefused.symm.trans ht

end MessageCatalog.Sample
