import Mathlib.Data.List.Forall2
import MessageCatalog.Proofs.Plural.Locality
import MessageCatalog.Proofs.Plural.Range

/-!
# The samples of a clause, item by item

A clause as it should be is made of items with commas and marks between them. Blanks may stand
around an item and around the sign of a range:

    item      numeral | numeral "~" numeral | numeral ("c" | "e") numeral | "…" | "..."
    clause    [item] | clause ("," | "@integer" | "@decimal") clause

`Writes` says that a text is such a clause and which items it then holds, and `Item.Stands` which
samples an item stands for. The samples of the clause are those of its items, one after the other
(`expand_items`). It does not matter here that `expand` pays no attention to separators: an item of
this grammar never leaves a range open at its end nor starts with a range sign.
-/

namespace MessageCatalog.Sample

open Text Token

/-! ### Items -/

/-- An item of a clause. -/
inductive Item where
  /-- A number. -/
  | number (x : Decimal)
  /-- A range, with its two ends. -/
  | range (low high : Decimal)
  /-- A number in exponent notation or an ellipsis. -/
  | silent

namespace Item

/-- How an item is written. -/
inductive Spells : Text → Item → Prop where
  /-- A number as its numeral. -/
  | number {text : Text} {x : Decimal} (h : IsNumeral text) (hx : Decimal.parse? text = some x) :
    Spells text (.number x)
  /-- A range as the numerals of its ends, with the sign between them and blanks around it. -/
  | range {first gap space last : Text} {low high : Decimal} (hfirst : IsNumeral first)
    (hlow : Decimal.parse? first = some low) (hgap : gap.all isBlank = true)
    (hspace : space.all isBlank = true) (hlast : IsNumeral last)
    (hhigh : Decimal.parse? last = some high) :
    Spells (first ++ (gap ++ ('~' :: (space ++ last)))) (.range low high)
  /-- Exponent notation as two numerals of any size, with nothing between them but the letter. -/
  | exponent {base exponent : Text} {letter : Char} (hbase : IsNumeral base)
    (hletter : isExponentLetter letter = true) (hexponent : IsNumeral exponent) :
    Spells (base ++ letter :: exponent) .silent
  /-- An ellipsis as one character. -/
  | ellipsis : Spells ['…'] .silent
  /-- An ellipsis as three points. -/
  | points : Spells ['.', '.', '.'] .silent

/-- The samples that an item stands for. -/
inductive Stands : Item → List Decimal → Prop where
  /-- A number stands for itself, as it is written. -/
  | number (x : Decimal) : Stands (.number x) [x]
  /-- A range stands for its lower end, as it is written, and for what is counted out behind it. -/
  | range {low high : Decimal} {more : List Decimal} (h : Counts low high more) :
    Stands (.range low high) (low :: more)
  /-- The other items stand for nothing. -/
  | silent : Stands .silent []

/-- The item does not count too far: the ends of a range are less than `maxSteps` steps apart, a
step being a unit in the last place of the upper end. -/
def Short : Item → Prop
  | .range low high => (high.toRat - low.toRat) * 10 ^ high.digits < maxSteps
  | _ => True

end Item

variable {text : Text} {item : Item} {samples others : List Decimal} {low high : Decimal}

/-- An item determines its samples. -/
theorem Item.Stands.unique (h : item.Stands samples) (hothers : item.Stands others) :
    samples = others := by
  cases h with
  | number x =>
    cases hothers
    rfl
  | range h =>
    cases hothers with
    | range hothers => rw [h.unique hothers]
  | silent =>
    cases hothers
    rfl

theorem isSample_of_isNumeral {x : Decimal} (h : IsNumeral text)
    (hx : Decimal.parse? text = some x) : x.IsSample := by
  refine Decimal.isSample_of_parse? ?_ hx
  obtain ⟨c, more, rfl, hc⟩ := h.exists_cons
  rintro hsign
  obtain rfl := Option.some.inj hsign
  cases hc

/-- Every item that is written stands for samples. -/
theorem Item.Spells.exists_stands (h : item.Spells text) : ∃ samples, item.Stands samples := by
  cases h with
  | number _ _ => exact ⟨_, .number _⟩
  | range hfirst hlow _ _ hlast hhigh =>
    exact ⟨_, .range (counts_counted (isSample_of_isNumeral hfirst hlow)
      (isSample_of_isNumeral hlast hhigh))⟩
  | exponent _ _ _ | ellipsis | points => exact ⟨_, .silent⟩

/-- A range whose ends are near is not too long. -/
theorem Counts.length_le (h : Counts low high samples)
    (hshort : (Item.range low high).Short) : samples.length ≤ maxSteps := by
  by_contra hlong
  have hreach := (h.reach maxSteps).1 (Nat.lt_of_not_le hlong)
  have hpos : (0 : ℚ) < 10 ^ high.digits := by positivity
  have hsteps : (maxSteps + 1 : ℚ) ≤ (high.toRat - low.toRat) * 10 ^ high.digits := by
    rw [← div_le_iff₀ hpos]
    linarith
  have hshort : (high.toRat - low.toRat) * 10 ^ high.digits < maxSteps := hshort
  linarith

/-! ### The tokens of an item -/

theorem ofSamples_range {first gap space last : Text} (hfirst : IsNumeral first)
    (hgap : gap.all isBlank = true) (hspace : space.all isBlank = true) (hlast : IsNumeral last) :
    ofSamples (first ++ (gap ++ ('~' :: (space ++ last))))
      = .ok [{ kind := .number, text := first }, { kind := .range, text := ['~'] },
          { kind := .number, text := last }] := by
  have hsign : ({ kind := .range, text := ['~'] } : Token) ∈ signs := by decide
  have hdelimited : Delimited (gap ++ ('~' :: (space ++ last))) := by
    cases gap with
    | nil => exact Delimited.cons (by decide) _
    | cons c gap => exact (delimited_of_blanks hgap).append (by simp) _
  have hbehind : ∀ c ∈ (gap ++ ('~' :: (space ++ last))).head?, c.isDigit = false ∧ c ≠ '.' :=
    fun c hc => ⟨hdelimited.not_isDigit c hc, hdelimited.ne_point c hc⟩
  rw [ofSamples, ofSamplesFrom_numeral hfirst hbehind, ofSamplesFrom_blanks hgap]
  show ofSamplesFrom _ (['~'] ++ (space ++ last)) = _
  rw [ofSamplesFrom_sign hsign, ofSamplesFrom_blanks hspace, ofSamplesFrom_of_isNumeral hlast]
  rfl

/-- A number in exponent notation leaves no token behind. -/
theorem ofSamples_exponent {base exponent : Text} {letter : Char} (hbase : IsNumeral base)
    (hletter : isExponentLetter letter = true) (hexponent : IsNumeral exponent) :
    ofSamples (base ++ letter :: exponent) = .ok [] := by
  have hblank : isBlank letter = false ∧ letter.isDigit = false ∧ letter ≠ '.' := by
    simp only [isExponentLetter, Bool.or_eq_true, decide_eq_true_eq] at hletter
    rcases hletter with rfl | rfl <;> decide
  have hbehind : ∀ c ∈ (letter :: exponent).head?, c.isDigit = false ∧ c ≠ '.' := by
    rintro c ⟨⟩
    exact hblank.2
  have hsplit := splitNumber_of_isNumeral hexponent
  obtain ⟨c, more, rfl, hc⟩ := hexponent.exists_cons
  rw [ofSamples, ofSamplesFrom_numeral hbase hbehind, ofSamplesFrom_exponent hblank.1 hletter]
  simp only [dropBase?, hc, and_self, if_true, hsplit, ofSamplesFrom_nil, List.reverse_nil]

/-! ### The samples of an item -/

/-- An item that stands alone is a clause. -/
theorem expand_item (h : item.Spells text) (hshort : item.Short) (hstands : item.Stands samples) :
    expand text = .ok samples := by
  rw [expand_eq_ok_iff]
  cases h with
  | number hnumeral hx =>
    cases hstands
    exact ⟨_, ofSamplesFrom_of_isNumeral hnumeral [], .number rfl hx .nil⟩
  | range hfirst hlow hgap hspace hlast hhigh =>
    cases hstands with
    | @range _ _ more hcounts =>
      have hsteps := (steps_eq_ok_iff (isSample_of_isNumeral hfirst hlow)
        (isSample_of_isNumeral hlast hhigh)).2 ⟨hcounts, hcounts.length_le hshort⟩
      refine ⟨_, ofSamples_range hfirst hgap hspace hlast, ?_⟩
      rw [← List.append_nil more]
      exact .range ⟨rfl, hlow, rfl, rfl, _, hhigh, hsteps⟩ .nil
  | exponent hbase hletter hexponent =>
    cases hstands
    exact ⟨_, ofSamples_exponent hbase hletter hexponent, .nil⟩
  | ellipsis =>
    cases hstands
    exact ⟨[{ kind := .ellipsis, text := ['…'] }], by decide +kernel, .nil⟩
  | points =>
    cases hstands
    exact ⟨[{ kind := .ellipsis, text := ['.', '.', '.'] }], by decide +kernel, .nil⟩

/-! ### Clauses -/

/-- How a clause is written, with the items that it holds. -/
inductive Writes : Text → List Item → Prop where
  /-- Nothing but blanks. -/
  | blank {gap : Text} (h : gap.all isBlank = true) : Writes gap []
  /-- One item with blanks around it. -/
  | item {lead text trail : Text} {item : Item} (hlead : lead.all isBlank = true)
    (h : item.Spells text) (htrail : trail.all isBlank = true) :
    Writes (lead ++ (text ++ trail)) [item]
  /-- Two clauses with a comma or a mark between them. -/
  | separated {front back : Text} {items more : List Item} {separator : Token}
    (hfront : Writes front items) (h : separator ∈ separators) (hback : Writes back more) :
    Writes (front ++ (separator.text ++ back)) (items ++ more)

/-- Blanks around a clause are of no account. -/
theorem expand_blanks {lead trail : Text} (hlead : lead.all isBlank = true)
    (htrail : trail.all isBlank = true) : expand (lead ++ (text ++ trail)) = expand text := by
  have hbehind : ∀ tokens : List Token, ofSamplesFrom tokens.reverse trail = .ok tokens := by
    intro tokens
    have hread := ofSamplesFrom_blanks htrail tokens.reverse []
    rwa [List.append_nil, ofSamplesFrom_nil, List.reverse_reverse] at hread
  have htokens : ofSamples (lead ++ (text ++ trail)) = ofSamples text := by
    rw [ofSamples, ofSamplesFrom_blanks hlead, ofSamplesFrom_append (delimited_of_blanks htrail)]
    simp only [hbehind]
    exact bind_pure (ofSamples text)
  rw [expand, htokens, expand]

theorem expand_of_blanks {gap : Text} (h : gap.all isBlank = true) : expand gap = .ok [] := by
  have hread := ofSamplesFrom_blanks h [] []
  rw [List.append_nil, ofSamplesFrom_nil] at hread
  rw [expand, ofSamples, hread]
  rfl

/-- Every clause that counts nowhere too far is accepted. -/
theorem Writes.exists_expand {clause : Text} {items : List Item} (h : Writes clause items)
    (hshort : ∀ item ∈ items, item.Short) :
    ∃ pieces, List.Forall₂ Item.Stands items pieces ∧ expand clause = .ok pieces.flatten := by
  induction h with
  | blank hgap => exact ⟨[], .nil, expand_of_blanks hgap⟩
  | @item lead text trail item hlead hspells htrail =>
    obtain ⟨samples, hstands⟩ := hspells.exists_stands
    refine ⟨[samples], .cons hstands .nil, ?_⟩
    rw [expand_blanks hlead htrail, List.flatten_singleton]
    exact expand_item hspells (hshort item List.mem_cons_self) hstands
  | @separated front back items more separator _ hseparator _ ihfront ihback =>
    obtain ⟨pieces, hpieces, hfront⟩ :=
      ihfront fun item hitem => hshort item (List.mem_append_left _ hitem)
    obtain ⟨behind, hbehind, hback⟩ :=
      ihback fun item hitem => hshort item (List.mem_append_right _ hitem)
    refine ⟨pieces ++ behind, List.rel_append hpieces hbehind, ?_⟩
    rw [List.flatten_append]
    exact (expand_append_separator_iff hseparator front back).2
      (.inl ⟨_, _, hfront, hback, rfl⟩)

/-- **The samples of a clause** are those of its items, one after the other: expanding it succeeds,
and the items leave no choice as to the samples. -/
theorem expand_items {clause : Text} {items : List Item} (h : Writes clause items)
    (hshort : ∀ item ∈ items, item.Short) :
    ∃ pieces, List.Forall₂ Item.Stands items pieces ∧ expand clause = .ok pieces.flatten
      ∧ ∀ others, List.Forall₂ Item.Stands items others → others = pieces := by
  obtain ⟨pieces, hpieces, hexpand⟩ := h.exists_expand hshort
  have hunique : Relator.RightUnique Item.Stands := fun _ _ _ hx hy => hx.unique hy
  exact ⟨pieces, hpieces, hexpand, fun others hothers => hunique.forall₂ hothers hpieces⟩

/-- The clause `@integer\u00A05 ~ 3, 1c6 @decimal0.75~1.1,1.50, …`: a range that goes down, one
whose ends have different numbers of digits, and items that list nothing. -/
def crowdedClause : Text :=
  ['@', 'i', 'n', 't', 'e', 'g', 'e', 'r', '\u00A0', '5', ' ', '~', ' ', '3', ',', ' ', '1', 'c',
    '6', ' ', '@', 'd', 'e', 'c', 'i', 'm', 'a', 'l', '0', '.', '7', '5', '~', '1', '.', '1', ',',
    '1', '.', '5', '0', ',', ' ', '…']

/-- The items of the clause. -/
def crowdedItems : List Item :=
  [.range (.ofNat 5) (.ofNat 3), .silent, .range (.ofUnits 75 2) (.ofUnits 11 1),
    .number (.ofUnits 150 2), .silent]

theorem writes_crowdedClause : Writes crowdedClause crowdedItems := by
  have hcomma : (⟨.comma, [',']⟩ : Token) ∈ separators := by decide
  have hinteger : (⟨.integerMark, ['@', 'i', 'n', 't', 'e', 'g', 'e', 'r']⟩ : Token)
    ∈ separators := by decide
  have hdecimal : (⟨.decimalMark, ['@', 'd', 'e', 'c', 'i', 'm', 'a', 'l']⟩ : Token)
    ∈ separators := by decide
  have hdigit : ∀ c : Char, c.isDigit = true → IsNumeral [c] := fun c hc =>
    .whole (by simp) (by simpa [allDigits] using hc)
  have hdown : (Item.range (.ofNat 5) (.ofNat 3)).Spells ['5', ' ', '~', ' ', '3'] :=
    @Item.Spells.range ['5'] [' '] [' '] ['3'] _ _ (hdigit '5' rfl) (by decide) rfl rfl
      (hdigit '3' rfl) (by decide)
  have hexponent : Item.silent.Spells ['1', 'c', '6'] :=
    @Item.Spells.exponent ['1'] ['6'] 'c' (hdigit '1' rfl) rfl (hdigit '6' rfl)
  have hlow : IsNumeral ['0', '.', '7', '5'] :=
    @IsNumeral.decimal ['0'] ['7', '5'] (by simp) rfl (by simp) rfl
  have hhigh : IsNumeral ['1', '.', '1'] :=
    @IsNumeral.decimal ['1'] ['1'] (by simp) rfl (by simp) rfl
  have hmixed : (Item.range (.ofUnits 75 2) (.ofUnits 11 1)).Spells
      ['0', '.', '7', '5', '~', '1', '.', '1'] :=
    @Item.Spells.range ['0', '.', '7', '5'] [] [] ['1', '.', '1'] _ _ hlow (by decide) rfl rfl
      hhigh (by decide)
  have hnumber : (Item.number (.ofUnits 150 2)).Spells ['1', '.', '5', '0'] :=
    .number (@IsNumeral.decimal ['1'] ['5', '0'] (by simp) rfl (by simp) rfl) (by decide)
  exact
    .separated (@Writes.blank [] rfl) hinteger <|
    .separated (@Writes.item ['\u00A0'] _ [] _ rfl hdown rfl) hcomma <|
    .separated (@Writes.item [' '] _ [' '] _ rfl hexponent rfl) hdecimal <|
    .separated (@Writes.item [] _ [] _ rfl hmixed rfl) hcomma <|
    .separated (@Writes.item [] _ [] _ rfl hnumber rfl) hcomma <|
    @Writes.item [' '] _ [] _ rfl .ellipsis rfl

theorem expand_items_crowdedClause :
    expand crowdedClause = .ok
        [.ofNat 5, .ofUnits 75 2, .ofUnits 85 2, .ofUnits 95 2, .ofUnits 105 2, .ofUnits 150 2]
      ∧ ∃ pieces, List.Forall₂ Item.Stands crowdedItems pieces
        ∧ expand crowdedClause = .ok pieces.flatten
        ∧ ∀ others, List.Forall₂ Item.Stands crowdedItems others → others = pieces := by
  have hdown : (Item.range (.ofNat 5) (.ofNat 3)).Short := by
    norm_num [Item.Short, Decimal.toRat, Decimal.magnitude, Decimal.ofNat, maxSteps]
  have hmixed : (Item.range (.ofUnits 75 2) (.ofUnits 11 1)).Short := by
    rw [Item.Short, Decimal.toRat_ofUnits, Decimal.toRat_ofUnits]
    norm_num [Decimal.ofUnits, maxSteps]
  have hshort : ∀ item ∈ crowdedItems, item.Short := by
    simp only [crowdedItems, List.forall_mem_cons]
    exact ⟨hdown, trivial, hmixed, trivial, trivial, by simp⟩
  exact ⟨by decide +kernel, expand_items writes_crowdedClause hshort⟩

end MessageCatalog.Sample
