import Mathlib.Data.Set.Card
import Mathlib.Order.Interval.Finset.Nat
import MessageCatalog.Proofs.Plural.Expansion

/-!
# How many samples a range has

A clause that is a single range lists the lower end of the range and the samples that are counted
out behind it, unless these are too many (`expand_range`). How many samples there are altogether is
`sampleCount`, said in terms of the values of the ends.

The limit `maxSteps` is set to the samples behind the lower end, and the lower end itself is not
counted. So a range is accepted up to one sample more than the limit (`expand_range_iff`), although
a longer one is refused for expanding to more than `maxSteps` samples: `0~10000` is accepted and
lists 10001 samples (`expand_range_exceeds_maxSteps`).
-/

namespace MessageCatalog.Sample

open Text Token

variable {first last : Text} {low high : Decimal} {samples : List Decimal}

/-! ### A clause that is a range -/

/-- A text that is read as a number and has no sign is a numeral. -/
theorem isNumeral_of_parse? {text : Text} {x : Decimal} (hsign : text.head? ≠ some '-')
    (h : Decimal.parse? text = some x) : IsNumeral text := by
  obtain ⟨s, hvalid, rfl, -⟩ := Decimal.parse?_eq_some_iff.1 h
  rw [Decimal.Spelling.text, s.negative_eq_false hsign]
  show IsNumeral s.body
  rw [Decimal.Spelling.body]
  split
  · rw [List.append_nil]
    exact .whole hvalid.integer_ne_nil hvalid.integer_digits
  next hfraction =>
    exact .decimal hvalid.integer_ne_nil hvalid.integer_digits hfraction hvalid.fraction_digits

/-- A clause that is a range lists its lower end and what is counted out behind it. -/
theorem expand_range (hfirst : IsNumeral first) (hlow : Decimal.parse? first = some low)
    (hlast : IsNumeral last) (hhigh : Decimal.parse? last = some high) :
    expand (first ++ '~' :: last) = (steps low high).map (low :: ·) := by
  have htokens := @ofSamples_range first [] [] last hfirst rfl rfl hlast
  rw [List.nil_append, List.nil_append] at htokens
  rw [expand, htokens]
  show ofTokens _ _ = _
  simp only [ofTokens, hlow, hhigh]
  cases steps low high with
  | error fault => rfl
  | ok more =>
    show Except.ok (low :: (more ++ [])) = Except.ok (low :: more)
    rw [List.append_nil]

/-- No range is counted out in more steps than the limit allows. -/
theorem length_steps_le (h : steps low high = .ok samples) : samples.length ≤ maxSteps := by
  unfold steps at h
  dsimp only at h
  split at h
  next step start last _ _ _ =>
    split at h
    next => cases h
    next hfew =>
      split at h
      next counted hcounted =>
        obtain rfl := Except.ok.inj h
        rw [Outcome.length_of_mapM_eq_some hcounted, List.length_range]
        exact Nat.le_of_not_lt hfew
      next => cases h
  next => cases h

/-! ### Counting the samples -/

/-- How many samples a range stands for: the lower end, and each number of steps that leads from it
to a value that is not above the upper end, a step being a unit in the last place of that end. -/
noncomputable def sampleCount (low high : Decimal) : Nat :=
  1 + Set.ncard { k : ℕ | 1 ≤ k ∧ low.toRat + k / 10 ^ high.digits ≤ high.toRat }

theorem sampleCount_eq (hlow : low.IsSample) (hhigh : high.IsSample) :
    sampleCount low high = stepCount low high + 1 := by
  have hsteps : { k : ℕ | 1 ≤ k ∧ low.toRat + k / 10 ^ high.digits ≤ high.toRat }
      = Finset.Icc 1 (stepCount low high) := by
    ext k
    rw [Set.mem_ofPred_eq, Finset.coe_Icc, Set.mem_Icc]
    refine and_congr_right fun hk => ?_
    obtain ⟨k, rfl⟩ := Nat.exists_eq_succ_of_ne_zero (Nat.ne_of_gt hk)
    rw [Nat.succ_eq_add_one, Nat.cast_add_one, ← (counts_counted hlow hhigh).reach,
      length_counted]
    exact Nat.lt_iff_add_one_le
  rw [sampleCount, hsteps, Set.ncard_coe_finset, Nat.card_Icc]
  omega

/-- What a clause that is a range gives, in terms of how many samples it stands for. -/
theorem expand_range_cases (hfirst : first.head? ≠ some '-')
    (hlow : Decimal.parse? first = some low) (hlast : last.head? ≠ some '-')
    (hhigh : Decimal.parse? last = some high) :
    (sampleCount low high ≤ maxSteps + 1
      ∧ ∃ samples, expand (first ++ '~' :: last) = .ok samples
        ∧ samples.length = sampleCount low high)
    ∨ (maxSteps + 1 < sampleCount low high
      ∧ expand (first ++ '~' :: last) = .error (.rangeTooLong low high maxSteps)) := by
  have hlowSample := Decimal.isSample_of_parse? hfirst hlow
  have hhighSample := Decimal.isSample_of_parse? hlast hhigh
  rw [expand_range (isNumeral_of_parse? hfirst hlow) hlow (isNumeral_of_parse? hlast hhigh) hhigh,
    sampleCount_eq hlowSample hhighSample,
    steps_eq hlowSample.representable hhighSample.representable]
  by_cases hlong : stepCount low high > maxSteps
  · rw [if_pos hlong]
    exact .inr ⟨Nat.succ_lt_succ hlong, rfl⟩
  · rw [if_neg hlong]
    refine .inl ⟨Nat.succ_le_succ (Nat.le_of_not_lt hlong), _, rfl, ?_⟩
    rw [List.length_cons, length_counted]

/-- **How far a range may go.** A clause that is a range is accepted exactly if it stands for at most
one sample more than `maxSteps`, and then it lists as many samples as it stands for; otherwise it is
refused as too long. So `maxSteps` bounds the samples of a range in this way exactly if their number
is not `maxSteps + 1`. No range in any clause lists more than `maxSteps + 1` samples. -/
theorem expand_range_iff (hfirst : first.head? ≠ some '-')
    (hlow : Decimal.parse? first = some low) (hlast : last.head? ≠ some '-')
    (hhigh : Decimal.parse? last = some high) :
    ((∃ samples, expand (first ++ '~' :: last) = .ok samples)
      ↔ sampleCount low high ≤ maxSteps + 1)
    ∧ (∀ samples, expand (first ++ '~' :: last) = .ok samples →
        samples.length = sampleCount low high)
    ∧ (maxSteps + 1 < sampleCount low high →
        expand (first ++ '~' :: last) = .error (.rangeTooLong low high maxSteps))
    ∧ (((∃ samples, expand (first ++ '~' :: last) = .ok samples)
          ↔ sampleCount low high ≤ maxSteps) ↔ sampleCount low high ≠ maxSteps + 1)
    ∧ ∀ (lower sign upper : Token) (x : Decimal) (more : List Decimal),
        IsRange lower sign upper x more → (x :: more).length ≤ maxSteps + 1 := by
  have hranges : ∀ (lower sign upper : Token) (x : Decimal) (more : List Decimal),
      IsRange lower sign upper x more → (x :: more).length ≤ maxSteps + 1 := by
    intro lower sign upper x more hrange
    obtain ⟨high, -, hsteps⟩ := hrange.last_value
    exact Nat.succ_le_succ (length_steps_le hsteps)
  rcases expand_range_cases hfirst hlow hlast hhigh with
    ⟨hfew, samples, hexpand, hlength⟩ | ⟨hlong, hexpand⟩
  · have haccepted : ∃ samples, expand (first ++ '~' :: last) = .ok samples := ⟨samples, hexpand⟩
    refine ⟨iff_of_true haccepted hfew, ?_, fun hlong => absurd hfew (Nat.not_le_of_lt hlong),
      ?_, hranges⟩
    · intro others hothers
      rw [Except.ok.inj (hothers.symm.trans hexpand), hlength]
    · rw [iff_true_left haccepted]
      omega
  · have hrefused : ¬∃ samples, expand (first ++ '~' :: last) = .ok samples := by
      rintro ⟨samples, hsamples⟩
      cases hexpand.symm.trans hsamples
    refine ⟨iff_of_false hrefused (Nat.not_le_of_lt hlong), ?_, fun _ => hexpand, ?_, hranges⟩
    · intro samples hsamples
      exact absurd ⟨samples, hsamples⟩ hrefused
    · rw [iff_false_left hrefused]
      omega

/-- The range `0.5~10000` has as many samples as the limit says, up to 9999.5. -/
theorem expand_range_iff_halfStep :
    ∃ samples, expand ['0', '.', '5', '~', '1', '0', '0', '0', '0'] = .ok samples
      ∧ samples.length = maxSteps := by
  have hlow : Decimal.parse? ['0', '.', '5'] = some ⟨false, 0, 5, 1⟩ := by decide
  have hhigh : Decimal.parse? ['1', '0', '0', '0', '0'] = some (.ofNat 10000) := by decide
  have hfirst : ['0', '.', '5'].head? ≠ some '-' := by decide
  have hlast : ['1', '0', '0', '0', '0'].head? ≠ some '-' := by decide
  have hcount : sampleCount ⟨false, 0, 5, 1⟩ (.ofNat 10000) = maxSteps :=
    sampleCount_eq (Decimal.isSample_of_parse? hfirst hlow)
      (Decimal.isSample_of_parse? hlast hhigh)
  obtain ⟨haccepted, hlength, -⟩ := expand_range_iff hfirst hlow hlast hhigh
  obtain ⟨samples, hexpand⟩ := haccepted.2 (hcount.le.trans (Nat.le_succ _))
  exact ⟨samples, hexpand, (hlength samples hexpand).trans hcount⟩

/-- The range `0~10000` is accepted with one sample more than the limit says. -/
theorem expand_range_exceeds_maxSteps :
    sampleCount (.ofNat 0) (.ofNat 10000) = maxSteps + 1
      ∧ ∃ samples, expand ['0', '~', '1', '0', '0', '0', '0'] = .ok samples
        ∧ samples.length = maxSteps + 1 := by
  have hlow : Decimal.parse? ['0'] = some (.ofNat 0) := by decide
  have hhigh : Decimal.parse? ['1', '0', '0', '0', '0'] = some (.ofNat 10000) := by decide
  have hfirst : ['0'].head? ≠ some '-' := by decide
  have hlast : ['1', '0', '0', '0', '0'].head? ≠ some '-' := by decide
  have hcount : sampleCount (.ofNat 0) (.ofNat 10000) = maxSteps + 1 :=
    sampleCount_eq (Decimal.isSample_of_parse? hfirst hlow)
      (Decimal.isSample_of_parse? hlast hhigh)
  rcases expand_range_cases hfirst hlow hlast hhigh with ⟨-, samples, hexpand, hlength⟩ | ⟨hlong, -⟩
  · exact ⟨hcount, samples, hexpand, hlength.trans hcount⟩
  · exact absurd hcount (Nat.ne_of_gt hlong)

end MessageCatalog.Sample
