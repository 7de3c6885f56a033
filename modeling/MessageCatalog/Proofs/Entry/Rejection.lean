import Mathlib.Data.Set.Card
import MessageCatalog.Proofs.Entry.Content

/-!
# Why lines are no entry

Five rules say when lines are no entry and with which issue. Each of them is stated for the lines
themselves, without reference to how it is checked:

* a line clashes with the lines before it, by repeating a field or by a string that no keyword
  stands before; the first such line decides (`FirstClash`),
* of the lines with content, some are obsolete and some are not (`Mixed`),
* the indices of the plural forms are no initial segment of the numbers (`Gap`),
* there is a plural id without plural forms, or the reverse (`Unpaired`),
* some keywords are those of no field (`Foreign`).

Where several rules apply, the first of them decides (`Decides`). The main result is that making an
entry of lines fails exactly if one of the rules applies, and then with the issue of the first one
(`ofLines_eq_error_iff_decides`).

The check looks for a string without a keyword in all lines before it looks for a repeated field.
This gives the first clash, as such a string comes before the first keyword and a repeated field
behind it. That the plural forms have a gap is found by counting them, which is right because the
clashes have been ruled out before.
-/

namespace MessageCatalog

/-- The keyword of no field. -/
def Keyword.IsForeign (keyword : Keyword) : Prop := ∀ field : Field, keyword ≠ field.keyword

theorem Keyword.isForeign_iff {keyword : Keyword} :
    keyword.IsForeign ↔ keyword.field? = none := by
  rw [Option.eq_none_iff_forall_ne_some]
  unfold IsForeign
  simp only [ne_eq, Keyword.field?_eq_some_iff]

instance : DecidablePred Keyword.IsForeign := fun _ => decidable_of_iff _ Keyword.isForeign_iff.symm

namespace Entry

variable {lines front : List Line} {line : Line} {field : Field} {issue : EntryIssue}

/-! ### The rules -/

/-- A line that cannot stand behind the lines `front`. -/
inductive Clashes (front : List Line) (line : Line) : EntryIssue → Prop where
  /-- It introduces a field other than a plural form, and an earlier line does so too. -/
  | repeated {field : Field} : field.index? = none → line.introduces field = true →
      (∃ earlier ∈ front, earlier.introduces field = true) →
      Clashes front line (.repeatedKeyword field.name)
  /-- It introduces a plural form, and an earlier line introduces the one with the same index. -/
  | duplicate {index : Nat} : line.introduces (.plural index) = true →
      (∃ earlier ∈ front, earlier.introduces (.plural index) = true) →
      Clashes front line (.duplicatePluralIndex index)
  /-- It holds a string, and there is no keyword on it or before it. -/
  | orphan : line.logical.value.isSome = true →
      (∀ other ∈ front ++ [line], other.logical.keyword = none) →
      Clashes front line (.orphanValue line.raw)

/-- No line clashes with the lines before it. -/
def Clear (lines : List Line) : Prop :=
  ∀ front line behind issue, lines = front ++ line :: behind → ¬Clashes front line issue

/-- Some line clashes with the lines before it. The first one decides what the issue is. -/
inductive FirstClash (lines : List Line) : EntryIssue → Prop where
  /-- The line clashes, and no line before it does. -/
  | intro {front behind : List Line} {line : Line} {issue : EntryIssue} :
      lines = front ++ line :: behind → Clear front → Clashes front line issue →
      FirstClash lines issue

/-- Some line with content is obsolete and some is not. -/
inductive Mixed (lines : List Line) : EntryIssue → Prop where
  /-- There is one line of each kind. -/
  | intro {retired active : Line} : retired ∈ lines → retired.hasContent = true →
      retired.isObsolete = true → active ∈ lines → active.hasContent = true →
      active.isObsolete = false → Mixed lines .mixedObsolete

/-- The indices of the plural forms that lines introduce. -/
def forms (lines : List Line) : Set Nat :=
  {index | ∃ line ∈ lines, line.introduces (.plural index) = true}

/-- The plural forms are not numbered from zero without a gap. -/
inductive Gap (lines : List Line) : EntryIssue → Prop where
  /-- No number is such that the indices are the numbers below it. The issue names how many forms
  the highest index asks for, and how many there are. -/
  | intro {highest : Nat} : IsGreatest (forms lines) highest →
      (∀ count, forms lines ≠ Set.Iio count) →
      Gap lines (.pluralIndexGap (highest + 1) (forms lines).ncard)

/-- A plural id stands without plural forms, or plural forms without a plural id. -/
inductive Unpaired (lines : List Line) : EntryIssue → Prop where
  /-- There is a plural id and no plural form. -/
  | noForms : (∃ line ∈ lines, line.introduces .pluralId = true) → forms lines = ∅ →
      Unpaired lines .pluralIdWithoutValues
  /-- There is a plural form and no plural id. -/
  | noId : (∀ line ∈ lines, line.introduces .pluralId = false) → (forms lines).Nonempty →
      Unpaired lines .pluralValuesWithoutId

/-- The keywords of lines that are those of no field, as written, in the order of the lines. -/
def foreignKeywords (lines : List Line) : List Text :=
  ((lines.filterMap fun line => line.logical.keyword).filter fun keyword =>
    keyword.IsForeign).map Keyword.render

/-- Some keywords are those of no field. -/
inductive Foreign (lines : List Line) : EntryIssue → Prop where
  /-- The issue names all of them. -/
  | intro : foreignKeywords lines ≠ [] →
      Foreign lines (.unsupportedKeywords (foreignKeywords lines))

/-- The rules, the one that decides first in front. -/
def rules (lines : List Line) : List (EntryIssue → Prop) :=
  [FirstClash lines, Mixed lines, Gap lines, Unpaired lines, Foreign lines]

/-- The first rule that applies gives the issue. -/
def Decides : List (EntryIssue → Prop) → EntryIssue → Prop
  | [], _ => False
  | rule :: rules, issue => rule issue ∨ (∀ other, ¬rule other) ∧ Decides rules issue

/-- Some issue is decided on exactly if some rule applies. -/
theorem exists_decides_iff {rules : List (EntryIssue → Prop)} :
    (∃ issue, Decides rules issue) ↔ ∃ rule ∈ rules, ∃ issue, rule issue := by
  induction rules with
  | nil => simp [Decides]
  | cons rule rules ih =>
    simp only [Decides, List.mem_cons, exists_eq_or_imp, ← ih, exists_or, exists_and_left]
    by_cases hrule : ∃ issue, rule issue
    · exact iff_of_true (.inl hrule) (.inl hrule)
    · rw [and_iff_right (not_exists.1 hrule)]

/-! ### The first clash -/

theorem fields_append (a b : List Line) : fields (a ++ b) = fields a ++ fields b := by
  simp only [fields_eq_filterMap, List.filterMap_append]

theorem mem_fields_iff : field ∈ fields lines ↔ ∃ line ∈ lines, line.introduces field = true := by
  rw [fields_eq_filterMap, List.mem_filterMap]
  simp only [Line.field?_eq_some_iff]

/-- A line clashes by repeating a field or by a string without a keyword. -/
theorem clashes_iff :
    Clashes front line issue ↔
      (∃ field, line.field? = some field ∧ field ∈ fields front ∧ issue = repeatIssue field) ∨
      (line.logical.value.isSome = true ∧ (∀ other ∈ front ++ [line], other.continues = true) ∧
        issue = .orphanValue line.raw) := by
  have hcontinues : (∀ other ∈ front ++ [line], other.continues = true) ↔
      ∀ other ∈ front ++ [line], other.logical.keyword = none := by
    simp only [Line.continues, Option.isNone_iff_eq_none]
  rw [hcontinues]
  constructor
  · intro h
    cases h with
    | @repeated field hindex hline hearlier =>
      refine .inl ⟨field, Line.field?_eq_some_iff.2 hline, mem_fields_iff.2 hearlier, ?_⟩
      cases field with
      | plural index => cases hindex
      | context => rfl
      | id => rfl
      | pluralId => rfl
      | value => rfl
    | @duplicate index hline hearlier =>
      exact .inl ⟨.plural index, Line.field?_eq_some_iff.2 hline, mem_fields_iff.2 hearlier, rfl⟩
    | orphan hvalue hkeyword => exact .inr ⟨hvalue, hkeyword, rfl⟩
  · rintro (⟨field, hline, hfront, rfl⟩ | ⟨hvalue, hkeyword, rfl⟩)
    · rw [Line.field?_eq_some_iff] at hline
      rw [mem_fields_iff] at hfront
      cases field with
      | plural index => exact .duplicate hline hfront
      | context => exact .repeated rfl hline hfront
      | id => exact .repeated rfl hline hfront
      | pluralId => exact .repeated rfl hline hfront
      | value => exact .repeated rfl hline hfront
    · exact .orphan hvalue hkeyword

/-- A line that introduces a field does not continue a block. -/
theorem continues_eq_false_of_field? (h : line.field? = some field) : line.continues = false := by
  rw [Line.field?_eq_some_iff, Line.introduces, decide_eq_true_iff] at h
  simp [Line.continues, h]

theorem fields_of_continues (h : ∀ line ∈ lines, line.continues = true) : fields lines = [] := by
  rw [fields_eq_filterMap, List.filterMap_eq_nil_iff]
  intro line hmem
  cases hfield : line.field? with
  | none => rfl
  | some field => cases (h line hmem).symm.trans (continues_eq_false_of_field? hfield)

/-- A line clashes in one way only. -/
theorem Clashes.unique {other : EntryIssue} (h : Clashes front line issue)
    (hother : Clashes front line other) : issue = other := by
  -- a line that repeats a field has a keyword, and one without a keyword before it has none
  have hexclusive (field : Field) (hfield : line.field? = some field)
      (hcontinues : ∀ other ∈ front ++ [line], other.continues = true) : False :=
    Bool.false_ne_true ((continues_eq_false_of_field? hfield).symm.trans
      (hcontinues line (by simp)))
  rw [clashes_iff] at h hother
  rcases h with ⟨field, hfield, -, rfl⟩ | ⟨-, hcontinues, rfl⟩
  · rcases hother with ⟨again, hagain, -, rfl⟩ | ⟨-, hcontinues, -⟩
    · rw [Option.some.inj (hfield.symm.trans hagain)]
    · exact absurd hcontinues (hexclusive field hfield)
  · rcases hother with ⟨field, hfield, -, -⟩ | ⟨-, -, rfl⟩
    · exact absurd hcontinues (hexclusive field hfield)
    · rfl

/-- What the first clash is, is determined. -/
theorem FirstClash.unique {other : EntryIssue} (h : FirstClash lines issue)
    (hother : FirstClash lines other) : issue = other := by
  obtain ⟨hlines, hclear, hclash⟩ := h
  obtain ⟨hlines', hclear', hclash'⟩ := hother
  rcases List.append_eq_append_iff.1 (hlines.symm.trans hlines') with
    ⟨between, hfront, hbehind⟩ | ⟨between, hfront, hbehind⟩
  · cases between with
    | nil =>
      rw [List.append_nil] at hfront
      obtain ⟨rfl, -⟩ := List.cons.inj hbehind
      exact hclash.unique (hfront ▸ hclash')
    | cons first between =>
      obtain ⟨rfl, -⟩ := List.cons.inj hbehind
      exact absurd hclash (hclear' _ _ _ _ hfront)
  · cases between with
    | nil =>
      rw [List.append_nil] at hfront
      obtain ⟨rfl, -⟩ := List.cons.inj hbehind
      exact hclash.unique (hfront ▸ hclash')
    | cons first between =>
      obtain ⟨rfl, -⟩ := List.cons.inj hbehind
      exact absurd hclash' (hclear _ _ _ _ hfront)

theorem orphan?_of_append {behind : List Line} (h : orphan? (front ++ behind) = none) :
    orphan? front = none := by
  rw [orphan?_eq_none_iff] at h ⊢
  intro line hmem
  apply h line
  rw [List.takeWhile_append]
  split
  · exact List.mem_append_left _ ((List.takeWhile_prefix _).subset hmem)
  · exact hmem

/-- Without a string before the first keyword and without a repeated field, no line clashes. -/
theorem clear_of_distinct (horphan : orphan? lines = none) (hdistinct : (fields lines).Nodup) :
    Clear lines := by
  intro front line behind issue hlines hclash
  rw [clashes_iff] at hclash
  rcases hclash with ⟨field, hfield, hfront, -⟩ | ⟨hvalue, hcontinues, -⟩
  · have hbehind : field ∈ fields (line :: behind) :=
      mem_fields_iff.2 ⟨line, List.mem_cons_self, Line.field?_eq_some_iff.1 hfield⟩
    rw [hlines, fields_append] at hdistinct
    exact List.disjoint_of_nodup_append hdistinct hfront hbehind
  · have hmem : line ∈ lines.takeWhile Line.continues := by
      rw [hlines, List.append_cons, List.takeWhile_append_of_pos hcontinues]
      simp
    rw [orphan?_eq_none_iff.1 horphan line hmem] at hvalue
    cases hvalue

/-- The first string before any keyword clashes, and no line before it does. -/
theorem firstClash_of_orphan? (h : orphan? lines = some line) :
    FirstClash lines (.orphanValue line.raw) := by
  obtain ⟨hvalue, front, behind, hlead, hfront⟩ := List.find?_eq_some_iff_append.1 h
  have hcontinues : ∀ other ∈ front ++ [line], other.continues = true := by
    intro other hmem
    have hother : other ∈ lines.takeWhile Line.continues := by
      show other ∈ lines.takeWhile fun line => line.logical.keyword.isNone
      rw [hlead, List.append_cons]
      exact List.mem_append_left _ hmem
    exact List.mem_takeWhile_imp hother
  have hlines : lines = front ++ line :: (behind ++ lines.dropWhile Line.continues) := by
    rw [← List.cons_append, ← List.append_assoc, ← hlead]
    exact List.takeWhile_append_dropWhile.symm
  refine FirstClash.intro hlines ?_ (clashes_iff.2 (.inr ⟨hvalue, hcontinues, rfl⟩))
  apply clear_of_distinct
  · refine orphan?_eq_none_iff.2 fun other hmem => ?_
    simpa using hfront other ((List.takeWhile_prefix _).subset hmem)
  · rw [fields_of_continues fun other hmem => hcontinues other (List.mem_append_left _ hmem)]
    exact List.nodup_nil

/-- The first repeated element of a list comes behind elements that are not repeated, and is one of
them. -/
theorem exists_append_of_firstRepeat {α : Type} [DecidableEq α] {seen elements : List α} {a : α}
    (h : firstRepeat seen elements = some a) :
    ∃ before behind, elements = before ++ a :: behind ∧ firstRepeat seen before = none ∧
      (a ∈ before ∨ a ∈ seen) := by
  induction elements generalizing seen with
  | nil => cases h
  | cons b elements ih =>
    rw [firstRepeat] at h
    split at h
    next hseen =>
      obtain rfl := Option.some.inj h
      exact ⟨[], elements, rfl, rfl, .inr hseen⟩
    next hfresh =>
      obtain ⟨before, behind, rfl, hnone, hmem⟩ := ih h
      refine ⟨b :: before, behind, rfl, ?_, ?_⟩
      · rw [firstRepeat, if_neg hfresh, hnone]
      · rcases hmem with hmem | hmem
        · exact .inl (List.mem_cons_of_mem b hmem)
        · rcases List.mem_cons.1 hmem with rfl | hmem
          · exact .inl List.mem_cons_self
          · exact .inr hmem

/-- If no string comes before the first keyword, the first repeated field clashes, and no line
before it does. -/
theorem firstClash_of_firstRepeat (horphan : orphan? lines = none)
    (h : firstRepeat [] (fields lines) = some field) : FirstClash lines (repeatIssue field) := by
  obtain ⟨before, behind, hfields, hnone, hmem⟩ := exists_append_of_firstRepeat h
  rw [fields_eq_filterMap] at hfields
  obtain ⟨lead, rest, rfl, rfl, hrest⟩ := List.filterMap_eq_append_iff.1 hfields
  obtain ⟨gap, line, tail, rfl, hgap, hline, -⟩ := List.filterMap_eq_cons_iff.1 hrest
  -- the lines before the one that repeats the field introduce the fields before it
  have hfront : fields (lead ++ gap) = lead.filterMap Line.field? := by
    rw [fields_eq_filterMap, List.filterMap_append, List.filterMap_eq_nil_iff.2 hgap,
      List.append_nil]
  have hlines : lead ++ (gap ++ line :: tail) = (lead ++ gap) ++ line :: tail :=
    (List.append_assoc ..).symm
  rw [hlines] at horphan ⊢
  refine FirstClash.intro rfl ?_ (clashes_iff.2 (.inl ?_))
  · apply clear_of_distinct
    · exact orphan?_of_append horphan
    · rw [hfront]
      exact (firstRepeat_eq_none_iff.1 hnone).1
  · refine ⟨field, hline, ?_, rfl⟩
    rw [hfront]
    exact hmem.resolve_right List.not_mem_nil

/-! ### What the checks find -/

/-- The check finds what the rule says. -/
def Finds (found : Option EntryIssue) (rule : EntryIssue → Prop) : Prop :=
  ∀ issue, found = some issue ↔ rule issue

/-- What a check finds first decides, and otherwise what the later ones find. -/
theorem Finds.or_eq_some_iff {found rest : Option EntryIssue} {rule : EntryIssue → Prop}
    (h : Finds found rule) :
    found.or rest = some issue ↔ rule issue ∨ (∀ other, ¬rule other) ∧ rest = some issue := by
  rw [Option.or_eq_some_iff, h issue, Option.eq_none_iff_forall_ne_some]
  simp only [ne_eq, h _]

/-- What the search for a string without a keyword and the search for a repeated field find. -/
def clash? (lines : List Line) : Option EntryIssue :=
  ((orphan? lines).map fun line => .orphanValue line.raw).or
    ((firstRepeat [] (fields lines)).map repeatIssue)

theorem clash?_eq_none_iff :
    clash? lines = none ↔ orphan? lines = none ∧ (fields lines).Nodup := by
  unfold clash?
  rw [Option.or_eq_none_iff, Option.map_eq_none_iff, Option.map_eq_none_iff,
    firstRepeat_eq_none_iff, and_iff_left fun _ _ => List.not_mem_nil]

theorem firstClash_of_clash? (h : clash? lines = some issue) : FirstClash lines issue := by
  unfold clash? at h
  rw [Option.or_eq_some_iff, Option.map_eq_some_iff, Option.map_eq_none_iff,
    Option.map_eq_some_iff] at h
  rcases h with ⟨line, hline, rfl⟩ | ⟨horphan, field, hfield, rfl⟩
  · exact firstClash_of_orphan? hline
  · exact firstClash_of_firstRepeat horphan hfield

theorem finds_clash? (lines : List Line) : Finds (clash? lines) (FirstClash lines) := by
  intro issue
  refine ⟨firstClash_of_clash?, fun hclash => ?_⟩
  cases hfound : clash? lines with
  | none =>
    obtain ⟨horphan, hdistinct⟩ := clash?_eq_none_iff.1 hfound
    obtain ⟨hlines, -, hline⟩ := hclash
    exact absurd hline (clear_of_distinct horphan hdistinct _ _ _ _ hlines)
  | some other => rw [(firstClash_of_clash? hfound).unique hclash]

theorem finds_mixed (lines : List Line) :
    Finds (if anyObsolete lines && anyActive lines then some .mixedObsolete else none)
      (Mixed lines) := by
  intro issue
  have hiff : (anyObsolete lines && anyActive lines) = true ↔
      (∃ line ∈ lines, line.hasContent = true ∧ line.isObsolete = true) ∧
        ∃ line ∈ lines, line.hasContent = true ∧ line.isObsolete = false := by
    simp [anyObsolete, anyActive]
  constructor
  · intro h
    split at h
    next hboth =>
      obtain rfl := Option.some.inj h
      obtain ⟨⟨retired, hretired, hcontent, hmark⟩, active, hactive, hcontent', hmark'⟩ :=
        hiff.1 hboth
      exact Mixed.intro hretired hcontent hmark hactive hcontent' hmark'
    next => cases h
  · rintro ⟨hretired, hcontent, hmark, hactive, hcontent', hmark'⟩
    rw [if_pos (hiff.2 ⟨⟨_, hretired, hcontent, hmark⟩, _, hactive, hcontent', hmark'⟩)]

/-! ### The plural forms -/

theorem mem_forms_iff {index : Nat} : index ∈ forms lines ↔ index ∈ pluralIndices lines := by
  rw [← List.count_pos_iff, count_pluralIndices, List.countP_pos_iff]
  rfl

theorem forms_eq_empty_iff : forms lines = ∅ ↔ pluralIndices lines = [] := by
  rw [Set.eq_empty_iff_forall_notMem, List.eq_nil_iff_forall_not_mem]
  simp only [mem_forms_iff]

/-- If no index comes twice, the forms are counted by their indices. -/
theorem ncard_forms (h : (fields lines).Nodup) :
    (forms lines).ncard = (pluralIndices lines).length := by
  have hforms : forms lines = ((pluralIndices lines).toFinset : Set Nat) := by
    ext index
    rw [mem_forms_iff, Finset.mem_coe, List.mem_toFinset]
  rw [hforms, Set.ncard_coe_finset, List.toFinset_card_of_nodup (nodup_pluralIndices h)]

theorem isGreatest_forms_iff {highest : Nat} :
    IsGreatest (forms lines) highest ↔ (pluralIndices lines).max? = some highest := by
  rw [List.max?_eq_some_iff]
  unfold IsGreatest upperBounds
  simp only [mem_forms_iff, Set.mem_ofPred_eq]

/-- If the indices are the numbers below some number, there are as many as the highest one asks
for. -/
theorem highest_of_forms_eq_Iio {highest count : Nat} (hgreatest : IsGreatest (forms lines) highest)
    (h : forms lines = Set.Iio count) : highest + 1 = (forms lines).ncard := by
  rw [h] at hgreatest
  have hlt : highest < count := hgreatest.1
  have hle : count - 1 ≤ highest := hgreatest.2 (Set.mem_Iio.2 (by omega))
  rw [h, ← Finset.coe_range, Set.ncard_coe_finset, Finset.card_range]
  omega

/-- If there are as many distinct indices as the highest one asks for, they are the numbers below
some number. -/
theorem exists_forms_eq_Iio (h : (fields lines).Nodup)
    (hgap : gapIssue? (pluralIndices lines) = none) : ∃ count, forms lines = Set.Iio count := by
  have hperm := perm_range_of_gapIssue? (nodup_pluralIndices h) hgap
  refine ⟨(pluralIndices lines).length, ?_⟩
  ext index
  rw [mem_forms_iff, hperm.mem_iff, List.mem_range, Set.mem_Iio]

/-- Counting finds the gaps, if no index comes twice. -/
theorem finds_gapIssue? (h : (fields lines).Nodup) :
    Finds (gapIssue? (pluralIndices lines)) (Gap lines) := by
  intro issue
  constructor
  · intro hfound
    unfold gapIssue? at hfound
    split at hfound
    next => cases hfound
    next highest hmax =>
      split at hfound
      next => cases hfound
      next hne =>
        obtain rfl := Option.some.inj hfound
        have hgreatest := isGreatest_forms_iff.2 hmax
        rw [← ncard_forms h] at hne ⊢
        exact Gap.intro hgreatest fun _ hcount => hne (highest_of_forms_eq_Iio hgreatest hcount)
  · rintro ⟨hgreatest, hgap⟩
    have hmax := isGreatest_forms_iff.1 hgreatest
    unfold gapIssue?
    rw [hmax, ncard_forms h]
    apply if_neg
    intro hlength
    obtain ⟨count, hcount⟩ := exists_forms_eq_Iio h (by simp [gapIssue?, hmax, hlength])
    exact hgap count hcount

theorem finds_pluralIssue? (lines : List Line) :
    Finds (pluralIssue? (fields lines) (pluralIndices lines)) (Unpaired lines) := by
  intro issue
  have hid : .pluralId ∉ fields lines ↔ ∀ line ∈ lines, line.introduces .pluralId = false := by
    rw [mem_fields_iff]
    simp
  have hempty : (pluralIndices lines).isEmpty = true ↔ forms lines = ∅ := by
    rw [List.isEmpty_iff, forms_eq_empty_iff]
  have hnonempty : ¬(pluralIndices lines).isEmpty = true ↔ (forms lines).Nonempty := by
    rw [hempty, Set.nonempty_iff_ne_empty]
  unfold pluralIssue?
  constructor
  · intro hfound
    split_ifs at hfound with hmem hforms hforms
    · obtain rfl := Option.some.inj hfound
      exact Unpaired.noForms (mem_fields_iff.1 hmem) (hempty.1 hforms)
    · obtain rfl := Option.some.inj hfound
      exact Unpaired.noId (hid.1 hmem) (hnonempty.1 hforms)
  · intro h
    cases h with
    | noForms hline hforms => rw [if_pos (mem_fields_iff.2 hline), if_pos (hempty.2 hforms)]
    | noId hline hforms => rw [if_neg (hid.2 hline), if_neg (hnonempty.2 hforms)]

/-! ### Foreign keywords -/

/-- The blocks that hold no field have the foreign keywords of the lines. -/
theorem unsupported_eq_foreignKeywords (lines : List Line) :
    unsupported lines = foreignKeywords lines := by
  unfold unsupported foreignKeywords
  rw [← Block.map_keyword_ofLines, List.filter_map, List.map_map]
  congr 1
  refine List.filter_congr fun block _ => ?_
  rw [Bool.eq_iff_iff, Option.isNone_iff_eq_none, Function.comp_apply, decide_eq_true_iff,
    Keyword.isForeign_iff]
  rfl

theorem finds_unsupported (lines : List Line) :
    Finds (if unsupported lines = [] then none else some (.unsupportedKeywords (unsupported lines)))
      (Foreign lines) := by
  intro issue
  rw [unsupported_eq_foreignKeywords]
  constructor
  · intro hfound
    split at hfound
    next => cases hfound
    next hne =>
      obtain rfl := Option.some.inj hfound
      exact Foreign.intro hne
  · rintro ⟨hne⟩
    rw [if_neg hne]

/-! ### The first rule decides -/

/-- What is wrong with lines is what the first rule that applies says. -/
theorem issue?_eq_some_iff_decides : issue? lines = some issue ↔ Decides (rules lines) issue := by
  have hchecks : issue? lines = (clash? lines).or
      ((if anyObsolete lines && anyActive lines then some .mixedObsolete else none).or
        ((gapIssue? (pluralIndices lines)).or
          ((pluralIssue? (fields lines) (pluralIndices lines)).or
            (if unsupported lines = [] then none
              else some (.unsupportedKeywords (unsupported lines)))))) := by
    simp only [issue?, clash?, Option.or_assoc]
  rw [hchecks, (finds_clash? lines).or_eq_some_iff]
  refine or_congr Iff.rfl (and_congr_right fun hclear => ?_)
  -- the count of the plural forms is right because no line clashes
  have hdistinct : (fields lines).Nodup := by
    refine (clash?_eq_none_iff.1 (Option.eq_none_iff_forall_ne_some.2 fun other hfound => ?_)).2
    exact hclear other ((finds_clash? lines other).1 hfound)
  rw [(finds_mixed lines).or_eq_some_iff, (finds_gapIssue? hdistinct).or_eq_some_iff,
    (finds_pluralIssue? lines).or_eq_some_iff, finds_unsupported lines issue]
  simp only [Decides, and_false, or_false]

/-- The number of forms that the highest index asks for is reported only for a gap. -/
theorem exists_isGreatest_of_ofLines {expected found : Nat}
    (h : ofLines lines = .error (.pluralIndexGap expected found)) :
    ∃ highest, IsGreatest (forms lines) highest ∧ expected = highest + 1 := by
  have hdecides := issue?_eq_some_iff_decides.1 (ofLines_eq_error_iff.1 h)
  rcases hdecides with
    hclash | ⟨-, hmixed | ⟨-, hgap | ⟨-, hunpaired | ⟨-, hforeign | ⟨-, hnone⟩⟩⟩⟩⟩
  · obtain ⟨-, -, hline⟩ := hclash
    cases hline
  · cases hmixed
  · cases hgap with
    | intro hgreatest _ => exact ⟨_, hgreatest, rfl⟩
  · cases hunpaired
  · cases hforeign
  · cases hnone

/-- **The first rule that applies decides.** Take any lines whose plural forms have indices that
leave room for one more in a machine word. Making an entry of them fails exactly if a rule applies,
and then with the issue of the first one. The number of forms that such an issue asks for fits a
machine word. -/
theorem ofLines_eq_error_iff_decides (hindex : ∀ index ∈ forms lines, index < Text.wordLimit - 1) :
    (∀ issue, ofLines lines = .error issue ↔ Decides (rules lines) issue) ∧
    ((∃ issue, ofLines lines = .error issue) ↔ ∃ rule ∈ rules lines, ∃ issue, rule issue) ∧
    ∀ expected found, ofLines lines = .error (.pluralIndexGap expected found) →
      expected < Text.wordLimit := by
  have hiff (issue : EntryIssue) :
      ofLines lines = .error issue ↔ Decides (rules lines) issue :=
    ofLines_eq_error_iff.trans issue?_eq_some_iff_decides
  refine ⟨hiff, ?_, ?_⟩
  · simp only [hiff]
    exact exists_decides_iff
  · intro expected found h
    obtain ⟨highest, hgreatest, rfl⟩ := exists_isGreatest_of_ofLines h
    have hlt := hindex highest hgreatest.1
    omega

/-- Lines to which all rules apply: the last one repeats a plural form. -/
def tangledLines : List Line :=
  linesIn <| "# note\nmsgid \"a\"\n#~ msgstr[2] \"c\"\nmsgstr[0] \"b\"\n".toList
    ++ "msgid[0] \"d\"\n\"e\"\nmsgstr[0] \"f\"\n".toList

/-- Two plural forms, one of them with the highest index that leaves room for one more. -/
def distantForms : List Line :=
  linesIn <| "msgid \"a\"\nmsgid_plural \"b\"\nmsgstr[0] \"c\"\n".toList
    ++ "msgstr[18446744073709551614] \"d\"\nfuzzy\n".toList

theorem ofLines_eq_error_iff_decides_tangledLines :
    ((∀ index ∈ forms tangledLines, index < Text.wordLimit - 1) ∧ tangledLines.length = 7 ∧
      ofLines tangledLines = .error (.duplicatePluralIndex 0) ∧
      Decides (rules tangledLines) (.duplicatePluralIndex 0)) ∧
    (∀ index ∈ forms distantForms, index < Text.wordLimit - 1) ∧
      ofLines distantForms = .error (.pluralIndexGap 18446744073709551615 2) ∧
      Decides (rules distantForms) (.pluralIndexGap 18446744073709551615 2) ∧
      18446744073709551615 < Text.wordLimit := by
  have htangled : ∀ index ∈ pluralIndices tangledLines, index < Text.wordLimit - 1 := by
    decide +kernel
  have hdistant : ∀ index ∈ pluralIndices distantForms, index < Text.wordLimit - 1 := by
    decide +kernel
  have hforms : ∀ index ∈ forms tangledLines, index < Text.wordLimit - 1 := fun index hmem =>
    htangled index (mem_forms_iff.1 hmem)
  have hforms' : ∀ index ∈ forms distantForms, index < Text.wordLimit - 1 := fun index hmem =>
    hdistant index (mem_forms_iff.1 hmem)
  have hduplicate : ofLines tangledLines = .error (.duplicatePluralIndex 0) := by decide +kernel
  have hgap : ofLines distantForms = .error (.pluralIndexGap 18446744073709551615 2) := by
    decide +kernel
  exact ⟨⟨hforms, by decide +kernel, hduplicate,
      ((ofLines_eq_error_iff_decides hforms).1 _).1 hduplicate⟩,
    hforms', hgap, ((ofLines_eq_error_iff_decides hforms').1 _).1 hgap,
    (ofLines_eq_error_iff_decides hforms').2.2 _ _ hgap⟩

end Entry

end MessageCatalog
