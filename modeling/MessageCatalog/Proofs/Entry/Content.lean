import Mathlib.Data.List.Perm.Subperm
import MessageCatalog.Proofs.Document.Lookup
import MessageCatalog.Proofs.Entry.Composed
import MessageCatalog.Proofs.Entry.Fields

/-!
# What an entry says

The content of an entry is taken from the blocks of its lines, and a block is found by a search for
its field. This module says what the content is in terms of the lines alone. A field's text is made
of the string on the line that introduces the field and of those on the lines behind it, up to the
next line with a keyword (`Tells`).

That the plural forms are numbered from zero without a gap is not checked as such. It is checked
that there are as many of them as the highest index asks for. Since no index comes twice, this is
the same (`perm_range_of_gapIssue?`). So the text of the form with some index is found at this place
of the plural values (`tells_pluralValues`).

The main result puts these together: an entry says what its lines say (`says_of_ofLines`).
-/

namespace MessageCatalog

/-- Whether the line continues the block before it: its logical line has no keyword. -/
def Line.continues (line : Line) : Bool := line.logical.keyword.isNone

namespace Block

variable {line : Line} {lines : List Line}

/-- Before the first block stand the strings of the lines before the first keyword. -/
theorem fst_gather (lines : List Line) :
    (gather lines).1 = (lines.takeWhile Line.continues).flatMap Line.text := by
  induction lines with
  | nil => rfl
  | cons line lines ih =>
    cases hkeyword : line.logical.keyword with
    | none => simp [gather, Line.continues, hkeyword, ih]
    | some keyword => simp [gather, Line.continues, hkeyword]

theorem ofLines_cons_of_continues (h : line.continues = true) (lines : List Line) :
    ofLines (line :: lines) = ofLines lines := by
  unfold ofLines
  rw [gather, Option.isNone_iff_eq_none.1 h]

/-- A line with a keyword makes a block of its string and those of the lines that continue it. -/
theorem ofLines_cons_of_keyword {keyword : Keyword} (h : line.logical.keyword = some keyword)
    (lines : List Line) :
    ofLines (line :: lines)
      = ⟨keyword, line.text ++ (lines.takeWhile Line.continues).flatMap Line.text⟩
          :: ofLines lines := by
  unfold ofLines
  rw [gather, h, ← fst_gather]

end Block

namespace Entry

variable {lines : List Line} {entry : Entry} {field : Field}

/-! ### Lines that nothing is wrong with -/

/-- Lines that nothing is wrong with. -/
structure IsSound (lines : List Line) : Prop where
  /-- No string comes before the first keyword. -/
  orphan : orphan? lines = none
  /-- No field comes twice. -/
  distinct : (fields lines).Nodup
  /-- The lines with content are all obsolete, or none of them is. -/
  unmixed : ¬(anyObsolete lines = true ∧ anyActive lines = true)
  /-- There are as many plural forms as the highest index asks for. -/
  gapless : gapIssue? (pluralIndices lines) = none
  /-- There are plural forms exactly if there is a plural id. -/
  paired : pluralIssue? (fields lines) (pluralIndices lines) = none
  /-- Every keyword is that of a field. -/
  supported : unsupported lines = []

theorem issue?_eq_none_iff : issue? lines = none ↔ IsSound lines := by
  have hrepeat : firstRepeat [] (fields lines) = none ↔ (fields lines).Nodup := by
    rw [firstRepeat_eq_none_iff]
    exact and_iff_left fun _ _ => List.not_mem_nil
  unfold issue?
  simp only [Option.or_eq_none_iff, Option.map_eq_none_iff, hrepeat, Bool.and_eq_true,
    ite_eq_right_iff, ite_eq_left_iff, reduceCtorEq, imp_false, not_not]
  constructor
  · rintro ⟨⟨⟨⟨⟨horphan, hdistinct⟩, hunmixed⟩, hgapless⟩, hpaired⟩, hsupported⟩
    exact ⟨horphan, hdistinct, hunmixed, hgapless, hpaired, hsupported⟩
  · rintro ⟨horphan, hdistinct, hunmixed, hgapless, hpaired, hsupported⟩
    exact ⟨⟨⟨⟨⟨horphan, hdistinct⟩, hunmixed⟩, hgapless⟩, hpaired⟩, hsupported⟩

/-- No string comes before the first keyword if none of the lines before it has one. -/
theorem orphan?_eq_none_iff :
    orphan? lines = none ↔
      ∀ line ∈ lines.takeWhile Line.continues, line.logical.value.isSome = false := by
  unfold orphan?
  rw [List.find?_eq_none]
  simp only [Bool.not_eq_true]
  rfl

/-! ### The text of a field -/

/-- What lines say of a field. -/
inductive Tells (lines : List Line) (field : Field) : Option Text → Prop where
  /-- A line introduces the field. The text is the string on this line and the strings on the lines
  behind it up to the next one with a keyword, one after another. -/
  | present {front behind : List Line} {line : Line} : lines = front ++ line :: behind →
      line.introduces field = true →
      Tells lines field (some (line.text ++ (behind.takeWhile Line.continues).flatMap Line.text))
  /-- No line introduces the field. -/
  | absent : (∀ line ∈ lines, line.introduces field = false) → Tells lines field none

/-- A line that does not introduce the field changes nothing when it is put in front. -/
theorem Tells.cons {text : Option Text} {line : Line} (h : Tells lines field text)
    (hline : line.introduces field = false) : Tells (line :: lines) field text := by
  cases h with
  | @present front behind introducing hlines hfield =>
    have hlines' : line :: lines = (line :: front) ++ introducing :: behind := by
      rw [hlines, List.cons_append]
    exact Tells.present hlines' hfield
  | absent hnone =>
    apply Tells.absent
    intro other hmem
    rcases List.mem_cons.1 hmem with rfl | hmem
    · exact hline
    · exact hnone other hmem

/-- The search through the blocks finds what the lines say. -/
theorem tells_textOf? (lines : List Line) (field : Field) :
    Tells lines field (Block.textOf? (Block.ofLines lines) field) := by
  induction lines with
  | nil => exact Tells.absent fun _ hmem => absurd hmem List.not_mem_nil
  | cons line lines ih =>
    cases hkeyword : line.logical.keyword with
    | none =>
      have hline : line.introduces field = false := by simp [Line.introduces, hkeyword]
      rw [Block.ofLines_cons_of_continues (by simp [Line.continues, hkeyword])]
      exact ih.cons hline
    | some keyword =>
      rw [Block.ofLines_cons_of_keyword hkeyword, Block.textOf?, List.find?_cons]
      by_cases hfield : keyword = field.keyword
      · have hblock : keyword.field? = some field := Keyword.field?_eq_some_iff.2 hfield
        simp only [Block.field?, hblock, decide_true, Option.map_some]
        have hlines : line :: lines = [] ++ line :: lines := rfl
        exact Tells.present hlines (by simp [Line.introduces, hkeyword, hfield])
      · have hblock : keyword.field? ≠ some field := fun h =>
          hfield (Keyword.field?_eq_some_iff.1 h)
        simp only [Block.field?, hblock, decide_false]
        exact ih.cons (by simp [Line.introduces, hkeyword, hfield])

/-! ### The numbering of the plural forms -/

theorem count_pluralIndices (lines : List Line) (index : Nat) :
    (pluralIndices lines).count index = lines.countP (Line.introduces (.plural index)) := by
  rw [← count_fields, pluralIndices, List.count_filterMap, List.count]
  refine List.countP_congr fun field _ => ?_
  cases field <;> simp [Field.index?]

theorem nodup_pluralIndices (h : (fields lines).Nodup) : (pluralIndices lines).Nodup := by
  rw [List.nodup_iff_count_le_one] at h ⊢
  intro index
  rw [count_pluralIndices, ← count_fields]
  exact h (.plural index)

/-- Distinct indices of which there are as many as the highest one asks for are all the numbers from
zero on, in some order. -/
theorem perm_range_of_gapIssue? {indices : List Nat} (hdistinct : indices.Nodup)
    (h : gapIssue? indices = none) : indices.Perm (List.range indices.length) := by
  unfold gapIssue? at h
  split at h
  next hmax =>
    rw [List.max?_eq_none_iff.1 hmax]
    exact List.Perm.refl []
  next highest hmax =>
    have hlength : highest + 1 = indices.length := by
      by_contra hne
      rw [if_neg hne] at h
      cases h
    have hsubset : indices ⊆ List.range indices.length := by
      intro index hmem
      have hle := (List.max?_eq_some_iff.1 hmax).2 index hmem
      rw [List.mem_range]
      omega
    -- as many distinct numbers as the range holds, all of them from the range
    exact (List.subperm_of_subset hdistinct hsubset).perm_of_length_le (by simp)

/-- Each index below the number of plural forms comes once, and no other index comes. -/
theorem countP_introduces_plural (h : IsSound lines) (index : Nat) :
    lines.countP (Line.introduces (.plural index))
      = if index < (pluralIndices lines).length then 1 else 0 := by
  have hperm := perm_range_of_gapIssue? (nodup_pluralIndices h.distinct) h.gapless
  rw [← count_pluralIndices, hperm.count_eq]
  split
  next hlt => exact List.count_eq_one_of_mem List.nodup_range (List.mem_range.2 hlt)
  next hge => exact List.count_eq_zero_of_not_mem fun hmem => hge (List.mem_range.1 hmem)

/-- If the indices with a text are the numbers below `count`, collecting their texts leaves each at
its own place. -/
theorem getElem?_filterMap_range {text? : Nat → Option Text} {count : Nat}
    (h : ∀ index, (text? index).isSome = true ↔ index < count) (index : Nat) :
    ((List.range count).filterMap text?)[index]? = text? index := by
  have hmap : (List.range count).filterMap text?
      = (List.range count).map fun index => (text? index).getD [] := by
    refine List.filterMap_eq_map_iff_forall_eq_some.2 fun index hmem => ?_
    obtain ⟨text, htext⟩ := Option.isSome_iff_exists.1 ((h index).2 (List.mem_range.1 hmem))
    rw [htext, Option.getD_some]
  rw [hmap, List.getElem?_map]
  by_cases hlt : index < count
  · obtain ⟨text, htext⟩ := Option.isSome_iff_exists.1 ((h index).2 hlt)
    rw [List.getElem?_range hlt, Option.map_some, htext, Option.getD_some]
  · have hnone : text? index = none := by
      rw [← Option.not_isSome_iff_eq_none]
      exact fun hsome => hlt ((h index).1 hsome)
    rw [hnone, List.getElem?_eq_none (by simpa using hlt), Option.map_none]

/-- A plural form has a text exactly if its index is below the number of the forms. -/
theorem isSome_textOf?_plural (h : IsSound lines) (index : Nat) :
    (Block.textOf? (Block.ofLines lines) (.plural index)).isSome = true ↔
      index < (pluralIndices lines).length := by
  have hcount := countP_introduces_plural h index
  rw [← not_iff_not, Bool.not_eq_true, Option.isSome_eq_false_iff, Option.isNone_iff_eq_none,
    textOf?_eq_none_iff]
  constructor
  · intro hnone hlt
    rw [if_pos hlt, List.countP_eq_zero.2 fun line hmem => by simp [hnone line hmem]] at hcount
    cases hcount
  · intro hge line hmem
    rw [if_neg hge, List.countP_eq_zero] at hcount
    exact Bool.eq_false_iff.2 (hcount line hmem)

/-- The text of each plural form stands at the place that its index names. -/
theorem getElem?_pluralValues (h : IsSound lines) (index : Nat) :
    (content lines).pluralValues[index]?
      = Block.textOf? (Block.ofLines lines) (.plural index) :=
  getElem?_filterMap_range (isSome_textOf?_plural h) index

theorem length_pluralValues (h : IsSound lines) :
    (content lines).pluralValues.length = (pluralIndices lines).length := by
  apply eq_of_forall_lt_iff
  intro index
  rw [← isSome_textOf?_plural h, ← getElem?_pluralValues h]
  simp

/-- A plural id has a text exactly if there are plural forms. -/
theorem isSome_textOf?_pluralId (h : IsSound lines) :
    (Block.textOf? (Block.ofLines lines) .pluralId).isSome = true ↔ pluralIndices lines ≠ [] := by
  have hfields : (Block.textOf? (Block.ofLines lines) .pluralId).isSome = true ↔
      .pluralId ∈ fields lines := by
    simp [Block.textOf?, fields]
  have hpaired := h.paired
  unfold pluralIssue? at hpaired
  rw [hfields]
  by_cases hmem : .pluralId ∈ fields lines
  · simpa [hmem] using hpaired
  · simpa [hmem] using hpaired

/-! ### The whole content -/

/-- An entry that says what lines say. -/
structure Says (entry : Entry) (lines : List Line) : Prop where
  /-- No field is introduced twice. -/
  once : ∀ field, lines.countP (Line.introduces field) ≤ 1
  /-- The context is what the lines say of it, and missing if they say nothing. -/
  context : Tells lines .context entry.context
  /-- The id is what the lines say of it, and empty if they say nothing. -/
  id : ∃ text, Tells lines .id text ∧ entry.id = text.getD []
  /-- The translated text is what the lines say of it, and empty if they say nothing. -/
  value : ∃ text, Tells lines .value text ∧ entry.value = text.getD []
  /-- The plural id is what the lines say of it, and missing if they say nothing. -/
  pluralId : Tells lines .pluralId entry.pluralId
  /-- Each index below the number of plural forms is introduced once, and no other one is. -/
  numbered : ∀ index, lines.countP (Line.introduces (.plural index))
    = if index < entry.pluralValues.length then 1 else 0
  /-- The plural form at each place is what the lines say of the form with this index. -/
  pluralValues : ∀ index, Tells lines (.plural index) entry.pluralValues[index]?
  /-- There is a plural id exactly if there are plural forms. -/
  paired : entry.pluralId.isSome = true ↔ entry.pluralValues ≠ []
  /-- Each line with content is obsolete exactly if the entry is. -/
  obsolete : ∀ line ∈ lines, line.hasContent = true → line.isObsolete = entry.obsolete
  /-- The entry keeps the lines. -/
  lines : entry.lines = lines

/-- **An entry says what its lines say.** Whatever lines an entry was made of, each of its texts is
made of the strings on the line that introduces the field and on the lines that continue it. The
plural forms are numbered from zero without a gap, in whatever order the lines introduce them, and
they come with a plural id. The lines with content are obsolete exactly if the entry is, and the
entry keeps all lines. -/
theorem says_of_ofLines (h : ofLines lines = .ok entry) : Says entry lines := by
  have hobsolete : ∀ line ∈ lines, line.hasContent = true → line.isObsolete = entry.obsolete :=
    fun line hmem hcontent => (obsolete_eq_of_mem h hmem hcontent).symm
  obtain ⟨hissue, rfl⟩ := ofLines_eq_ok_iff.1 h
  have hsound := issue?_eq_none_iff.1 hissue
  constructor
  case once =>
    intro field
    rw [← count_fields]
    exact List.nodup_iff_count_le_one.1 hsound.distinct field
  case context => exact tells_textOf? lines .context
  case id => exact ⟨_, tells_textOf? lines .id, rfl⟩
  case value => exact ⟨_, tells_textOf? lines .value, rfl⟩
  case pluralId => exact tells_textOf? lines .pluralId
  case numbered =>
    intro index
    rw [length_pluralValues hsound]
    exact countP_introduces_plural hsound index
  case pluralValues =>
    intro index
    rw [getElem?_pluralValues hsound]
    exact tells_textOf? lines (.plural index)
  case paired =>
    rw [← List.length_pos_iff, length_pluralValues hsound, List.length_pos_iff]
    exact isSome_textOf?_pluralId hsound
  case obsolete => exact hobsolete
  case lines => rfl

/-- The lines of a text that can be read. -/
def linesIn (text : Text) : List Line :=
  (Text.lines text).filterMap fun line => (Line.parse line).toOption

/-- An obsolete entry whose plural forms come out of order, with strings on several lines and with
comments and a retired comment between them. -/
def scatteredForms : List Line :=
  linesIn <| "# note\n#~ msgstr[1] \"b\"\n#~ \"c\" # end\n\n# between\n#~ \"d\"\n".toList
    ++ "#~ msgid \"a\"\n#~ # old\n#~ msgstr[0]\n#~ \"x\\n\"\n#~ msgid_plural \"as\"\n".toList

theorem says_of_ofLines_scatteredForms :
    ∃ entry, ofLines scatteredForms = .ok entry ∧ scatteredForms.length = 11 ∧
      entry.pluralValues = ["x\n".toList, "bcd".toList] ∧ entry.obsolete = true ∧
      Says entry scatteredForms := by
  have hview : (ofLines scatteredForms).toOption.map
      (fun entry => (entry.pluralValues, entry.obsolete, scatteredForms.length))
      = some (["x\n".toList, "bcd".toList], true, 11) := by decide +kernel
  obtain ⟨entry, h, hentry⟩ := Outcome.exists_ok_of_map_toOption hview
  obtain ⟨hvalues, hrest⟩ := Prod.mk.inj hentry
  obtain ⟨hobsolete, hlength⟩ := Prod.mk.inj hrest
  exact ⟨entry, h, hlength, hvalues, hobsolete, says_of_ofLines h⟩

end Entry

end MessageCatalog
