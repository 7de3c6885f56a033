import MessageCatalog.Proofs.Document.Correspondence
import MessageCatalog.Proofs.Document.Lookup
import MessageCatalog.Proofs.Line.Grammar
import MessageCatalog.Proofs.Text.Marking

/-!
# Retiring an entry

A message is retired by putting the obsolete marker in front of those of its lines that have
content. A line that is retired reads as an obsolete line, and behind its marker stands what it was
before (`Line.parse_retired`). As all that an entry says is taken from the logical lines and from
the comments in front of the first one with content, the entry says the same as before, except that
it is obsolete (`Entry.ofLines_retired`).

One kind of line could not be retired in this way: a bar behind the marker would make it a comment.
No keyword of an entry starts with a bar.
-/

namespace MessageCatalog

open Division

theorem Field.name_ne_bar (field : Field) (name : Text) : field.name ≠ '|' :: name := by
  cases field <;> simp [Field.name]

/-! ### Retired lines -/

namespace Line

/-- What is put in front of a line to retire it. -/
def retiringMark : Text := ['#', obsoleteMarker, ' ']

/-- Whether the line has content and is not obsolete. -/
def isActive (line : Line) : Bool := line.hasContent && !line.isObsolete

/-- The line behind the obsolete marker, if it has content and is not obsolete already. -/
def retired (line : Line) : Line :=
  if line.isActive then
    obsolete (' ' :: line.raw) (retiringMark ++ line.raw) (plain line.parts (' ' :: line.raw))
  else line

variable {line : Line}

theorem isActive_iff :
    line.isActive = true ↔ line.hasContent = true ∧ line.isObsolete = false := by
  simp [isActive]

theorem retired_of_active (h : line.isActive = true) :
    line.retired
      = obsolete (' ' :: line.raw) (retiringMark ++ line.raw)
          (plain line.parts (' ' :: line.raw)) :=
  if_pos h

theorem retired_of_not_active (h : ¬line.isActive = true) : line.retired = line := if_neg h

theorem retired_of_gap (h : line.hasContent = false) : line.retired = line :=
  retired_of_not_active (by simp [isActive, h])

theorem logical_of_not_isObsolete (h : line.isObsolete = false) : line.logical = line := by
  cases line with
  | plain parts raw => rfl
  | obsolete hidden raw logical => cases h

theorem isCommentOrBlank_of_active (h : line.isActive = true) : line.isCommentOrBlank = false := by
  obtain ⟨hcontent, hactive⟩ := isActive_iff.1 h
  unfold hasContent at hcontent
  rw [logical_of_not_isObsolete hactive] at hcontent
  simp [isCommentOrBlank, hcontent]

/-- Retiring a line leaves the parts of its logical line. -/
theorem parts_logical_retired (line : Line) :
    line.retired.logical.parts = line.logical.parts := by
  by_cases h : line.isActive = true
  · rw [retired_of_active h, logical_of_not_isObsolete (isActive_iff.1 h).2]
    rfl
  · rw [retired_of_not_active h]

theorem hasContent_retired (line : Line) : line.retired.hasContent = line.hasContent := by
  unfold hasContent
  rw [parts_logical_retired]

theorem keyword_logical_retired (line : Line) :
    line.retired.logical.keyword = line.logical.keyword := by
  unfold keyword
  rw [parts_logical_retired]

theorem value_logical_retired (line : Line) :
    line.retired.logical.value = line.logical.value := by
  unfold value
  rw [parts_logical_retired]

theorem text_retired (line : Line) : line.retired.text = line.text := by
  unfold text
  rw [value_logical_retired]

/-- A retired line is obsolete, if it has content at all. -/
theorem isObsolete_retired (h : line.hasContent = true) : line.retired.isObsolete = true := by
  by_cases hactive : line.isActive = true
  · rw [retired_of_active hactive]
    rfl
  · rw [retired_of_not_active hactive]
    simpa [isActive, h] using hactive

theorem not_isActive_retired (line : Line) : line.retired.isActive = false := by
  unfold isActive
  rw [hasContent_retired]
  cases h : line.hasContent with
  | false => rfl
  | true => simp [isObsolete_retired h]

/-- The division treats a retired line as it treats the line. -/
theorem sameKind_retired (line : Line) : SameKind line line.retired where
  content := (hasContent_retired line).symm
  context := by
    unfold isContext hasKeyword
    rw [keyword_logical_retired]
  id := by
    unfold isId hasKeyword
    rw [keyword_logical_retired]
  blank := by
    by_cases h : line.isActive = true
    · unfold isBlank
      rw [isCommentOrBlank_of_active h, retired_of_active h]
      rfl
    · rw [retired_of_not_active h]

/-- The text of a retired line is the text of the line behind the mark. -/
theorem raw_retired (line : Line) :
    line.retired.raw = Text.putMark retiringMark line.isActive line.raw := by
  unfold Text.putMark
  by_cases h : line.isActive = true
  · rw [retired_of_active h, if_pos h]
    rfl
  · rw [retired_of_not_active h, if_neg h]

/-- A text that starts with a bar has a keyword that does. -/
theorem keyword_of_startsWithBar {text : Text} {parts : Parts} (hspells : Spells text parts)
    (hplain : ∀ hidden, parts ≠ marked hidden) (h : StartsWithBar text) :
    ∃ name index, parts.keyword = some { name := '|' :: name, index } := by
  obtain ⟨blanks, tail, hblanks, rfl⟩ := h
  have hread := readParts_eq_ok_iff.2 hspells
  have htrim : readParts (blanks ++ '|' :: tail) = readParts ('|' :: tail) := by
    unfold readParts
    rw [trimStart_append hblanks]
  rw [htrim] at hread
  exact parse_cons_of_isNameChar (by decide) (parse_of_spells (readParts_eq_ok_iff.1 hread) hplain)

/-- A blank in front does not change what a text spells. -/
theorem Spells.blank {text : Text} {parts : Parts} (h : Spells text parts) :
    Spells (' ' :: text) parts := by
  obtain ⟨hlead, hfront, hgap, hmiddle, hspace, hback, rfl⟩ := h
  refine Spells.intro ?_ hfront hgap hmiddle hspace hback (List.cons_append).symm
  intro c hmem
  rcases List.mem_cons.1 hmem with rfl | hmem
  · decide
  · exact hlead c hmem

theorem spells_retiringMark (text : Text) : Spells (retiringMark ++ text) (marked (' ' :: text)) :=
  Spells.intro Blanks.nil SpellsKeyword.absent Blanks.nil SpellsValue.absent Blanks.nil
    (SpellsComment.present (obsoleteMarker :: ' ' :: text)) rfl

/-- A retired line reads as such, if its keyword is that of a field. -/
theorem parse_retired (h : parse line.raw = .ok line)
    (hfield : ∀ keyword ∈ line.logical.keyword, ∃ field : Field, keyword = field.keyword) :
    parse line.retired.raw = .ok line.retired := by
  by_cases hactive : line.isActive = true
  · obtain ⟨-, hplain⟩ := isActive_iff.1 hactive
    rw [logical_of_not_isObsolete hplain] at hfield
    have hunmarked : ∀ hidden, line.parts ≠ marked hidden := by
      intro hidden hparts
      have hobsolete := (isObsolete_iff_of_parse h).2 ⟨hidden, hparts⟩
      rw [hplain] at hobsolete
      cases hobsolete
    have hspells : Spells (' ' :: line.raw) line.parts := (spells_of_parse h).blank
    have hbar : ¬StartsWithBar (' ' :: line.raw) := by
      intro hstarts
      obtain ⟨name, index, hkeyword⟩ := keyword_of_startsWithBar hspells hunmarked hstarts
      obtain ⟨field, heq⟩ := hfield _ hkeyword
      exact Field.name_ne_bar field name (Keyword.mk.inj heq).1.symm
    rw [retired_of_active hactive]
    show parse (retiringMark ++ line.raw) = _
    rw [parse_of_not_startsWithBar (spells_retiringMark line.raw) hbar,
      parse_of_spells hspells hunmarked]
    rfl
  · rw [retired_of_not_active hactive]
    exact h

end Line

/-! ### Retired entries -/

namespace Block

/-- The blocks do not change. -/
theorem gather_retired (lines : List Line) : gather (lines.map Line.retired) = gather lines := by
  induction lines with
  | nil => rfl
  | cons line lines ih =>
    rw [List.map_cons, gather, gather, ih, Line.keyword_logical_retired, Line.text_retired]

theorem ofLines_retired (lines : List Line) : ofLines (lines.map Line.retired) = ofLines lines := by
  unfold ofLines
  rw [gather_retired]

/-- The keyword of a line is the keyword of a block. -/
theorem exists_mem_ofLines {lines : List Line} {line : Line} {keyword : Keyword}
    (hmem : line ∈ lines) (h : line.logical.keyword = some keyword) :
    ∃ block ∈ ofLines lines, block.keyword = keyword := by
  induction lines with
  | nil => cases hmem
  | cons first lines ih =>
    unfold ofLines
    rw [gather]
    rcases List.mem_cons.1 hmem with rfl | hmem
    · rw [h]
      exact ⟨_, List.mem_cons_self, rfl⟩
    · obtain ⟨block, hblock, hkeyword⟩ := ih hmem
      refine ⟨block, ?_, hkeyword⟩
      cases first.logical.keyword with
      | none => exact hblock
      | some other => exact List.mem_cons_of_mem _ hblock

/-- Lines without content make no block. -/
theorem ofLines_of_isGap {lines : List Line} (h : IsGap lines) : ofLines lines = [] := by
  induction lines with
  | nil => rfl
  | cons line lines ih =>
    obtain ⟨hline, hlines⟩ := IsGap.cons_iff.1 h
    unfold ofLines
    rw [gather, (Line.logical_of_not_hasContent hline).1]
    exact ih hlines

end Block

namespace Comments

theorem isLeading_retired (line : Line) : isLeading line.retired = isLeading line := by
  by_cases h : line.isActive = true
  · unfold isLeading
    rw [Line.isCommentOrBlank_of_active h, Line.isObsolete_retired (Line.isActive_iff.1 h).1]
    simp
  · rw [Line.retired_of_not_active h]

theorem retired_of_isLeading {line : Line} (h : isLeading line = true) : line.retired = line := by
  refine Line.retired_of_not_active fun hactive => ?_
  unfold isLeading at h
  rw [Line.isCommentOrBlank_of_active hactive] at h
  cases h

/-- The comments do not change: a line that ends them still does when it is retired. -/
theorem ofLines_retired (lines : List Line) : ofLines (lines.map Line.retired) = ofLines lines := by
  have hleading : (lines.map Line.retired).takeWhile isLeading = lines.takeWhile isLeading := by
    induction lines with
    | nil => rfl
    | cons line lines ih =>
      rw [List.map_cons, List.takeWhile_cons, List.takeWhile_cons, isLeading_retired, ih]
      cases h : isLeading line with
      | false => rfl
      | true => rw [retired_of_isLeading h]
  unfold ofLines
  rw [hleading]

end Comments

namespace Entry

/-- The entry with its lines retired. -/
def retired (entry : Entry) : Entry :=
  { entry with obsolete := true, lines := entry.lines.map Line.retired }

theorem key_retired (entry : Entry) : entry.retired.key = entry.key := rfl

variable {lines : List Line} {entry : Entry}

theorem fields_retired (lines : List Line) : fields (lines.map Line.retired) = fields lines := by
  unfold fields
  rw [Block.ofLines_retired]

theorem pluralIndices_retired (lines : List Line) :
    pluralIndices (lines.map Line.retired) = pluralIndices lines := by
  unfold pluralIndices
  rw [fields_retired]

theorem unsupported_retired (lines : List Line) :
    unsupported (lines.map Line.retired) = unsupported lines := by
  unfold unsupported
  rw [Block.ofLines_retired]

theorem orphan?_retired (lines : List Line) :
    orphan? (lines.map Line.retired) = (orphan? lines).map Line.retired := by
  unfold orphan?
  rw [List.takeWhile_map, List.find?_map]
  simp only [Function.comp_def, Line.keyword_logical_retired, Line.value_logical_retired]

theorem anyActive_retired (lines : List Line) : anyActive (lines.map Line.retired) = false := by
  show (lines.map Line.retired).any Line.isActive = false
  rw [List.any_map, List.any_eq_false]
  intro line _
  simp [Line.not_isActive_retired]

theorem anyObsolete_retired {line : Line} (hmem : line ∈ lines) (h : line.hasContent = true) :
    anyObsolete (lines.map Line.retired) = true := by
  refine List.any_eq_true.2 ⟨line.retired, List.mem_map_of_mem hmem, ?_⟩
  rw [Line.hasContent_retired, Line.isObsolete_retired h, h]
  rfl

/-- Nothing is wrong with the retired lines if nothing is wrong with the lines. -/
theorem issue?_retired (h : issue? lines = none) : issue? (lines.map Line.retired) = none := by
  unfold issue? at h ⊢
  rw [orphan?_retired, fields_retired, anyActive_retired, pluralIndices_retired,
    unsupported_retired]
  simp only [Option.or_eq_none_iff, Option.map_eq_none_iff, Bool.and_false, Bool.false_eq_true,
    if_false] at h ⊢
  obtain ⟨⟨⟨⟨⟨horphan, hrepeat⟩, -⟩, hgap⟩, hplural⟩, hsupported⟩ := h
  exact ⟨⟨⟨⟨⟨horphan, hrepeat⟩, trivial⟩, hgap⟩, hplural⟩, hsupported⟩

theorem content_retired {line : Line} (hmem : line ∈ lines) (h : line.hasContent = true) :
    content (lines.map Line.retired) = (content lines).retired := by
  unfold content retired
  rw [Block.ofLines_retired, Comments.ofLines_retired, pluralIndices_retired,
    anyObsolete_retired hmem h]

/-- **A retired entry says the same.** If lines that are not all without content make an entry, the
retired lines make that entry, retired. -/
theorem ofLines_retired {line : Line} (h : ofLines lines = .ok entry) (hmem : line ∈ lines)
    (hline : line.hasContent = true) : ofLines (lines.map Line.retired) = .ok entry.retired := by
  obtain ⟨hissue, rfl⟩ := ofLines_eq_ok_iff.1 h
  exact ofLines_eq_ok_iff.2 ⟨issue?_retired hissue, (content_retired hmem hline).symm⟩

/-- Every keyword in an entry is that of a field. -/
theorem exists_field_of_ofLines {line : Line} (h : ofLines lines = .ok entry)
    (hmem : line ∈ lines) :
    ∀ keyword ∈ line.logical.keyword, ∃ field : Field, keyword = field.keyword := by
  intro keyword hkeyword
  obtain ⟨hissue, -⟩ := ofLines_eq_ok_iff.1 h
  have hsupported : unsupported lines = [] := by
    by_contra hne
    simp [issue?, hne] at hissue
  obtain ⟨block, hblock, rfl⟩ := Block.exists_mem_ofLines hmem hkeyword
  unfold unsupported at hsupported
  rw [List.map_eq_nil_iff, List.filter_eq_nil_iff] at hsupported
  cases hfield : block.field? with
  | none => exact absurd (by rw [hfield]; rfl) (hsupported block hblock)
  | some field => exact ⟨field, Keyword.field?_eq_some_iff.1 hfield⟩

/-- Lines without content can only make a header. -/
theorem key_content_of_isGap (h : IsGap lines) : (content lines).key = { id := [] } := by
  unfold content key
  rw [Block.ofLines_of_isGap h]
  rfl

end Entry

end MessageCatalog
