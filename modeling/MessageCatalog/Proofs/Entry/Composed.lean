import Mathlib.Data.List.Nodup
import MessageCatalog.Entry.Basic
import MessageCatalog.Proofs.Line.Composing

/-!
# Messages composed line by line

A `Message` is what an entry says, without its lines: a context, an id, and a translation, which is
one text or a plural id with a text for each plural form. Its `contents` are its fields in the order
in which they are written, each on a line of its own.

Composing such a line cannot fail (`Field.compose_parts`), and the line reads back, whatever the
text is (`Field.parse_raw_line`). The lines of a message are an entry, also with empty lines in
front, and the entry says what the message says (`Message.exists_ofLines_lines`).
-/

namespace MessageCatalog

/-! ### Composed lines -/

/-- The line that holds nothing. -/
def Line.blank : Line := plain {} []

namespace Field

/-- The parts of the line that holds a field with its whole text. -/
def parts (field : Field) (text : Text) : Parts :=
  { keyword := field.keyword, value := Payload.ofValue text }

/-- The line that holds a field with its whole text. -/
def line (field : Field) (text : Text) : Line := .plain (field.parts text) (field.parts text).render

theorem isName_name (field : Field) : Keyword.isName field.name = true := by
  cases field <;> rfl

theorem compose_parts (field : Field) (text : Text) :
    Line.compose (field.parts text) = .ok (field.line text) := by
  have hname : Keyword.isName field.keyword.name = true := isName_name field
  simp [Line.compose, parts, line, hname, Line.hiddenIn?, Parts.hasContent]

/-- A field's line reads back, if its index fits a machine word. -/
theorem parse_raw_line {field : Field} (h : ∀ index ∈ field.index?, index < Text.wordLimit)
    (text : Text) : Line.parse (field.line text).raw = .ok (field.line text) :=
  Line.parse_render_field ⟨isName_name field, h⟩ text

theorem raw_line (field : Field) (text : Text) :
    (field.line text).raw = (field.keyword.render ++ ' ' :: '"' :: escape text) ++ ['"'] := by
  simp [line, Line.raw, parts, Parts.render, Payload.render, Payload.ofValue, Text.join,
    List.intercalate]

theorem newline_not_mem_render_keyword (field : Field) : '\n' ∉ field.keyword.render := by
  cases field with
  | plural index =>
    have hdigits : '\n' ∉ Text.decimal index := fun hmem =>
      absurd (Nat.isDigit_of_mem_toDigits (by decide) (by decide) hmem) (by decide)
    simp [Keyword.render, keyword, name, index?, hdigits]
  | context => decide
  | id => decide
  | pluralId => decide
  | value => decide

/-- Whatever a field's text is, its line is one line. -/
theorem isLine_raw_line (field : Field) (text : Text) : Text.IsLine (field.line text).raw := by
  have hescape : '\n' ∉ escape text := fun hmem =>
    absurd (le_toNat_of_mem_escape hmem) (by decide)
  rw [raw_line]
  constructor
  · simp [newline_not_mem_render_keyword, hescape]
  · rw [List.getLast?_concat]
    decide

end Field

namespace Entry

/-! ### Entries of composed lines -/

/-- Empty lines, and behind them a line for each field. -/
def composed (blanks : Nat) (contents : List (Field × Text)) : List Line :=
  List.replicate blanks Line.blank ++ contents.map fun content => content.1.line content.2

theorem composed_zero (contents : List (Field × Text)) :
    composed 0 contents = contents.map fun content => content.1.line content.2 := rfl

theorem composed_succ (blanks : Nat) (contents : List (Field × Text)) :
    composed (blanks + 1) contents = Line.blank :: composed blanks contents := rfl

variable (blanks : Nat) (contents : List (Field × Text))

theorem gather_composed :
    Block.gather (composed blanks contents)
      = ([], contents.map fun content => ⟨content.1.keyword, content.2⟩) := by
  induction blanks with
  | succ blanks ih => rw [composed_succ, Block.gather, ih]; rfl
  | zero =>
    rw [composed_zero]
    induction contents with
    | nil => rfl
    | cons content contents ih =>
      rw [List.map_cons, Block.gather, ih]
      simp [Field.line, Field.parts, Line.text, Line.logical, Line.keyword, Line.value, Line.parts,
        Payload.ofValue]

theorem field?_block (field : Field) (text : Text) :
    Block.field? ⟨field.keyword, text⟩ = some field :=
  Keyword.field?_eq_some_iff.2 rfl

theorem fields_composed : fields (composed blanks contents) = contents.map Prod.fst := by
  rw [fields, Block.ofLines, gather_composed, List.filterMap_map]
  simp [field?_block]

theorem unsupported_composed : unsupported (composed blanks contents) = [] := by
  rw [unsupported, Block.ofLines, gather_composed]
  simp [List.filter_map, Function.comp_def, field?_block]

/-- The text of a field is that of its first line. -/
theorem textOf?_composed (field : Field) :
    Block.textOf? (Block.ofLines (composed blanks contents)) field = contents.lookup field := by
  rw [Block.textOf?, Block.ofLines, gather_composed]
  dsimp only
  induction contents with
  | nil => rfl
  | cons content contents ih =>
    rw [List.map_cons, List.lookup_cons]
    by_cases h : field = content.1
    · simp [h, field?_block]
    · rw [List.find?_cons_of_neg (by simp [field?_block, Ne.symm h]), ih, beq_false_of_ne h]

theorem orphan?_composed : orphan? (composed blanks contents) = none := by
  induction blanks with
  | zero => cases contents <;> rfl
  | succ blanks ih => rw [composed_succ]; exact ih

theorem not_isObsolete_of_mem_composed {line : Line} (h : line ∈ composed blanks contents) :
    line.isObsolete = false := by
  rcases List.mem_append.1 h with h | h
  · rw [List.eq_of_mem_replicate h]
    rfl
  · obtain ⟨content, -, rfl⟩ := List.mem_map.1 h
    rfl

theorem anyObsolete_composed : anyObsolete (composed blanks contents) = false := by
  rw [anyObsolete, List.any_eq_false]
  intro line h
  simp [not_isObsolete_of_mem_composed blanks contents h]

/-- No element of a list repeats an earlier one exactly if they are all different. -/
theorem firstRepeat_eq_none_iff {α : Type} [DecidableEq α] {seen elements : List α} :
    firstRepeat seen elements = none ↔ elements.Nodup ∧ ∀ a ∈ elements, a ∉ seen := by
  induction elements generalizing seen with
  | nil => simp [firstRepeat]
  | cons a elements ih =>
    rw [firstRepeat]
    by_cases ha : a ∈ seen
    · simp [ha]
    · rw [if_neg ha, ih, List.nodup_cons]
      simp only [List.mem_cons, not_or, forall_eq_or_imp]
      constructor
      · rintro ⟨hnodup, hseen⟩
        exact ⟨⟨fun hmem => (hseen a hmem).1 rfl, hnodup⟩, ha, fun b hb => (hseen b hb).2⟩
      · rintro ⟨⟨hfresh, hnodup⟩, -, hseen⟩
        exact ⟨hnodup, fun b hb => ⟨fun heq => hfresh (heq ▸ hb), hseen b hb⟩⟩

/-- Forms that are numbered one after another have no gap. -/
theorem gapIssue?_range (forms : Nat) : gapIssue? (List.range forms) = none := by
  cases forms with
  | zero => rfl
  | succ last =>
    have hmax : (List.range (last + 1)).max? = some last := by
      rw [List.max?_eq_some_iff]
      exact ⟨by simp, fun index hmem => by have := List.mem_range.1 hmem; omega⟩
    simp [gapIssue?, hmax]

/-- Fields that nothing is missing from: none is there twice, the plural forms are numbered one
after another, and they are there exactly if the plural id is. -/
structure IsComplete (fields : List Field) (forms : Nat) : Prop where
  /-- No field is there twice. -/
  distinct : fields.Nodup
  /-- The plural forms are numbered one after another. -/
  numbered : fields.filterMap Field.index? = List.range forms
  /-- There are plural forms exactly if there is a plural id. -/
  plural : .pluralId ∈ fields ↔ 0 < forms

/-- A context or an id in front of complete fields makes complete fields. -/
theorem IsComplete.cons {fields : List Field} {forms : Nat} {field : Field}
    (h : IsComplete fields forms) (hindex : field.index? = none) (hne : field ≠ .pluralId)
    (hfresh : field ∉ fields) : IsComplete (field :: fields) forms where
  distinct := List.nodup_cons.2 ⟨hfresh, h.distinct⟩
  numbered := by rw [List.filterMap_cons_none hindex, h.numbered]
  plural := by rw [List.mem_cons, or_iff_right (Ne.symm hne), h.plural]

variable {contents}

/-- Lines with complete fields are an entry. -/
theorem ofLines_composed {forms : Nat} (h : IsComplete (contents.map Prod.fst) forms) :
    ofLines (composed blanks contents) = .ok (content (composed blanks contents)) := by
  have hrepeat : firstRepeat [] (contents.map Prod.fst) = none :=
    firstRepeat_eq_none_iff.2 ⟨h.distinct, fun _ _ => List.not_mem_nil⟩
  have hplural : pluralIssue? (contents.map Prod.fst) (List.range forms) = none := by
    rw [pluralIssue?]
    by_cases hforms : 0 < forms
    · rw [if_pos (h.plural.2 hforms)]
      simp [Nat.pos_iff_ne_zero.1 hforms]
    · rw [if_neg fun hmem => hforms (h.plural.1 hmem)]
      simp [Nat.eq_zero_of_not_pos hforms]
  have hissue : issue? (composed blanks contents) = none := by
    rw [issue?, pluralIndices, orphan?_composed, fields_composed, anyObsolete_composed,
      unsupported_composed, h.numbered, hrepeat, gapIssue?_range, hplural]
    rfl
  rw [ofLines, hissue]

/-- If no field is there twice, the text of each is the one given for it. -/
theorem lookup_eq_some_iff_mem (h : (contents.map Prod.fst).Nodup) {field : Field} {text : Text} :
    contents.lookup field = some text ↔ (field, text) ∈ contents := by
  induction contents with
  | nil => simp
  | cons content contents ih =>
    rw [List.map_cons, List.nodup_cons] at h
    rw [List.lookup_cons, List.mem_cons]
    by_cases hfield : field = content.1
    · have hbehind : (field, text) ∉ contents := fun hmem =>
        h.1 (List.mem_map.2 ⟨_, hmem, hfield⟩)
      simp [hfield, Prod.ext_iff, eq_comm, hfield ▸ hbehind]
    · rw [beq_false_of_ne hfield]
      simp [Prod.ext_iff, hfield, ih h.2]

theorem filterMap_range_getElem? (texts : List Text) :
    (List.range texts.length).filterMap (fun index => texts[index]?) = texts := by
  induction texts with
  | nil => rfl
  | cons text texts ih =>
    rw [List.length_cons, List.range_succ_eq_map, List.filterMap_cons, List.filterMap_map]
    simpa [Function.comp_def] using ih

end Entry

/-! ### Messages -/

/-- The texts of the plural forms of a message. -/
structure PluralForms where
  /-- The texts, by index. -/
  texts : List Text
  /-- There is one form at least. -/
  nonempty : texts ≠ []
  /-- The index of each form fits a machine word. -/
  fits : texts.length ≤ Text.wordLimit
  deriving DecidableEq, Repr

/-- The translation of a message. -/
inductive Translation where
  /-- One text. -/
  | single (text : Text)
  /-- The id used for more than one thing, and a text for each plural form. -/
  | plural (id : Text) (forms : PluralForms)
  deriving DecidableEq, Repr

namespace Translation

/-- The text, if there is only one. -/
def value? : Translation → Option Text
  | single text => some text
  | plural .. => none

/-- The id used for more than one thing. -/
def pluralId? : Translation → Option Text
  | single _ => none
  | plural id _ => some id

/-- The texts of the plural forms, by index. -/
def pluralValues : Translation → List Text
  | single _ => []
  | plural _ forms => forms.texts

/-- The fields of a translation with their texts, in the order in which they are written. -/
def contents : Translation → List (Field × Text)
  | single text => [(.value, text)]
  | plural id forms =>
    (.pluralId, id) :: forms.texts.zipIdx.map fun (text, index) => (.plural index, text)

theorem length_pluralValues_le (translation : Translation) :
    translation.pluralValues.length ≤ Text.wordLimit := by
  cases translation with
  | single text => exact Nat.zero_le _
  | plural id forms => exact forms.fits

theorem map_fst_plural (id : Text) (forms : PluralForms) :
    (plural id forms).contents.map Prod.fst
      = .pluralId :: (List.range forms.texts.length).map Field.plural := by
  rw [List.range_eq_range', ← List.zipIdx_map_snd, List.map_map]
  simp [contents, Function.comp_def]

theorem isComplete_contents (translation : Translation) :
    Entry.IsComplete (translation.contents.map Prod.fst) translation.pluralValues.length := by
  cases translation with
  | single text => exact ⟨List.nodup_singleton _, rfl, by simp [contents, pluralValues]⟩
  | plural id forms =>
    rw [map_fst_plural]
    refine ⟨?_, ?_, ?_⟩
    · rw [List.nodup_cons]
      exact ⟨by simp, List.nodup_range.map fun _ _ => Field.plural.inj⟩
    · rw [List.filterMap_cons_none rfl, List.filterMap_map]
      exact List.filterMap_some
    · simp [pluralValues, List.length_pos_iff, forms.nonempty]

end Translation

/-- What an entry says. -/
structure Message where
  /-- The context of the message. -/
  context : Option Text := none
  /-- The id of the message. -/
  id : Text
  /-- The translation of the message. -/
  translation : Translation
  deriving DecidableEq, Repr

namespace Message

/-- What identifies the message. -/
def key (message : Message) : EntryKey := { context := message.context, id := message.id }

/-- The fields of a message with their texts, in the order in which they are written. -/
def contents (message : Message) : List (Field × Text) :=
  message.context.toList.map (Field.context, ·)
    ++ (.id, message.id) :: message.translation.contents

/-- The text of a field of a message. -/
def text? (message : Message) : Field → Option Text
  | .context => message.context
  | .id => some message.id
  | .pluralId => message.translation.pluralId?
  | .value => message.translation.value?
  | .plural index => message.translation.pluralValues[index]?

theorem mem_contents_iff {message : Message} {field : Field} {text : Text} :
    (field, text) ∈ message.contents ↔ message.text? field = some text := by
  obtain ⟨context, id, translation⟩ := message
  cases field <;> cases translation <;>
    simp [contents, Translation.contents, text?, Translation.pluralId?, Translation.value?,
      Translation.pluralValues, eq_comm, List.mk_mem_zipIdx_iff_getElem?]

/-- The indices of a message fit a machine word. -/
theorem index_lt_of_mem_contents {message : Message} {field : Field} {text : Text}
    (h : (field, text) ∈ message.contents) : ∀ index ∈ field.index?, index < Text.wordLimit := by
  intro index hindex
  cases field with
  | plural form =>
    obtain rfl := Option.some.inj hindex
    have hform : message.translation.pluralValues[form]? = some text := mem_contents_iff.1 h
    obtain ⟨hlt, -⟩ := List.getElem?_eq_some_iff.1 hform
    exact hlt.trans_le message.translation.length_pluralValues_le
  | context => cases hindex
  | id => cases hindex
  | pluralId => cases hindex
  | value => cases hindex

theorem isComplete_contents (message : Message) :
    Entry.IsComplete (message.contents.map Prod.fst) message.translation.pluralValues.length := by
  obtain ⟨context, id, translation⟩ := message
  have hid : Field.id ∉ translation.contents.map Prod.fst := by
    cases translation <;> simp [Translation.contents]
  have hcontext : Field.context ∉ Field.id :: translation.contents.map Prod.fst := by
    cases translation <;> simp [Translation.contents]
  have hmain := translation.isComplete_contents.cons rfl (by decide) hid
  cases context with
  | none => exact hmain
  | some context => exact hmain.cons rfl (by simp) hcontext

/-- Empty lines and then the lines of a message. -/
def lines (blanks : Nat) (message : Message) : List Line := Entry.composed blanks message.contents

end Message

/-- The entry is in use and says what the message says. -/
structure Entry.Holds (entry : Entry) (message : Message) : Prop where
  /-- The entry is not obsolete. -/
  active : entry.obsolete = false
  /-- The context is that of the message. -/
  context : entry.context = message.context
  /-- The id is that of the message. -/
  id : entry.id = message.id
  /-- The text is that of the message, or empty if there are plural forms instead. -/
  value : entry.value = message.translation.value?.getD []
  /-- The plural id is that of the message. -/
  pluralId : entry.pluralId = message.translation.pluralId?
  /-- The texts of the plural forms are those of the message. -/
  pluralValues : entry.pluralValues = message.translation.pluralValues

namespace Message

/-- **The lines of a message are an entry that says what the message says.** -/
theorem exists_ofLines_lines (blanks : Nat) (message : Message) :
    ∃ entry, Entry.ofLines (message.lines blanks) = .ok entry ∧ entry.Holds message := by
  have hcomplete := message.isComplete_contents
  have htext (field : Field) :
      Block.textOf? (Block.ofLines (message.lines blanks)) field = message.text? field := by
    refine Option.ext fun text => ?_
    rw [lines, Entry.textOf?_composed, Entry.lookup_eq_some_iff_mem hcomplete.distinct,
      mem_contents_iff]
  refine ⟨_, Entry.ofLines_composed blanks hcomplete, ?_⟩
  refine ⟨Entry.anyObsolete_composed blanks _, htext .context, ?_, ?_, htext .pluralId, ?_⟩
  · exact congrArg (Option.getD · []) (htext .id)
  · exact congrArg (Option.getD · []) (htext .value)
  · have hforms : (Entry.pluralIndices (message.lines blanks)).length
        = message.translation.pluralValues.length := by
      rw [Entry.pluralIndices, lines, Entry.fields_composed, hcomplete.numbered, List.length_range]
    rw [← Entry.filterMap_range_getElem? message.translation.pluralValues, ← hforms]
    exact List.filterMap_congr fun index _ => htext (.plural index)

end Message

end MessageCatalog
