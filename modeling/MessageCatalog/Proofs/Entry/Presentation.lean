import Mathlib.Logic.Relation
import MessageCatalog.Proofs.Entry.Content

/-!
# How the lines of an entry are laid out

The same message can be written in many ways. Its fields may come in another order, lines without
content may stand between them, and a string may be spread over several lines. `Relaid` has these
three changes, and the main result is that they do not matter: if lines make an entry, then the
lines after any number of such changes make an entry that says the same (`ofLines_relaid`).

What an entry says depends on little of its lines: the comments in front, the blocks up to their
order, which of the two marks the lines with content have, and that no string comes before the first
keyword. Lines that agree in these are `Alike`, and alike lines make the same entry
(`Alike.ofLines_eq`). Each of the three changes leaves the lines alike.
-/

namespace MessageCatalog

/-! ### Lines with content -/

theorem Line.hasContent_of_not_continues {line : Line} (h : line.continues = false) :
    line.hasContent = true := by
  cases hkeyword : line.logical.keyword with
  | none => simp [continues, hkeyword] at h
  | some keyword => exact hasContent_of_keyword hkeyword

/-- A line with content ends the comments in front. -/
theorem Comments.isLeading_of_hasContent {line : Line} (h : line.hasContent = true) :
    isLeading line = false := by
  cases line with
  | plain parts raw =>
    have hparts : parts.hasContent = true := h
    simp [isLeading, Line.isCommentOrBlank, Line.parts, hparts]
  | obsolete hidden raw logical => simp [isLeading, Line.isObsolete]

/-! ### Texts of blocks in another order -/

namespace Block

variable {blocks others : List Block} {field : Field} {text : Text}

/-- If no field is there twice, the text of a field is that of any block that holds it. -/
theorem textOf?_eq_some_iff (h : (blocks.filterMap field?).Nodup) :
    textOf? blocks field = some text ↔
      ∃ block ∈ blocks, block.field? = some field ∧ block.text = text := by
  induction blocks with
  | nil => simp [textOf?]
  | cons block blocks ih =>
    by_cases hblock : block.field? = some field
    · have hfresh : ∀ other ∈ blocks, other.field? ≠ some field := by
        intro other hmem hother
        rw [List.filterMap_cons_some hblock, List.nodup_cons] at h
        exact h.1 (List.mem_filterMap.2 ⟨other, hmem, hother⟩)
      have hnone : ¬∃ other ∈ blocks, other.field? = some field ∧ other.text = text := by
        rintro ⟨other, hmem, hother, -⟩
        exact hfresh other hmem hother
      rw [textOf?, List.find?_cons_of_pos (by simp [hblock])]
      simp [hblock, hnone]
    · have hrest : (blocks.filterMap field?).Nodup := by
        rw [List.filterMap_cons] at h
        split at h
        · exact h
        · exact (List.nodup_cons.1 h).2
      rw [textOf?, List.find?_cons_of_neg (by simp [hblock]), ← textOf?, ih hrest]
      simp [hblock]

/-- Blocks that hold no field twice say the same in any order. -/
theorem textOf?_of_perm (hperm : blocks.Perm others) (h : (blocks.filterMap field?).Nodup)
    (field : Field) : textOf? others field = textOf? blocks field := by
  have hothers : (others.filterMap field?).Nodup := (hperm.filterMap field?).nodup_iff.1 h
  refine Option.ext fun text => ?_
  rw [textOf?_eq_some_iff h, textOf?_eq_some_iff hothers]
  simp only [hperm.mem_iff]

end Block

namespace Entry

/-- The highest index and the number of indices do not depend on their order. -/
theorem gapIssue?_of_perm {indices others : List Nat} (h : indices.Perm others) :
    gapIssue? others = gapIssue? indices := by
  have hmax : others.max? = indices.max? := by
    refine Option.ext fun highest => ?_
    rw [List.max?_eq_some_iff, List.max?_eq_some_iff]
    simp only [h.mem_iff]
  unfold gapIssue?
  rw [hmax, h.length_eq]

/-- Which fields and whether any indices are there does not depend on their order. -/
theorem pluralIssue?_of_perm {held others : List Field} {indices others' : List Nat}
    (hfields : held.Perm others) (hindices : indices.Perm others') :
    pluralIssue? others others' = pluralIssue? held indices := by
  have hempty : others'.isEmpty = indices.isEmpty := hindices.isEmpty_eq.symm
  unfold pluralIssue?
  simp only [hfields.mem_iff, hempty]

/-! ### Lines that make the same entry -/

/-- Lines that agree in all that an entry depends on. -/
structure Alike (lines others : List Line) : Prop where
  /-- The comments in front are the same. -/
  comments : Comments.ofLines others = Comments.ofLines lines
  /-- The blocks are the same, in some order. -/
  blocks : (Block.ofLines lines).Perm (Block.ofLines others)
  /-- No string comes before the first keyword, if none did. -/
  orphan : orphan? lines = none → orphan? others = none
  /-- Some line with content is obsolete, if and only if one was. -/
  obsolete : anyObsolete others = anyObsolete lines
  /-- Some line with content is in use, if and only if one was. -/
  active : anyActive others = anyActive lines

namespace Alike

variable {lines others : List Line}

theorem fields_perm (h : Alike lines others) : (fields lines).Perm (fields others) :=
  h.blocks.filterMap Block.field?

theorem pluralIndices_perm (h : Alike lines others) :
    (pluralIndices lines).Perm (pluralIndices others) :=
  h.fields_perm.filterMap Field.index?

theorem isSound (h : Alike lines others) (hsound : IsSound lines) : IsSound others where
  orphan := h.orphan hsound.orphan
  distinct := h.fields_perm.nodup_iff.1 hsound.distinct
  unmixed := by
    rw [h.obsolete, h.active]
    exact hsound.unmixed
  gapless := by
    rw [gapIssue?_of_perm h.pluralIndices_perm]
    exact hsound.gapless
  paired := by
    rw [pluralIssue?_of_perm h.fields_perm h.pluralIndices_perm]
    exact hsound.paired
  supported := by
    have hperm : (unsupported lines).Perm (unsupported others) := (h.blocks.filter _).map _
    rw [hsound.supported] at hperm
    exact hperm.nil_eq.symm

theorem content_eq (h : Alike lines others) (hdistinct : (fields lines).Nodup) :
    content others = { content lines with lines := others } := by
  have htext (field : Field) : Block.textOf? (Block.ofLines others) field
      = Block.textOf? (Block.ofLines lines) field :=
    Block.textOf?_of_perm h.blocks hdistinct field
  unfold content
  simp only [htext, h.comments, h.obsolete, h.pluralIndices_perm.length_eq]

/-- Alike lines make the same entry, up to the lines that it keeps. -/
theorem ofLines_eq {entry : Entry} (h : Alike lines others) (hlines : ofLines lines = .ok entry) :
    ofLines others = .ok { entry with lines := others } := by
  obtain ⟨hissue, rfl⟩ := ofLines_eq_ok_iff.1 hlines
  have hsound := issue?_eq_none_iff.1 hissue
  exact ofLines_eq_ok_iff.2
    ⟨issue?_eq_none_iff.2 (h.isSound hsound), (h.content_eq hsound.distinct).symm⟩

end Alike

/-! ### Where a search ends -/

variable {front behind others : List Line} {line : Line}

/-- A stretch of lines with some property ends where lines without it follow. -/
theorem takeWhile_append_of_stop {p : Line → Bool} (h : ∀ first ∈ behind.head?, p first = false) :
    (front ++ behind).takeWhile p = front.takeWhile p := by
  rw [List.takeWhile_append]
  split
  next hall =>
    rw [List.IsPrefix.eq_of_length (List.takeWhile_prefix p) hall]
    cases behind with
    | nil => rw [List.takeWhile_nil, List.append_nil]
    | cons first behind =>
      rw [List.takeWhile_cons_of_neg (by simp [h first rfl]), List.append_nil]
  next => rfl

/-- The lines that follow start with a keyword, if there are any. -/
def StartsBlock (lines : List Line) : Prop := ∀ first ∈ lines.head?, first.continues = false

theorem StartsBlock.cons (h : line.continues = false) (lines : List Line) :
    StartsBlock (line :: lines) := by
  intro first hfirst
  obtain rfl := Option.some.inj hfirst
  exact h

/-- The comments in front end at a keyword. -/
theorem comments_append_of_startsBlock (h : StartsBlock behind) :
    Comments.ofLines (front ++ behind) = Comments.ofLines front := by
  unfold Comments.ofLines
  rw [takeWhile_append_of_stop fun first hfirst =>
    Comments.isLeading_of_hasContent (Line.hasContent_of_not_continues (h first hfirst))]

/-- The comments in front end at a line with content. -/
theorem comments_append_cons (h : line.hasContent = true) (behind : List Line) :
    Comments.ofLines (front ++ line :: behind) = Comments.ofLines front := by
  unfold Comments.ofLines
  rw [takeWhile_append_of_stop]
  intro first hfirst
  obtain rfl := Option.some.inj hfirst
  exact Comments.isLeading_of_hasContent h

/-- Strings without a keyword are looked for up to the first keyword. -/
theorem orphan?_append_of_startsBlock (h : StartsBlock behind) :
    orphan? (front ++ behind) = orphan? front := by
  have htake : (front ++ behind).takeWhile Line.continues = front.takeWhile Line.continues :=
    takeWhile_append_of_stop h
  exact congrArg (List.find? fun line => line.logical.value.isSome) htake

/-- The blocks of lines are those in front of a keyword and those behind. -/
theorem blocks_append_of_startsBlock (h : StartsBlock behind) :
    Block.ofLines (front ++ behind) = Block.ofLines front ++ Block.ofLines behind := by
  induction front with
  | nil => rfl
  | cons line front ih =>
    cases hkeyword : line.logical.keyword with
    | none =>
      have hline : line.continues = true := by simp [Line.continues, hkeyword]
      rw [List.cons_append, Block.ofLines_cons_of_continues hline,
        Block.ofLines_cons_of_continues hline, ih]
    | some keyword =>
      rw [List.cons_append, Block.ofLines_cons_of_keyword hkeyword,
        Block.ofLines_cons_of_keyword hkeyword, takeWhile_append_of_stop h, ih, List.cons_append]

/-! ### Blocks in another order -/

/-- A line with a keyword, and lines that continue it. -/
inductive IsBlock : List Line → Prop where
  /-- There may be any number of lines that continue the first one. -/
  | intro {line : Line} {more : List Line} : line.continues = false →
      (∀ next ∈ more, next.continues = true) → IsBlock (line :: more)

theorem startsBlock_flatten {blocks : List (List Line)} (h : ∀ block ∈ blocks, IsBlock block) :
    StartsBlock blocks.flatten := by
  cases blocks with
  | nil => exact fun _ hfirst => by cases hfirst
  | cons block blocks =>
    obtain ⟨hline, -⟩ := h block List.mem_cons_self
    exact StartsBlock.cons hline _

theorem blocks_flatten {blocks : List (List Line)} (h : ∀ block ∈ blocks, IsBlock block) :
    Block.ofLines blocks.flatten = blocks.flatMap Block.ofLines := by
  induction blocks with
  | nil => rfl
  | cons block blocks ih =>
    have hblocks : ∀ other ∈ blocks, IsBlock other := fun other hmem =>
      h other (List.mem_cons_of_mem _ hmem)
    rw [List.flatten_cons, blocks_append_of_startsBlock (startsBlock_flatten hblocks), ih hblocks,
      List.flatMap_cons]

/-- The order of the blocks does not matter. -/
theorem alike_permuted {lead : List Line} {blocks others : List (List Line)}
    (hblocks : ∀ block ∈ blocks, IsBlock block) (hperm : blocks.Perm others) :
    Alike (lead ++ blocks.flatten) (lead ++ others.flatten) := by
  have hothers : ∀ block ∈ others, IsBlock block := fun block hmem =>
    hblocks block (hperm.mem_iff.2 hmem)
  have hstart := startsBlock_flatten hblocks
  have hstart' := startsBlock_flatten hothers
  have hlines : (lead ++ others.flatten).Perm (lead ++ blocks.flatten) :=
    hperm.symm.flatten.append_left lead
  constructor
  case comments =>
    rw [comments_append_of_startsBlock hstart', comments_append_of_startsBlock hstart]
  case blocks =>
    rw [blocks_append_of_startsBlock hstart, blocks_append_of_startsBlock hstart',
      blocks_flatten hblocks, blocks_flatten hothers]
    exact (hperm.flatMap_right Block.ofLines).append_left _
  case orphan =>
    rw [orphan?_append_of_startsBlock hstart, orphan?_append_of_startsBlock hstart']
    exact fun horphan => horphan
  case obsolete => exact hlines.any_eq
  case active => exact hlines.any_eq

/-! ### Lines without content -/

/-- Lines without content do not change the blocks. -/
theorem gather_filter_hasContent (lines : List Line) :
    Block.gather (lines.filter Line.hasContent) = Block.gather lines := by
  induction lines with
  | nil => rfl
  | cons line lines ih =>
    cases hcontent : line.hasContent with
    | true => rw [List.filter_cons_of_pos hcontent, Block.gather, Block.gather, ih]
    | false =>
      obtain ⟨hkeyword, hvalue⟩ := Line.logical_of_not_hasContent hcontent
      have htext : line.text = [] := by simp [Line.text, hvalue]
      rw [List.filter_cons_of_neg (by simp [hcontent]), ih, Block.gather, hkeyword, htext]
      rfl

/-- Whether lines with content have a mark can be told from the lines with content. -/
theorem any_filter_hasContent (p : Line → Bool) (lines : List Line) :
    (lines.filter Line.hasContent).any (fun line => line.hasContent && p line)
      = lines.any fun line => line.hasContent && p line := by
  rw [List.any_filter]
  congr 1
  funext line
  rw [← Bool.and_assoc, Bool.and_self]

/-- Behind a keyword, lines without content do not matter. -/
theorem alike_spaced (hline : line.continues = false)
    (hfilter : behind.filter Line.hasContent = others.filter Line.hasContent) :
    Alike (front ++ line :: behind) (front ++ line :: others) := by
  have hcontent := Line.hasContent_of_not_continues hline
  have hgather : Block.gather others = Block.gather behind := by
    rw [← gather_filter_hasContent others, ← hfilter, gather_filter_hasContent]
  have hany (p : Line → Bool) : others.any (fun line => line.hasContent && p line)
      = behind.any fun line => line.hasContent && p line := by
    rw [← any_filter_hasContent p others, ← hfilter, any_filter_hasContent]
  constructor
  case comments => rw [comments_append_cons hcontent, comments_append_cons hcontent]
  case blocks =>
    rw [blocks_append_of_startsBlock (StartsBlock.cons hline behind),
      blocks_append_of_startsBlock (StartsBlock.cons hline others)]
    unfold Block.ofLines
    rw [Block.gather, Block.gather, hgather]
  case orphan =>
    rw [orphan?_append_of_startsBlock (StartsBlock.cons hline behind),
      orphan?_append_of_startsBlock (StartsBlock.cons hline others)]
    exact fun horphan => horphan
  case obsolete =>
    unfold anyObsolete
    rw [List.any_append, List.any_append, List.any_cons, List.any_cons, hany Line.isObsolete]
  case active =>
    unfold anyActive
    rw [List.any_append, List.any_append, List.any_cons, List.any_cons,
      hany fun line => !line.isObsolete]

/-! ### A string on several lines -/

/-- Lines that continue a block put their strings in front of those that follow. -/
theorem gather_append_of_continues (h : ∀ line ∈ front, line.continues = true)
    (behind : List Line) :
    Block.gather (front ++ behind)
      = (front.flatMap Line.text ++ (Block.gather behind).1, (Block.gather behind).2) := by
  induction front with
  | nil => rfl
  | cons line front ih =>
    have hkeyword : line.logical.keyword = none :=
      Option.isNone_iff_eq_none.1 (h line List.mem_cons_self)
    have hfront : ∀ other ∈ front, other.continues = true := fun other hmem =>
      h other (List.mem_cons_of_mem _ hmem)
    rw [List.cons_append, Block.gather, ih hfront, hkeyword, List.flatMap_cons, List.append_assoc]

/-- The blocks of lines depend only on what the lines at the end give. -/
theorem gather_append_congr (h : Block.gather behind = Block.gather others) (front : List Line) :
    Block.gather (front ++ behind) = Block.gather (front ++ others) := by
  induction front with
  | nil => exact h
  | cons line front ih => rw [List.cons_append, List.cons_append, Block.gather, Block.gather, ih]

/-- A line with a string is as good as several lines that hold the string together. -/
structure Wraps (line first : Line) (more : List Line) : Prop where
  /-- The line has a string. -/
  value : line.logical.value.isSome = true
  /-- The first of the other lines has the keyword of the line, or none if the line has none. -/
  keyword : first.logical.keyword = line.logical.keyword
  /-- The first of the other lines has a string. -/
  firstValue : first.logical.value.isSome = true
  /-- The lines behind it have a string and no keyword. -/
  bare : ∀ next ∈ more, next.logical.keyword = none ∧ next.logical.value.isSome = true
  /-- All of them are obsolete if the line is, and otherwise none is. -/
  isObsolete : ∀ next ∈ first :: more, next.isObsolete = line.isObsolete
  /-- Their strings, one after another, are the string of the line. -/
  text : (first :: more).flatMap Line.text = line.text

namespace Wraps

variable {first : Line} {more : List Line}

theorem hasContent (h : Wraps line first more) :
    ∀ next ∈ first :: more, next.hasContent = true := by
  intro next hmem
  rcases List.mem_cons.1 hmem with rfl | hmem
  · exact Line.hasContent_of_value h.firstValue
  · exact Line.hasContent_of_value (h.bare next hmem).2

theorem gather_eq (h : Wraps line first more) (behind : List Line) :
    Block.gather (first :: (more ++ behind)) = Block.gather (line :: behind) := by
  have hmore : ∀ next ∈ more, next.continues = true := fun next hmem =>
    Option.isNone_iff_eq_none.2 (h.bare next hmem).1
  have htext := h.text
  rw [List.flatMap_cons] at htext
  rw [Block.gather, Block.gather, gather_append_of_continues hmore, h.keyword, ← htext]
  cases line.logical.keyword with
  | none => simp only [List.append_assoc]
  | some keyword => simp only [List.append_assoc]

/-- What the lines with content are like is told by any of the lines that hold the string. -/
theorem any_eq (h : Wraps line first more) {p : Line → Bool}
    (hp : ∀ next ∈ first :: more, p next = p line) (behind : List Line) :
    (first :: (more ++ behind)).any (fun line => line.hasContent && p line)
      = (line :: behind).any fun line => line.hasContent && p line := by
  have hall : (first :: more).any (fun line => line.hasContent && p line)
      = (line.hasContent && p line) := by
    rw [Bool.eq_iff_iff, List.any_eq_true]
    constructor
    · rintro ⟨next, hmem, hnext⟩
      rw [Line.hasContent_of_value h.value, ← hp next hmem]
      exact (Bool.and_eq_true_iff.1 hnext).2
    · intro hline
      refine ⟨first, List.mem_cons_self, ?_⟩
      rw [h.hasContent first List.mem_cons_self, hp first List.mem_cons_self]
      exact (Bool.and_eq_true_iff.1 hline).2
  rw [← List.cons_append, List.any_append, hall, List.any_cons]

/-- If a keyword comes before the string of the line or with it, then also before or with the
strings of the other lines. -/
theorem orphan?_eq_none (h : Wraps line first more)
    (horphan : orphan? (front ++ line :: behind) = none) :
    orphan? (front ++ first :: (more ++ behind)) = none := by
  have hfirst : first.continues = line.continues := by
    unfold Line.continues
    rw [h.keyword]
  cases hline : line.continues with
  | false =>
    rw [orphan?_append_of_startsBlock (StartsBlock.cons hline behind)] at horphan
    rwa [orphan?_append_of_startsBlock (StartsBlock.cons (hfirst.trans hline) _)]
  | true =>
    -- the keyword comes before the line, and the search ends there
    obtain ⟨keyed, hmem, hkeyed⟩ : ∃ keyed ∈ front, keyed.continues = false := by
      by_contra hnone
      have hall : ∀ other ∈ front ++ [line], other.continues = true := by
        intro other hmem
        rcases List.mem_append.1 hmem with hmem | hmem
        · by_contra hother
          exact hnone ⟨other, hmem, Bool.eq_false_iff.2 hother⟩
        · rw [List.mem_singleton.1 hmem]
          exact hline
      have hmem : line ∈ (front ++ line :: behind).takeWhile Line.continues := by
        rw [List.append_cons, List.takeWhile_append_of_pos hall]
        simp
      have := orphan?_eq_none_iff.1 horphan line hmem
      rw [h.value] at this
      cases this
    obtain ⟨gap, tail, rfl⟩ := List.append_of_mem hmem
    rw [List.append_assoc, List.cons_append,
      orphan?_append_of_startsBlock (StartsBlock.cons hkeyed _)] at horphan ⊢
    exact horphan

end Wraps

/-- It does not matter on how many lines a string is written. -/
theorem alike_wrapped {first : Line} {more : List Line} (h : Wraps line first more) :
    Alike (front ++ line :: behind) (front ++ first :: (more ++ behind)) := by
  constructor
  case comments =>
    rw [comments_append_cons (Line.hasContent_of_value h.firstValue),
      comments_append_cons (Line.hasContent_of_value h.value)]
  case blocks =>
    unfold Block.ofLines
    rw [gather_append_congr (h.gather_eq behind) front]
  case orphan => exact h.orphan?_eq_none
  case obsolete =>
    unfold anyObsolete
    rw [List.any_append, List.any_append, h.any_eq h.isObsolete]
  case active =>
    have hactive : ∀ next ∈ first :: more, (!next.isObsolete) = !line.isObsolete :=
      fun next hmem => congrArg not (h.isObsolete next hmem)
    unfold anyActive
    rw [List.any_append, List.any_append, h.any_eq hactive]

/-! ### Any number of changes -/

/-- One change of how lines are laid out. -/
inductive Relaid : List Line → List Line → Prop where
  /-- Behind some lines, such as those before the first keyword, the blocks come in another
  order. -/
  | permuted {lead : List Line} {blocks others : List (List Line)} :
      (∀ block ∈ blocks, IsBlock block) → blocks.Perm others →
      Relaid (lead ++ blocks.flatten) (lead ++ others.flatten)
  /-- Behind a line with a keyword, lines without content are put in or taken out. -/
  | spaced {front behind others : List Line} {line : Line} : line.continues = false →
      behind.filter Line.hasContent = others.filter Line.hasContent →
      Relaid (front ++ line :: behind) (front ++ line :: others)
  /-- A line with a string is replaced by lines that hold the string together. -/
  | wrapped {front behind more : List Line} {line first : Line} : Wraps line first more →
      Relaid (front ++ line :: behind) (front ++ first :: (more ++ behind))

variable {lines : List Line} {entry : Entry}

theorem Relaid.alike (h : Relaid lines others) : Alike lines others := by
  cases h with
  | permuted hblocks hperm => exact alike_permuted hblocks hperm
  | spaced hline hfilter => exact alike_spaced hline hfilter
  | wrapped hwraps => exact alike_wrapped hwraps

/-- **What an entry says does not depend on how it is laid out.** If lines make an entry, the lines
after any number of changes of their layout make an entry with the same comments, context, id,
translated texts and mark. Only the lines that the entry keeps are others. -/
theorem ofLines_relaid (h : Relation.ReflTransGen Relaid lines others)
    (hlines : ofLines lines = .ok entry) :
    ofLines others = .ok { entry with lines := others } := by
  induction h with
  | refl =>
    obtain ⟨-, rfl⟩ := ofLines_eq_ok_iff.1 hlines
    exact hlines
  | tail _ hstep ih =>
    have hnext := hstep.alike.ofLines_eq ih
    exact hnext

/-- The line that holds a string only. -/
def bareLine (text : Text) : Line :=
  .plain { value := Payload.ofValue text } (Payload.ofValue text).render

/-- A line with a comment. -/
def noteLine : Line := .plain { comment := " note".toList } "# note".toList

/-- A message with two plural forms, a line for each field. -/
def compactLayout : List Line :=
  [noteLine, Field.line .id "ab".toList, Field.line .pluralId "c".toList,
    Field.line (.plural 0) "x".toList, Field.line (.plural 1) "y".toList]

/-- The same message with its id on two lines, the plural forms in front and out of order, and lines
without content between the blocks and within one. -/
def looseLayout : List Line :=
  [noteLine, Field.line (.plural 1) "y".toList, Line.blank, Field.line (.plural 0) "x".toList,
    Field.line .id "a".toList, noteLine, bareLine "b".toList, Field.line .pluralId "c".toList]

theorem relaid_looseLayout : Relation.ReflTransGen Relaid compactLayout looseLayout := by
  let idLines := [Field.line .id "a".toList, bareLine "b".toList]
  let pluralIdLines := [Field.line .pluralId "c".toList]
  let firstForm := [Field.line (.plural 0) "x".toList]
  let secondForm := [Field.line (.plural 1) "y".toList]
  have hwraps : Wraps (Field.line .id "ab".toList) (Field.line .id "a".toList)
      [bareLine "b".toList] := by
    constructor <;> decide +kernel
  have hblocks : ∀ block ∈ [idLines, pluralIdLines, firstForm, secondForm], IsBlock block := by
    have hsingle (field : Field) (text : Text) : IsBlock [field.line text] :=
      .intro rfl fun _ hmem => absurd hmem List.not_mem_nil
    have hid : IsBlock idLines := .intro rfl (by decide +kernel)
    simp [hid, pluralIdLines, firstForm, secondForm, hsingle]
  have hperm : [idLines, pluralIdLines, firstForm, secondForm].Perm
      [secondForm, firstForm, idLines, pluralIdLines] :=
    (@List.perm_append_comm _ [idLines, pluralIdLines] [firstForm, secondForm]).trans
      (List.Perm.swap ..)
  have hspread : Relaid compactLayout
      ([noteLine] ++ [idLines, pluralIdLines, firstForm, secondForm].flatten) :=
    @Relaid.wrapped [noteLine] _ _ _ _ hwraps
  have hmoved := @Relaid.permuted [noteLine] _ _ hblocks hperm
  have hspaced : Relaid
      ([noteLine] ++ [secondForm, firstForm, idLines, pluralIdLines].flatten) looseLayout :=
    @Relaid.spaced [noteLine] _ _ _ rfl (by decide +kernel)
  exact ((Relation.ReflTransGen.single hspread).tail hmoved).tail hspaced

theorem ofLines_relaid_looseLayout :
    ∃ entry, ofLines compactLayout = .ok entry ∧
      Relation.ReflTransGen Relaid compactLayout looseLayout ∧
      entry.pluralValues = ["x".toList, "y".toList] ∧
      ofLines looseLayout = .ok { entry with lines := looseLayout } := by
  have hvalues : (ofLines compactLayout).toOption.map pluralValues
      = some ["x".toList, "y".toList] := by decide +kernel
  obtain ⟨entry, h, hentry⟩ := Outcome.exists_ok_of_map_toOption hvalues
  exact ⟨entry, h, relaid_looseLayout, hentry, ofLines_relaid relaid_looseLayout h⟩

end Entry

end MessageCatalog
