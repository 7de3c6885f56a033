import Mathlib.Data.List.DropRight
import MessageCatalog.Document.Basic

/-!
# Dividing the lines of a catalog as a whole

`Assembly` divides the lines of a catalog in one pass, with two buffers and a flag. This module says
what the division is in terms of the whole list of lines, in three steps.

* `settle` puts the lines in their final order. Only one thing moves: lines without content that
  stand directly before the id that a context waits for go behind that id.
* `pieces` cuts the settled lines in front of every line that opens an entry, that is, every context
  and every id that no context waits for.
* `handOver` moves the cuts up. Of the lines without content at the end of a piece, those from the
  first blank one on belong to the next piece.

The entries are made of the resulting `runs`. `Proofs.Document.Refinement` proves that the pass
computes them; here stand the laws of the three steps. No line is lost by them: the runs one after
another are the settled lines (`flatten_runs`), and the settled lines are the lines in another order
(`settle_perm`), in which the lines with content have kept theirs (`filter_settle`). Settling twice
changes nothing more (`settle_settle`), and the lines are settled already exactly if no line without
content stands directly before an id that a context waits for (`settle_eq_self_iff`).
-/

namespace MessageCatalog

/-! ### Kinds of lines -/

namespace Line

theorem isContext_iff {line : Line} :
    line.isContext = true ↔ line.logical.keyword = some Field.context.keyword :=
  decide_eq_true_iff

theorem isId_iff {line : Line} :
    line.isId = true ↔ line.logical.keyword = some Field.id.keyword :=
  decide_eq_true_iff

theorem hasContent_of_keyword {line : Line} {keyword : Keyword}
    (h : line.logical.keyword = some keyword) : line.hasContent = true := by
  rw [Line.keyword] at h
  simp [hasContent, Parts.hasContent, h]

theorem hasContent_of_value {line : Line} (h : line.logical.value.isSome = true) :
    line.hasContent = true := by
  rw [hasContent, Parts.hasContent, Bool.or_eq_true]
  exact .inr h

/-- The logical line of a line without content has neither keyword nor string. -/
theorem logical_of_not_hasContent {line : Line} (h : line.hasContent = false) :
    line.logical.keyword = none ∧ line.logical.value = none := by
  simpa [hasContent, Parts.hasContent, keyword, value] using h

theorem hasContent_of_isContext {line : Line} (h : line.isContext = true) :
    line.hasContent = true :=
  hasContent_of_keyword (isContext_iff.1 h)

theorem hasContent_of_isId {line : Line} (h : line.isId = true) : line.hasContent = true :=
  hasContent_of_keyword (isId_iff.1 h)

theorem isContext_of_not_hasContent {line : Line} (h : line.hasContent = false) :
    line.isContext = false := by
  cases hc : line.isContext with
  | false => rfl
  | true => exact absurd (hasContent_of_isContext hc) (by simp [h])

theorem isId_of_not_hasContent {line : Line} (h : line.hasContent = false) :
    line.isId = false := by
  cases hi : line.isId with
  | false => rfl
  | true => exact absurd (hasContent_of_isId hi) (by simp [h])

/-- A line does not introduce a context and an id at once. -/
theorem isContext_of_isId {line : Line} (h : line.isId = true) : line.isContext = false := by
  cases hc : line.isContext with
  | false => rfl
  | true =>
    have : some Field.context.keyword = some Field.id.keyword :=
      (isContext_iff.1 hc).symm.trans (isId_iff.1 h)
    exact absurd (Field.keyword_injective (Option.some.inj this)) (by decide)

end Line

namespace Division

/-- Lines none of which has content. -/
def IsGap (lines : List Line) : Prop := ∀ line ∈ lines, line.hasContent = false

theorem IsGap.nil : IsGap [] := fun _ h => absurd h List.not_mem_nil

theorem IsGap.append {a b : List Line} (ha : IsGap a) (hb : IsGap b) : IsGap (a ++ b) := by
  intro line h
  rcases List.mem_append.1 h with h | h
  · exact ha line h
  · exact hb line h

theorem IsGap.singleton {line : Line} (h : line.hasContent = false) : IsGap [line] := by
  intro other hmem
  rw [List.mem_singleton.1 hmem]
  exact h

theorem IsGap.mono {a b : List Line} (h : IsGap b) (hsub : a ⊆ b) : IsGap a := fun line hmem =>
  h line (hsub hmem)

theorem IsGap.cons_iff {line : Line} {lines : List Line} :
    IsGap (line :: lines) ↔ line.hasContent = false ∧ IsGap lines := by
  simp [IsGap]

/-- Lines none of which introduces a context or an id. -/
def IsInner (lines : List Line) : Prop :=
  ∀ line ∈ lines, line.isContext = false ∧ line.isId = false

theorem IsInner.cons_iff {line : Line} {lines : List Line} :
    IsInner (line :: lines) ↔ (line.isContext = false ∧ line.isId = false) ∧ IsInner lines := by
  simp [IsInner]

theorem IsGap.isInner {lines : List Line} (h : IsGap lines) : IsInner lines := fun line hmem =>
  ⟨Line.isContext_of_not_hasContent (h line hmem), Line.isId_of_not_hasContent (h line hmem)⟩

/-! ### Contexts that wait for their id -/

/-- The lines that introduce a context or an id. -/
def marks (lines : List Line) : List Line :=
  lines.filter fun line => line.isContext || line.isId

theorem marks_append (a b : List Line) : marks (a ++ b) = marks a ++ marks b :=
  List.filter_append ..

theorem IsInner.marks_eq_nil {lines : List Line} (h : IsInner lines) : marks lines = [] := by
  refine List.filter_eq_nil_iff.2 fun line hmem => ?_
  simp [h line hmem]

/-- Whether behind these lines a context waits for its id: no id has come since. -/
def waits (lines : List Line) : Bool := (marks lines).getLast?.any Line.isContext

/-- Whether behind a line a context waits for its id, given whether one does before it. -/
def awaits (waiting : Bool) (line : Line) : Bool := line.isContext || (waiting && !line.isId)

theorem waits_nil : waits [] = false := rfl

theorem waits_concat (lines : List Line) (line : Line) :
    waits (lines ++ [line]) = awaits (waits lines) line := by
  cases hc : line.isContext with
  | true => simp [waits, marks, awaits, hc]
  | false =>
    cases hi : line.isId with
    | true => simp [waits, marks, awaits, hc, hi]
    | false => simp [waits, marks, awaits, hc, hi]

theorem awaits_inner {line : Line} (hc : line.isContext = false) (hi : line.isId = false)
    (waiting : Bool) : awaits waiting line = waiting := by
  simp [awaits, hc, hi]

theorem awaits_gap {line : Line} (h : line.hasContent = false) (waiting : Bool) :
    awaits waiting line = waiting :=
  awaits_inner (Line.isContext_of_not_hasContent h) (Line.isId_of_not_hasContent h) waiting

theorem awaits_of_isId {line : Line} (h : line.isId = true) (waiting : Bool) :
    awaits waiting line = false := by
  simp [awaits, h, Line.isContext_of_isId h]

theorem awaits_of_isContext {line : Line} (h : line.isContext = true) (waiting : Bool) :
    awaits waiting line = true := by
  simp [awaits, h]

/-- Every context is answered: no context comes while another one waits for its id, and behind the
last line none waits. -/
structure ContextsAnswered (lines : List Line) : Prop where
  /-- Two contexts have an id between them. -/
  separated : ∀ before line behind, lines = before ++ line :: behind → line.isContext = true →
    waits before = false
  /-- The last context has an id behind it. -/
  complete : waits lines = false

/-- Whether every context in the lines is answered, given whether one waits before them. -/
def answered (waiting : Bool) : List Line → Bool
  | [] => !waiting
  | line :: lines => !(waiting && line.isContext) && answered (awaits waiting line) lines

theorem answered_waits_iff (seen lines : List Line) :
    answered (waits seen) lines = true ↔
      (∀ before line behind, lines = before ++ line :: behind → line.isContext = true →
        waits (seen ++ before) = false) ∧ waits (seen ++ lines) = false := by
  induction lines generalizing seen with
  | nil => simp [answered]
  | cons line lines ih =>
    have ih' := ih (seen ++ [line])
    rw [waits_concat, List.append_assoc, List.singleton_append] at ih'
    rw [answered, Bool.and_eq_true, ih']
    constructor
    · rintro ⟨hline, hall, hlast⟩
      refine ⟨fun before other behind heq hother => ?_, hlast⟩
      cases before with
      | nil =>
        obtain ⟨rfl, -⟩ := List.cons.inj heq
        simpa [hother] using hline
      | cons first before =>
        obtain ⟨rfl, htail⟩ := List.cons.inj heq
        simpa using hall before other behind htail hother
    · rintro ⟨hall, hlast⟩
      refine ⟨?_, fun before other behind heq hother => ?_, hlast⟩
      · cases hc : line.isContext with
        | false => simp
        | true => simpa using hall [] line lines rfl hc
      · simpa using hall (line :: before) other behind (by rw [heq]; rfl) hother

theorem answered_iff (lines : List Line) :
    answered false lines = true ↔ ContextsAnswered lines := by
  rw [← waits_nil, answered_waits_iff]
  exact ⟨fun ⟨h₁, h₂⟩ => ⟨h₁, h₂⟩, fun ⟨h₁, h₂⟩ => ⟨h₁, h₂⟩⟩

theorem answered_inner_append {inner : List Line} (h : IsInner inner) (waiting : Bool)
    (lines : List Line) : answered waiting (inner ++ lines) = answered waiting lines := by
  induction inner with
  | nil => rfl
  | cons line inner ih =>
    obtain ⟨⟨hc, hi⟩, hinner⟩ := IsInner.cons_iff.1 h
    rw [List.cons_append, answered, awaits_inner hc hi, ih hinner, hc]
    simp

/-- Lines without content do not matter to the contexts. -/
theorem answered_filter (waiting : Bool) (lines : List Line) :
    answered waiting (lines.filter Line.hasContent) = answered waiting lines := by
  induction lines generalizing waiting with
  | nil => rfl
  | cons line lines ih =>
    cases hc : line.hasContent with
    | true => rw [List.filter_cons_of_pos hc, answered, answered, ih]
    | false =>
      rw [List.filter_cons_of_neg (by simp [hc]), ih, answered, awaits_gap hc,
        Line.isContext_of_not_hasContent hc]
      simp

/-! ### The final order of the lines -/

/-- Puts a line in front of the others, or behind the first of them if that is an id. -/
def sink (line : Line) : List Line → List Line
  | [] => [line]
  | next :: lines => if next.isId then next :: line :: lines else line :: next :: lines

/-- The lines in their final order, given whether a context waits before them: lines without content
that stand directly before the id that a context waits for go behind that id. -/
def settle (waiting : Bool) : List Line → List Line
  | [] => []
  | line :: lines =>
    let rest := settle (awaits waiting line) lines
    if waiting && !line.hasContent then sink line rest else line :: rest

theorem sink_of_isId {line next : Line} (h : next.isId = true) (lines : List Line) :
    sink line (next :: lines) = next :: line :: lines := by
  simp [sink, h]

theorem sink_of_not_isId {line next : Line} (h : next.isId = false) (lines : List Line) :
    sink line (next :: lines) = line :: next :: lines := by
  simp [sink, h]

theorem settle_content {line : Line} (h : line.hasContent = true) (waiting : Bool)
    (lines : List Line) :
    settle waiting (line :: lines) = line :: settle (awaits waiting line) lines := by
  simp [settle, h]

theorem settle_of_isId {id : Line} (h : id.isId = true) (waiting : Bool) (lines : List Line) :
    settle waiting (id :: lines) = id :: settle false lines := by
  rw [settle_content (Line.hasContent_of_isId h), awaits_of_isId h]

theorem settle_gap_waiting {line : Line} (h : line.hasContent = false) (lines : List Line) :
    settle true (line :: lines) = sink line (settle true lines) := by
  simp [settle, h, awaits_gap h]

theorem settle_gap_append {gap : List Line} (h : IsGap gap) (lines : List Line) :
    settle false (gap ++ lines) = gap ++ settle false lines := by
  induction gap with
  | nil => rfl
  | cons line gap ih =>
    obtain ⟨hline, hgap⟩ := IsGap.cons_iff.1 h
    simp [settle, awaits_gap hline, ih hgap]

/-- What stands before the id that a context waits for goes behind it. -/
theorem settle_gap_id {gap : List Line} (h : IsGap gap) {id : Line} (hid : id.isId = true)
    (lines : List Line) :
    settle true (gap ++ id :: lines) = id :: (gap ++ settle false lines) := by
  induction gap with
  | nil => exact settle_of_isId hid true lines
  | cons line gap ih =>
    obtain ⟨hline, hgap⟩ := IsGap.cons_iff.1 h
    rw [List.cons_append, settle_gap_waiting hline, ih hgap, sink_of_isId hid]
    rfl

/-- What stands before any other line with content stays where it is. -/
theorem settle_gap_other {gap : List Line} (h : IsGap gap) {line : Line}
    (hline : line.hasContent = true) (hid : line.isId = false) (waiting : Bool)
    (lines : List Line) :
    settle waiting (gap ++ line :: lines)
      = gap ++ line :: settle (awaits waiting line) lines := by
  cases waiting with
  | false => rw [settle_gap_append h, settle_content hline]
  | true =>
    induction gap with
    | nil => exact settle_content hline true lines
    | cons first gap ih =>
      obtain ⟨hfirst, hgap⟩ := IsGap.cons_iff.1 h
      rw [List.cons_append, settle_gap_waiting hfirst, ih hgap]
      cases gap with
      | nil => exact sink_of_not_isId hid _
      | cons second gap =>
        obtain ⟨hsecond, -⟩ := IsGap.cons_iff.1 hgap
        exact sink_of_not_isId (Line.isId_of_not_hasContent hsecond) _

/-- Among lines with content that introduce neither a context nor an id, nothing moves. -/
theorem settle_inner_append {inner : List Line} (h : IsInner inner)
    (hcontent : ∀ line ∈ inner, line.hasContent = true) (waiting : Bool) (lines : List Line) :
    settle waiting (inner ++ lines) = inner ++ settle waiting lines := by
  induction inner with
  | nil => rfl
  | cons line inner ih =>
    obtain ⟨⟨hc, hi⟩, hinner⟩ := IsInner.cons_iff.1 h
    rw [List.cons_append, settle_content (hcontent line List.mem_cons_self), awaits_inner hc hi,
      ih hinner fun other hmem => hcontent other (List.mem_cons_of_mem _ hmem)]
    rfl

theorem sink_perm (line : Line) (lines : List Line) : (sink line lines).Perm (line :: lines) := by
  cases lines with
  | nil => exact List.Perm.refl _
  | cons next lines =>
    cases h : next.isId with
    | true => rw [sink_of_isId h]; exact List.Perm.swap line next lines
    | false => rw [sink_of_not_isId h]

/-- No line is lost or made up by settling. -/
theorem settle_perm (waiting : Bool) (lines : List Line) : (settle waiting lines).Perm lines := by
  induction lines generalizing waiting with
  | nil => exact List.Perm.refl _
  | cons line lines ih =>
    rw [settle]
    split
    · exact (sink_perm line _).trans ((ih _).cons line)
    · exact (ih _).cons line

theorem filter_sink {line : Line} (h : line.hasContent = false) (lines : List Line) :
    (sink line lines).filter Line.hasContent = lines.filter Line.hasContent := by
  cases lines with
  | nil => simp [sink, h]
  | cons next lines => cases hnext : next.isId <;> simp [sink, hnext, h, List.filter_cons]

/-- The lines with content keep their order. -/
theorem filter_settle (waiting : Bool) (lines : List Line) :
    (settle waiting lines).filter Line.hasContent = lines.filter Line.hasContent := by
  induction lines generalizing waiting with
  | nil => rfl
  | cons line lines ih =>
    cases hline : line.hasContent with
    | true => rw [settle_content hline]; simp [hline, ih]
    | false =>
      cases waiting with
      | true => rw [settle_gap_waiting hline, filter_sink hline]; simp [hline, ih]
      | false => simp [settle, hline, ih]

/-- Settled lines are settled. -/
theorem settle_settle (waiting : Bool) (lines : List Line) :
    settle waiting (settle waiting lines) = settle waiting lines := by
  induction lines generalizing waiting with
  | nil => rfl
  | cons line lines ih =>
    cases hline : line.hasContent with
    | true => rw [settle_content hline, settle_content hline, ih]
    | false =>
      cases waiting with
      | false =>
        rw [← List.singleton_append, settle_gap_append (IsGap.singleton hline),
          settle_gap_append (IsGap.singleton hline), ih]
      | true =>
        have hrest := ih true
        rw [settle_gap_waiting hline]
        cases hs : settle true lines with
        | nil => simp [sink, settle, hline]
        | cons next rest =>
          rw [hs] at hrest
          cases hid : next.isId with
          | false =>
            rw [sink_of_not_isId hid, settle_gap_waiting hline, hrest, sink_of_not_isId hid]
          | true =>
            -- behind the id no context waits, so the line that went there stays
            have hrest' : settle false rest = rest := by
              rw [settle_of_isId hid] at hrest
              exact (List.cons.inj hrest).2
            rw [sink_of_isId hid, settle_of_isId hid, ← List.singleton_append (x := line),
              settle_gap_append (IsGap.singleton hline), hrest']

/-- A line without content is moved by settling exactly if an id comes directly behind it. -/
theorem sink_eq_cons_iff {line : Line} (h : line.hasContent = false) {rest lines : List Line} :
    sink line rest = line :: lines ↔
      rest = lines ∧ ∀ id behind, lines = id :: behind → id.isId = false := by
  cases rest with
  | nil =>
    constructor
    · intro heq
      obtain ⟨-, rfl⟩ := List.cons.inj heq
      exact ⟨rfl, fun _ _ hnil => absurd hnil (by simp)⟩
    · rintro ⟨rfl, -⟩
      rfl
  | cons next rest =>
    cases hid : next.isId with
    | true =>
      rw [sink_of_isId hid]
      constructor
      · intro heq
        rw [(List.cons.inj heq).1] at hid
        exact absurd hid (by simp [Line.isId_of_not_hasContent h])
      · rintro ⟨rfl, hnext⟩
        exact absurd (hnext next rest rfl) (by simp [hid])
    | false =>
      rw [sink_of_not_isId hid]
      constructor
      · intro heq
        obtain ⟨-, rfl⟩ := List.cons.inj heq
        refine ⟨rfl, fun id behind hcons => ?_⟩
        rw [← (List.cons.inj hcons).1]
        exact hid
      · rintro ⟨rfl, -⟩
        rfl

theorem settle_waits_eq_self_iff (seen lines : List Line) :
    settle (waits seen) lines = lines ↔
      ∀ before line id behind, lines = before ++ line :: id :: behind →
        line.hasContent = false → id.isId = true → waits (seen ++ before) = false := by
  induction lines generalizing seen with
  | nil => simp [settle]
  | cons line lines ih =>
    have ih' := ih (seen ++ [line])
    rw [waits_concat] at ih'
    simp only [List.append_assoc, List.singleton_append] at ih'
    have hhead : settle (waits seen) (line :: lines) = line :: lines ↔
        settle (awaits (waits seen) line) lines = lines ∧
          ∀ id behind, lines = id :: behind → line.hasContent = false → id.isId = true →
            waits seen = false := by
      rw [settle]
      split
      next hmoves =>
        obtain ⟨hwaits, hline⟩ : waits seen = true ∧ line.hasContent = false := by
          simpa using hmoves
        rw [sink_eq_cons_iff hline]
        simp [hwaits, hline]
      next hstays =>
        constructor
        · intro heq
          refine ⟨(List.cons.inj heq).2, fun id behind _ hline _ => ?_⟩
          simpa [hline] using hstays
        · rintro ⟨heq, -⟩
          rw [heq]
    rw [hhead, ih']
    constructor
    · rintro ⟨htail, hfirst⟩ before other id behind heq hother hid
      cases before with
      | nil =>
        obtain ⟨rfl, hlines⟩ := List.cons.inj heq
        simpa using hfirst id behind hlines hother hid
      | cons first before =>
        obtain ⟨rfl, hlines⟩ := List.cons.inj heq
        exact htail before other id behind hlines hother hid
    · intro hall
      refine ⟨fun before other id behind heq => ?_, fun id behind heq hline hid => ?_⟩
      · exact hall (line :: before) other id behind (by rw [heq]; rfl)
      · simpa using hall [] line id behind (by rw [heq]; rfl) hline hid

/-- The lines are in their final order exactly if no line without content stands directly before an
id that a context waits for. -/
theorem settle_eq_self_iff (lines : List Line) :
    settle false lines = lines ↔
      ∀ before line id behind, lines = before ++ line :: id :: behind →
        line.hasContent = false → id.isId = true → waits before = false := by
  rw [← waits_nil, settle_waits_eq_self_iff]
  rfl

/-! ### The runs -/

/-- Whether a line opens an entry, given whether a context waits before it. -/
def opens (waiting : Bool) (line : Line) : Bool := line.isContext || (line.isId && !waiting)

/-- Cuts the lines in front of every line that opens an entry. The first component is what stands
before the first cut. -/
def pieces (waiting : Bool) : List Line → List Line × List (List Line)
  | [] => ([], [])
  | line :: lines =>
    let (first, more) := pieces (awaits waiting line) lines
    if opens waiting line then ([], (line :: first) :: more) else (line :: first, more)

/-- The lines without content at the end of a piece. -/
def ending (piece : List Line) : List Line := piece.rtakeWhile fun line => !line.hasContent

/-- Whether a line is not blank. -/
def isText (line : Line) : Bool := !line.isBlank

/-- What stays with a piece that others follow: all of it up to the first blank line at its end. -/
def kept (piece : List Line) : List Line :=
  (piece.rdropWhile fun line => !line.hasContent) ++ (ending piece).takeWhile isText

/-- What a piece hands over to the next one. -/
def passed (piece : List Line) : List Line := (ending piece).dropWhile isText

/-- Lets every piece hand over the blank end of it to the next one. The last piece keeps all. -/
def handOver : List Line → List (List Line) → List (List Line)
  | piece, [] => [piece]
  | piece, next :: more => kept piece :: handOver (passed piece ++ next) more

/-- The runs of lines that make up the entries. What stands before the first line that opens an
entry belongs to that entry. -/
def runs (lines : List Line) : List (List Line) :=
  match pieces false (settle false lines) with
  | (lead, []) => [lead]
  | (lead, header :: more) => handOver (lead ++ header) more

theorem pieces_inner_append {inner : List Line} (h : IsInner inner) (waiting : Bool)
    (lines : List Line) :
    pieces waiting (inner ++ lines)
      = (inner ++ (pieces waiting lines).1, (pieces waiting lines).2) := by
  induction inner with
  | nil => rfl
  | cons line inner ih =>
    obtain ⟨⟨hc, hi⟩, hinner⟩ := IsInner.cons_iff.1 h
    have hopens : opens waiting line = false := by simp [opens, hc, hi]
    simp [pieces, awaits_inner hc hi, ih hinner, hopens]

theorem pieces_of_opens {waiting : Bool} {line : Line} (h : opens waiting line = true)
    (lines : List Line) :
    pieces waiting (line :: lines)
      = ([], (line :: (pieces (awaits waiting line) lines).1)
          :: (pieces (awaits waiting line) lines).2) := by
  simp [pieces, h]

theorem pieces_of_not_opens {waiting : Bool} {line : Line} (h : opens waiting line = false)
    (lines : List Line) :
    pieces waiting (line :: lines)
      = (line :: (pieces (awaits waiting line) lines).1,
          (pieces (awaits waiting line) lines).2) := by
  simp [pieces, h]

theorem append_flatten_pieces (waiting : Bool) (lines : List Line) :
    (pieces waiting lines).1 ++ (pieces waiting lines).2.flatten = lines := by
  induction lines generalizing waiting with
  | nil => rfl
  | cons line lines ih =>
    cases h : opens waiting line with
    | true => rw [pieces_of_opens h]; simp [ih]
    | false => rw [pieces_of_not_opens h]; simp [ih]

theorem kept_append_passed (piece : List Line) : kept piece ++ passed piece = piece := by
  rw [kept, passed, List.append_assoc, List.takeWhile_append_dropWhile, ending,
    List.rdropWhile_append_rtakeWhile]

theorem flatten_handOver (piece : List Line) (more : List (List Line)) :
    (handOver piece more).flatten = piece ++ more.flatten := by
  induction more generalizing piece with
  | nil => simp [handOver]
  | cons next more ih =>
    rw [handOver, List.flatten_cons, ih, List.append_assoc, ← List.append_assoc,
      kept_append_passed, List.flatten_cons]

/-- The runs one after another are the settled lines. -/
theorem flatten_runs (lines : List Line) : (runs lines).flatten = settle false lines := by
  have h := append_flatten_pieces false (settle false lines)
  rw [runs]
  split
  next lead heq =>
    rw [heq] at h
    simpa using h
  next lead header more heq =>
    rw [heq] at h
    rw [flatten_handOver, List.append_assoc]
    simpa using h

/-- Settling the lines does not change the runs. -/
theorem runs_settle (lines : List Line) : runs (settle false lines) = runs lines := by
  rw [runs, settle_settle]
  rfl

/-- Lines the last of which has content. -/
def EndsInContent (lines : List Line) : Prop :=
  ∃ front last, lines = front ++ [last] ∧ last.hasContent = true

theorem EndsInContent.concat (front : List Line) {last : Line} (h : last.hasContent = true) :
    EndsInContent (front ++ [last]) :=
  ⟨front, last, rfl, h⟩

theorem EndsInContent.append {lines : List Line} (h : EndsInContent lines) (front : List Line) :
    EndsInContent (front ++ lines) := by
  obtain ⟨middle, last, rfl, hlast⟩ := h
  rw [← List.append_assoc]
  exact EndsInContent.concat _ hlast

theorem ending_append {lines gap : List Line} (h : EndsInContent lines) (hgap : IsGap gap) :
    ending (lines ++ gap) = gap := by
  obtain ⟨front, last, rfl, hlast⟩ := h
  have hall : ∀ line ∈ gap.reverse, (!line.hasContent) = true := by
    intro line hmem
    simp [hgap line (List.mem_reverse.1 hmem)]
  rw [ending, List.rtakeWhile, List.reverse_append, List.takeWhile_append_of_pos hall]
  simp [hlast]

/-- The lines of a gap up to its first blank line stay with what stands before the gap. -/
theorem kept_append {lines gap : List Line} (h : EndsInContent lines) (hgap : IsGap gap) :
    kept (lines ++ gap) = lines ++ gap.takeWhile isText := by
  have hsplit : (lines ++ gap).rdropWhile (fun line => !line.hasContent) ++ ending (lines ++ gap)
      = lines ++ gap := List.rdropWhile_append_rtakeWhile
  rw [ending_append h hgap] at hsplit
  rw [kept, ending_append h hgap, List.append_cancel_right hsplit]

/-- The lines of a gap from its first blank line on are handed over. -/
theorem passed_append {lines gap : List Line} (h : EndsInContent lines) (hgap : IsGap gap) :
    passed (lines ++ gap) = gap.dropWhile isText := by
  rw [passed, ending_append h hgap]

end Division

end MessageCatalog
