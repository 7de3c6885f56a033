import MessageCatalog.Proofs.Document.Fidelity
import MessageCatalog.Proofs.Document.Lookup
import MessageCatalog.Proofs.Document.Reachability
import MessageCatalog.Proofs.Entry.Fields

/-!
# The shape of entries

Every entry of a catalog that was read holds one message: one id, at most one context, which comes
before the id, and no line with content before these (`Division.Shaped`). The pass does not check
this. It follows from where entries are opened, by an invariant of its states (`Body.Forming`): the
lines of the current entry introduce a context that waits for its id, or they introduce an id, alone
or behind its context, and the first of their lines with content is the first that does.

So three issues of entries do not come up when a catalog is read, although a run of lines alone can
have them: a string before the first keyword, a second id, and a second context
(`Document.shape_of_parse`).
-/

namespace MessageCatalog

open Division

/-! ### The lines of one message -/

namespace Division

variable {lines : List Line}

/-- The lines hold one message. -/
structure Shaped (lines : List Line) : Prop where
  /-- Exactly one line introduces an id. -/
  ids : lines.countP Line.isId = 1
  /-- At most one line introduces a context. -/
  contexts : lines.countP Line.isContext ≤ 1
  /-- The context comes before the id. -/
  order : ∀ before line behind, lines = before ++ line :: behind → line.isContext = true →
    ∃ id ∈ behind, id.isId = true
  /-- The first line with content introduces the context, or the id if there is no context. -/
  first : lines.find? Line.hasContent = (lines.find? Line.isContext).or (lines.find? Line.isId)

/-- The marks that lines of one message may have so far, and whether a context waits behind them. -/
inductive Begun : Bool → List Line → Prop where
  /-- A context waits for its id. -/
  | context {context : Line} : context.isContext = true → Begun true [context]
  /-- An id without a context. -/
  | plain {id : Line} : id.isId = true → Begun false [id]
  /-- An id behind its context. -/
  | contextual {context id : Line} : context.isContext = true → id.isId = true →
      Begun false [context, id]

theorem marks_singleton {line : Line} (h : line.isContext = true ∨ line.isId = true) :
    marks [line] = [line] := by
  rcases h with h | h <;> simp [marks, h]

theorem countP_marks {p : Line → Bool}
    (hp : ∀ line, p line = true → (line.isContext || line.isId) = true) (lines : List Line) :
    (marks lines).countP p = lines.countP p := by
  rw [marks, List.countP_filter]
  refine List.countP_congr fun line _ => ?_
  rw [Bool.and_eq_true]
  exact ⟨And.left, fun h => ⟨h, hp line h⟩⟩

theorem find?_marks {p : Line → Bool}
    (hp : ∀ line, p line = true → (line.isContext || line.isId) = true) (lines : List Line) :
    (marks lines).find? p = lines.find? p := by
  rw [marks, List.find?_filter]
  congr 1
  funext line
  cases h : p line with
  | false => simp
  | true => simp [hp line h]

theorem isMark_of_isContext (line : Line) (h : line.isContext = true) :
    (line.isContext || line.isId) = true := by
  rw [h, Bool.true_or]

theorem isMark_of_isId (line : Line) (h : line.isId = true) :
    (line.isContext || line.isId) = true := by
  rw [h, Bool.or_true]

/-- The lines of an entry as far as they have come: they are those of one message so far, and no
line with content comes before its first mark. -/
structure Forming (waiting : Bool) (lines : List Line) : Prop where
  /-- The marks are those of one message so far. -/
  begun : Begun waiting (marks lines)
  /-- The first line with content is the first mark. -/
  first : lines.find? Line.hasContent = (marks lines).head?

namespace Forming

variable {waiting : Bool} {line : Line}

/-- A line that opens an entry, behind lines without content. -/
theorem opening {gap : List Line} (hgap : IsGap gap)
    (h : line.isContext = true ∨ line.isId = true) :
    Forming line.isContext (gap ++ [line]) := by
  have hcontent := h.elim Line.hasContent_of_isContext Line.hasContent_of_isId
  have hmarks : marks (gap ++ [line]) = [line] := by
    rw [marks_append, hgap.isInner.marks_eq_nil, marks_singleton h, List.nil_append]
  refine ⟨?_, ?_⟩
  · rw [hmarks]
    cases hc : line.isContext with
    | true => exact .context hc
    | false => exact .plain (by simpa [hc] using h)
  · rw [hmarks, find?_gap_append hgap hcontent]
    rfl

theorem exists_first (h : Forming waiting lines) :
    ∃ first more, marks lines = first :: more ∧ lines.find? Line.hasContent = some first := by
  have hfirst := h.first
  cases hmarks : marks lines with
  | nil =>
    have hbegun := h.begun
    rw [hmarks] at hbegun
    cases hbegun
  | cons first more =>
    rw [hmarks] at hfirst
    exact ⟨first, more, rfl, hfirst⟩

theorem find?_append (h : Forming waiting lines) (more : List Line) :
    (lines ++ more).find? Line.hasContent = lines.find? Line.hasContent := by
  obtain ⟨first, -, -, hfind⟩ := h.exists_first
  rw [List.find?_append, hfind]
  rfl

/-- Lines that introduce neither a context nor an id change nothing. -/
theorem append_inner (h : Forming waiting lines) {inner : List Line} (hinner : IsInner inner) :
    Forming waiting (lines ++ inner) := by
  have hmarks : marks (lines ++ inner) = marks lines := by
    rw [marks_append, hinner.marks_eq_nil, List.append_nil]
  exact ⟨hmarks ▸ h.begun, by rw [h.find?_append, hmarks, h.first]⟩

/-- The id that the context waits for. -/
theorem answer (h : Forming true lines) (hid : line.isId = true) :
    Forming false (lines ++ [line]) := by
  have hmarks : marks (lines ++ [line]) = marks lines ++ [line] := by
    rw [marks_append, marks_singleton (.inr hid)]
  obtain ⟨first, more, hfirst, -⟩ := h.exists_first
  refine ⟨?_, ?_⟩
  · have hbegun := h.begun
    rw [hmarks]
    generalize marks lines = marked at hbegun
    cases hbegun with
    | context hcontext => exact .contextual hcontext hid
  · rw [h.find?_append, h.first, hmarks, hfirst]
    rfl

/-! ### Complete entries -/

theorem countP_isId (h : Forming false lines) : lines.countP Line.isId = 1 := by
  have hbegun := h.begun
  rw [← countP_marks isMark_of_isId]
  generalize marks lines = marked at hbegun
  cases hbegun with
  | plain hid => simp [hid]
  | @contextual context id hcontext hid =>
    have hnot : context.isId = false := by
      cases hi : context.isId with
      | false => rfl
      | true => rw [Line.isContext_of_isId hi] at hcontext; cases hcontext
    simp [hid, hnot]

theorem countP_isContext_le (h : Forming false lines) : lines.countP Line.isContext ≤ 1 := by
  have hbegun := h.begun
  rw [← countP_marks isMark_of_isContext]
  generalize marks lines = marked at hbegun
  cases hbegun with
  | plain hid => simp [Line.isContext_of_isId hid]
  | contextual hcontext hid => simp [hcontext, Line.isContext_of_isId hid]

/-- Behind a context stands the id. -/
theorem exists_id_behind (h : Forming false lines) {before behind : List Line}
    (heq : lines = before ++ line :: behind) (hline : line.isContext = true) :
    ∃ id ∈ behind, id.isId = true := by
  have hmarks : marks lines = marks before ++ line :: marks behind := by
    rw [heq, List.append_cons, marks_append, marks_append, marks_singleton (.inl hline),
      List.append_assoc]
    rfl
  have hbegun := h.begun
  rw [hmarks] at hbegun
  -- the marks are an id or a context and an id, so a context among them is the first of two
  generalize hmarked : marks before ++ line :: marks behind = marked at hbegun
  cases hbegun with
  | @plain id hid =>
    have hmem : line ∈ [id] := hmarked ▸ by simp
    rw [List.mem_singleton.1 hmem, Line.isContext_of_isId hid] at hline
    cases hline
  | @contextual context id hcontext hid =>
    cases hbefore : marks before with
    | nil =>
      rw [hbefore] at hmarked
      obtain ⟨-, hbehind⟩ := List.cons.inj hmarked
      have hmem : id ∈ marks behind := hbehind ▸ List.mem_singleton_self id
      exact ⟨id, (List.mem_filter.1 hmem).1, hid⟩
    | cons first more =>
      rw [hbefore] at hmarked
      obtain ⟨-, htail⟩ := List.cons.inj hmarked
      have hmem : line ∈ [id] := htail ▸ by simp
      rw [List.mem_singleton.1 hmem, Line.isContext_of_isId hid] at hline
      cases hline

theorem shaped (h : Forming false lines) : Shaped lines := by
  refine ⟨h.countP_isId, h.countP_isContext_le, fun _ _ _ => h.exists_id_behind, ?_⟩
  have hbegun := h.begun
  rw [h.first, ← find?_marks isMark_of_isContext, ← find?_marks isMark_of_isId]
  generalize marks lines = marked at hbegun
  cases hbegun with
  | plain hid => simp [hid, Line.isContext_of_isId hid]
  | contextual hcontext _ => simp [hcontext]

end Forming

end Division

/-! ### Issues that do not come up -/

/-- What is wrong with lines that are not those of one message: a string before the first keyword, a
second id or a second context. -/
inductive EntryIssue.Misplaced : EntryIssue → Prop where
  /-- A string comes before the first keyword. -/
  | orphan (raw : Text) : Misplaced (.orphanValue raw)
  /-- A second id comes. -/
  | secondId : Misplaced (.repeatedKeyword Field.id.name)
  /-- A second context comes. -/
  | secondContext : Misplaced (.repeatedKeyword Field.context.name)

namespace Entry

variable {lines : List Line} {issue : EntryIssue}

/-- An entry has no context exactly if no line introduces one. -/
theorem context_eq_none_iff {entry : Entry} (h : ofLines lines = .ok entry) :
    entry.context = none ↔ ∀ line ∈ entry.lines, line.isContext = false := by
  obtain ⟨-, rfl⟩ := ofLines_eq_ok_iff.1 h
  exact textOf?_eq_none_iff

/-- Before the first keyword no string comes if the first line with content has a keyword. -/
theorem orphan?_eq_none {first : Line} (hfind : lines.find? Line.hasContent = some first)
    (hkeyword : first.logical.keyword.isSome = true) : orphan? lines = none := by
  obtain ⟨-, gap, behind, rfl, hgap⟩ := List.find?_eq_some_iff_append.1 hfind
  refine List.find?_eq_none.2 fun line hmem hvalue => ?_
  have hline : line ∈ gap := by
    rw [List.takeWhile_append] at hmem
    split at hmem
    · have hstop : first.logical.keyword.isNone = false := by simpa using hkeyword
      rwa [List.takeWhile_cons_of_neg (by rw [hstop]; exact Bool.false_ne_true),
        List.append_nil] at hmem
    · exact (List.takeWhile_prefix _).subset hmem
  have := hgap line hline
  rw [Line.hasContent_of_value hvalue] at this
  cases this

theorem not_misplaced_of_gapIssue? {indices : List Nat} (h : gapIssue? indices = some issue) :
    ¬ issue.Misplaced := by
  rw [gapIssue?] at h
  split at h
  · cases h
  · split at h
    · cases h
    · cases h
      rintro ⟨⟩

theorem not_misplaced_of_pluralIssue? {held : List Field} {indices : List Nat}
    (h : pluralIssue? held indices = some issue) : ¬ issue.Misplaced := by
  rw [pluralIssue?] at h
  split_ifs at h <;> cases h <;> rintro ⟨⟩

/-- The issue of a second occurrence is misplaced only for an id and a context. -/
theorem eq_of_misplaced_repeatIssue {field : Field} (h : (repeatIssue field).Misplaced) :
    field = .id ∨ field = .context := by
  cases field with
  | context => exact .inr rfl
  | id => exact .inl rfl
  | pluralId => cases h
  | value => cases h
  | plural index => cases h

/-- The lines of one message have other issues only. -/
theorem not_misplaced_of_forming (hlines : Forming false lines) (h : issue? lines = some issue) :
    ¬ issue.Misplaced := by
  have horphan : orphan? lines = none := by
    obtain ⟨first, more, hmarks, hfind⟩ := hlines.exists_first
    have hmark : first ∈ marks lines := hmarks ▸ List.mem_cons_self
    refine orphan?_eq_none hfind (Option.isSome_iff_exists.2 ?_)
    rcases Bool.or_eq_true_iff.1 (List.mem_filter.1 hmark).2 with hcontext | hid
    · exact ⟨_, Line.isContext_iff.1 hcontext⟩
    · exact ⟨_, Line.isId_iff.1 hid⟩
  rw [issue?, horphan] at h
  cases hrepeat : firstRepeat [] (fields lines) with
  | some field =>
    simp only [hrepeat, Option.map_none, Option.map_some, Option.none_or, Option.some_or,
      Option.some.injEq] at h
    subst h
    intro hmisplaced
    have htwo := two_le_countP_of_firstRepeat hrepeat
    rcases eq_of_misplaced_repeatIssue hmisplaced with rfl | rfl
    · rw [← Line.isId_eq_introduces, hlines.countP_isId] at htwo
      omega
    · rw [← Line.isContext_eq_introduces] at htwo
      have := hlines.countP_isContext_le
      omega
  | none =>
    simp only [hrepeat, Option.map_none, Option.none_or, Option.or_eq_some_iff] at h
    rcases h with ((hmixed | ⟨-, hgap⟩) | ⟨-, hplural⟩) | ⟨-, hunsupported⟩
    · split at hmixed <;> cases hmixed
      rintro ⟨⟩
    · exact not_misplaced_of_gapIssue? hgap
    · exact not_misplaced_of_pluralIssue? hplural
    · split at hunsupported <;> cases hunsupported
      rintro ⟨⟩

end Entry

/-! ### What the pass keeps -/

namespace Body

variable {body : Body} {seen rest run : List Line}

/-- The current entry of every state is that of one message so far. -/
theorem Reached.forming (h : Reached seen body) : Forming body.waiting body.current := by
  induction h with
  | @header lead first hlead hfirst =>
    have hopening := Forming.opening hlead (.inr hfirst.isId)
    rwa [Line.isContext_of_isId hfirst.isId] at hopening
  | @push seen body next line hreached hpush ih =>
    obtain ⟨-, rfl⟩ | ⟨hid, hwaiting, rfl⟩ | ⟨-, hcontext, hid, rfl⟩ |
      ⟨hline, -, entry, -, -, rfl⟩ := push_cases hpush
    · exact ih
    · rw [hwaiting] at ih
      exact ih.answer hid
    · have hinner : IsInner [line] := IsInner.cons_iff.2 ⟨⟨hcontext, hid⟩, IsGap.nil.isInner⟩
      exact (ih.append_inner hreached.inv.pending.isInner).append_inner hinner
    · have hgap : IsGap (body.pending.dropWhile isText) :=
        hreached.inv.pending.mono (List.dropWhile_suffix _).subset
      have hopening := Forming.opening hgap hline
      cases hc : line.isContext with
      | true => simpa [opened, waiting, hc] using hopening
      | false => simpa [opened, waiting, hc] using hopening

/-- A run that is complete is that of one message. -/
theorem Reached.forming_of_closes (h : Reached seen body) (hwaiting : body.waiting = false)
    (hcloses : body.Closes rest run) : Forming false run := by
  have hforming := h.forming
  have hpending := h.inv.pending
  rw [hwaiting] at hforming
  cases hcloses with
  | atEnd => exact hforming.append_inner hpending.isInner
  | before _ =>
    refine hforming.append_inner (IsGap.isInner fun line hmem => ?_)
    exact hpending line ((List.takeWhile_prefix _).subset hmem)

/-- So is every entry that is complete. -/
theorem Reached.forming_of_mem (h : Reached seen body) :
    ∀ entry ∈ body.finished, Forming false entry.lines := by
  induction h with
  | header _ _ => exact fun _ hmem => absurd hmem List.not_mem_nil
  | @push seen body next line hreached hpush ih =>
    obtain ⟨-, rfl⟩ | ⟨-, -, rfl⟩ | ⟨-, -, -, rfl⟩ | ⟨hline, hwaiting, entry, hentry, -, rfl⟩ :=
      push_cases hpush
    · exact ih
    · exact ih
    · exact ih
    · intro other hmem
      rcases List.mem_append.1 hmem with hmem | hmem
      · exact ih other hmem
      · rw [List.mem_singleton.1 hmem, Entry.lines_of_ofLines hentry]
        exact hreached.forming_of_closes hwaiting (.before hline)

end Body

/-! ### Catalogs that are read -/

namespace Document

/-- **Entries hold one message each.** Reading a catalog does not fail for a string before the first
keyword, a second id or a second context of an entry. In a catalog that was read, each entry has
exactly one id and at most one context, which comes before the id, and its first line with content
introduces the one or the other; the header has no context. -/
theorem shape_of_parse (options : ReadOptions) (text : Text) :
    (∀ number issue, parse options text = .error (.entryStructure number issue) →
      ¬ issue.Misplaced) ∧
    ∀ document, parse options text = .ok document →
      (∀ entry ∈ document.entries, Shaped entry.lines) ∧
      ∀ line ∈ document.headerEntry.lines, line.isContext = false := by
  refine ⟨fun number issue herror => ?_, fun document hok => ?_⟩
  · have hentries := entries_eq_error_of_parse herror rfl
    obtain ⟨seen, state, rest, run, -, hreached, hwaiting, hcloses, hrefused, -⟩ :=
      Assembly.exists_closes_of_error hentries rfl
    cases hrefused with
    | noEntry hissue =>
      have hforming := hreached.forming_of_closes hwaiting hcloses
      exact Entry.not_misplaced_of_forming hforming (Entry.ofLines_eq_error_iff.1 hissue)
  · obtain ⟨hentries, hheader, -⟩ := parse_eq_ok_iff.1 hok
    obtain ⟨seen, state, run, entry, hreached, hwaiting, hcloses, hentry, heq⟩ :=
      Assembly.exists_closes_of_ok hentries
    refine ⟨fun other hmem => ?_, ?_⟩
    · rw [heq] at hmem
      rcases List.mem_append.1 hmem with hmem | hmem
      · exact (hreached.forming_of_mem other hmem).shaped
      · rw [List.mem_singleton.1 hmem, Entry.lines_of_ofLines hentry]
        exact (hreached.forming_of_closes hwaiting hcloses).shaped
    · obtain ⟨lines, -, hdivides⟩ := Assembly.entries_eq_ok_iff.1 hentries
      obtain ⟨first, -, hfirst, -⟩ := List.forall₂_cons_right_iff.1 hdivides.built
      exact (Entry.context_eq_none_iff hfirst).1 (Entry.isHeader_iff.1 hheader).2

/-- A catalog with a comment between a context and its id, an entry without a blank line before it,
and an obsolete message with a context. -/
def mixedShapes : Text :=
  "# head\nmsgid \"\"\nmsgstr \"Language: ja\\n\"\n".toList
    ++ "\nmsgctxt \"c\"\n\"d\"\n# note\nmsgid \"a\"\n".toList
    ++ "msgid \"b\"\nmsgstr \"x\"\n\n#~ msgctxt \"c\"\n#~ msgid \"b\"\n#~ msgstr \"y\"\n".toList

/-- The same with a second value in the last entry. -/
def mixedShapesRepeated : Text := mixedShapes ++ "#~ msgstr \"z\"\n".toList

theorem shape_of_parse_mixedShapes :
    (∃ document, parse {} mixedShapes = .ok document ∧
      (∀ entry ∈ document.entries, Shaped entry.lines) ∧
      ∀ line ∈ document.headerEntry.lines, line.isContext = false) ∧
    parse {} mixedShapesRepeated
        = .error (.entryStructure 11 (.repeatedKeyword Field.value.name)) ∧
      ¬ EntryIssue.Misplaced (.repeatedKeyword Field.value.name) := by
  obtain ⟨document, h⟩ := Outcome.exists_ok (x := parse {} mixedShapes) (by decide +kernel)
  have hrepeated : parse {} mixedShapesRepeated
      = .error (.entryStructure 11 (.repeatedKeyword Field.value.name)) := by decide +kernel
  exact ⟨⟨document, h, (shape_of_parse {} mixedShapes).2 document h⟩, hrepeated,
    (shape_of_parse {} mixedShapesRepeated).1 11 _ hrepeated⟩

end Document

end MessageCatalog
