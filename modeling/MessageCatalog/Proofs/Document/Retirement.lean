import MessageCatalog.Proofs.Document.Fidelity
import MessageCatalog.Proofs.Entry.Retirement

/-!
# Retiring a message of a catalog

`Document.retireText` puts the obsolete marker in front of the lines with content of one message.
The new text reads as the same catalog with that message retired (`parse_retireText`): it says what
it said before, it is obsolete now, and no other entry has changed.

Where these lines stand in the text is known from their order, as lines with content are never moved
(`Divides.holds`). So the text falls into three parts, of which the lines with content are those of
the entries before, of the message and of the entries behind it, and only the middle part is
touched. The gaps between the parts may belong to either side; what becomes of them does not depend
on the mark, because retired lines are of the same kind as the lines were (`runs_retired`).
-/

namespace MessageCatalog

open Division

/-! ### The runs of partly retired lines -/

namespace Division

/-- The second line is the first one, which may have been retired. -/
def MaybeRetired (a b : Line) : Prop := b = a ∨ b = a.retired

theorem MaybeRetired.sameKind {a b : Line} (h : MaybeRetired a b) : SameKind a b := by
  rcases h with rfl | rfl
  · exact ⟨rfl, rfl, rfl, rfl⟩
  · exact Line.sameKind_retired a

theorem MaybeRetired.eq_of_gap {a b : Line} (h : MaybeRetired a b) (hgap : a.hasContent = false) :
    b = a := by
  rcases h with rfl | rfl
  · rfl
  · exact Line.retired_of_gap hgap

theorem forall₂_maybeRetired_self (lines : List Line) : List.Forall₂ MaybeRetired lines lines :=
  List.forall₂_same.2 fun _ _ => Or.inl rfl

theorem forall₂_maybeRetired_retired (lines : List Line) :
    List.Forall₂ MaybeRetired lines (lines.map Line.retired) :=
  List.forall₂_map_right_iff.2 (List.forall₂_same.2 fun _ _ => Or.inr rfl)

theorem forall₂_maybeRetired_middle (front middle back : List Line) :
    List.Forall₂ MaybeRetired (front ++ (middle ++ back))
      (front ++ (middle.map Line.retired ++ back)) :=
  List.rel_append (forall₂_maybeRetired_self front)
    (List.rel_append (forall₂_maybeRetired_retired middle) (forall₂_maybeRetired_self back))

theorem filter_retired (lines : List Line) :
    (lines.map Line.retired).filter Line.hasContent
      = (lines.filter Line.hasContent).map Line.retired := by
  have hcontent : Line.hasContent ∘ Line.retired = Line.hasContent :=
    funext Line.hasContent_retired
  rw [List.filter_map, hcontent]

/-- Of lines that may have been retired, only those with content can differ. -/
theorem eq_of_filter_eq {as bs cs : List Line} (hb : List.Forall₂ MaybeRetired as bs)
    (hc : List.Forall₂ MaybeRetired as cs)
    (h : bs.filter Line.hasContent = cs.filter Line.hasContent) : bs = cs := by
  induction hb generalizing cs with
  | nil => exact (List.forall₂_nil_left_iff.1 hc).symm
  | @cons a b as bs hab _ ih =>
    cases hc with
    | @cons _ c _ cs hac hrest =>
      have hb := hab.sameKind.content
      have hc := hac.sameKind.content
      cases hcontent : a.hasContent with
      | false =>
        rw [hcontent] at hb hc
        rw [List.filter_cons_of_neg (by simp [← hb]), List.filter_cons_of_neg (by simp [← hc])] at h
        rw [hab.eq_of_gap hcontent, hac.eq_of_gap hcontent, ih hrest h]
      | true =>
        rw [hcontent] at hb hc
        rw [List.filter_cons_of_pos hb.symm, List.filter_cons_of_pos hc.symm] at h
        obtain ⟨hhead, htail⟩ := List.cons.inj h
        rw [hhead, ih hrest htail]

/-- The same holds if the lines are cut into runs. -/
theorem eq_of_filter_flatten_eq {as bs cs : List (List Line)}
    (hb : List.Forall₂ (List.Forall₂ MaybeRetired) as bs)
    (hc : List.Forall₂ (List.Forall₂ MaybeRetired) as cs)
    (h : bs.flatten.filter Line.hasContent = cs.flatten.filter Line.hasContent) : bs = cs := by
  have hflatten := eq_of_filter_eq (List.rel_flatten hb) (List.rel_flatten hc) h
  clear h
  induction hb generalizing cs with
  | nil => exact (List.forall₂_nil_left_iff.1 hc).symm
  | cons hab _ ih =>
    cases hc with
    | cons hac hrest =>
      obtain ⟨hrun, hruns⟩ := List.append_inj hflatten (hab.length_eq.symm.trans hac.length_eq)
      rw [hrun, ih hrest hruns]

/-- **Retiring a run.** If of three parts of the lines the middle one has the content of one run,
and the others have the content of the runs on either side, then retiring the middle part retires
that run and leaves the others. -/
theorem runs_retired {front middle back : List Line} {before behind : List (List Line)}
    {run : List Line} (h : runs (front ++ (middle ++ back)) = before ++ run :: behind)
    (hfront : front.filter Line.hasContent = before.flatten.filter Line.hasContent)
    (hmiddle : middle.filter Line.hasContent = run.filter Line.hasContent)
    (hback : back.filter Line.hasContent = behind.flatten.filter Line.hasContent) :
    runs (front ++ (middle.map Line.retired ++ back))
      = before ++ run.map Line.retired :: behind := by
  have hruns := forall₂_runs (fun a b => MaybeRetired.sameKind)
    (forall₂_maybeRetired_middle front middle back)
  rw [h] at hruns
  refine eq_of_filter_flatten_eq hruns ?_ ?_
  · refine List.rel_append (List.forall₂_same.2 fun _ _ => forall₂_maybeRetired_self _) ?_
    exact List.Forall₂.cons (forall₂_maybeRetired_retired run)
      (List.forall₂_same.2 fun _ _ => forall₂_maybeRetired_self _)
  · rw [flatten_runs, filter_settle]
    simp only [List.filter_append, List.flatten_append, List.flatten_cons, filter_retired, hfront,
      hmiddle, hback]

/-! ### The division of partly retired lines -/

/-- The lines with content are those of the entries. -/
def Holds (lines : List Line) (entries : List Entry) : Prop :=
  lines.filter Line.hasContent = (entries.flatMap Entry.lines).filter Line.hasContent

/-- The entries hold the lines with content in the order of the catalog. -/
theorem Divides.holds {lines : List Line} {entries : List Entry} (h : Divides lines entries) :
    Holds lines entries := by
  unfold Holds
  rw [Entry.flatMap_lines_of_builtFrom h.built, flatten_runs, filter_settle]

/-- Lines can be cut where the entries are cut. -/
theorem Holds.exists_append {lines : List Line} {front back : List Entry}
    (h : Holds lines (front ++ back)) :
    ∃ first second, lines = first ++ second ∧ Holds first front ∧ Holds second back := by
  unfold Holds at h
  rw [List.flatMap_append, List.filter_append] at h
  obtain ⟨first, second, hlines, hfirst, hsecond⟩ := List.filter_eq_append_iff.1 h
  exact ⟨first, second, hlines, hfirst, hsecond⟩

theorem Holds.countP_eq {lines : List Line} {entries : List Entry} (h : Holds lines entries) :
    lines.countP Line.hasContent = (entries.flatMap Entry.lines).countP Line.hasContent := by
  rw [List.countP_eq_length_filter, List.countP_eq_length_filter, h]

variable {front middle back : List Line} {before behind : List Entry} {message : Entry}

/-- The runs of a divided catalog, cut at an entry. -/
theorem Divides.exists_runs {lines : List Line}
    (h : Divides lines (before ++ message :: behind)) :
    ∃ first run rest, runs lines = first ++ run :: rest ∧ Entry.BuiltFrom first before ∧
      Entry.ofLines run = .ok message ∧ Entry.BuiltFrom rest behind := by
  have hfirst := List.forall₂_take_append _ _ _ h.built
  obtain ⟨run, rest, hrun, hrest, hdrop⟩ :=
    List.forall₂_cons_right_iff.1 (List.forall₂_drop_append _ _ _ h.built)
  refine ⟨_, run, rest, ?_, hfirst, hrun, hrest⟩
  rw [← hdrop, List.take_append_drop]

/-- The first line with content belongs to the first entry. -/
theorem Divides.mem_lines_head {lines : List Line} {entries : List Entry} {entry : Entry}
    {first : Line} (h : Divides lines (entry :: entries))
    (hfind : lines.find? Line.hasContent = some first) : first ∈ entry.lines := by
  obtain ⟨line, hline, hopens⟩ := h.header
  obtain rfl := Option.some.inj (hfind.symm.trans hline)
  obtain ⟨run, rest, hruns, hmem⟩ := mem_head_runs hfind hopens.isId
  have hbuilt := h.built
  rw [hruns] at hbuilt
  cases hbuilt with
  | cons hentry _ =>
    rw [Entry.lines_of_ofLines hentry]
    exact hmem

/-- The part of the lines that belongs to the first entries has content. -/
theorem Divides.exists_filter_eq_cons {lines : List Line} (hbefore : before ≠ [])
    (h : Divides lines (before ++ behind)) (hfront : Holds front before) :
    ∃ line more, front.filter Line.hasContent = line :: more := by
  obtain ⟨entry, before, rfl⟩ := List.exists_cons_of_ne_nil hbefore
  obtain ⟨first, hfind, -⟩ := h.header
  have hmem : first ∈ front.filter Line.hasContent := by
    rw [hfront]
    refine List.mem_filter.2 ⟨?_, List.find?_some hfind⟩
    exact List.mem_flatMap.2 ⟨entry, List.mem_cons_self, h.mem_lines_head hfind⟩
  exact List.exists_cons_of_ne_nil (List.ne_nil_of_mem hmem)

/-- **Retiring an entry.** Retiring the part of the lines whose content is that of one entry, which
is not the first, retires that entry and leaves the others. -/
theorem Divides.retired (h : Divides (front ++ (middle ++ back)) (before ++ message :: behind))
    (hbefore : before ≠ []) (hfront : Holds front before) (hmiddle : Holds middle [message])
    (hback : Holds back behind) {line : Line} (hmem : line ∈ message.lines)
    (hline : line.hasContent = true) :
    Divides (front ++ (middle.map Line.retired ++ back)) (before ++ message.retired :: behind) := by
  obtain ⟨first, run, rest, hruns, hfirst, hrun, hrest⟩ := h.exists_runs
  have hlines := Entry.lines_of_ofLines hrun
  constructor
  · obtain ⟨opening, hfind, hopens⟩ := h.header
    obtain ⟨found, more, hcontent⟩ := h.exists_filter_eq_cons hbefore hfront
    refine ⟨opening, ?_, hopens⟩
    rw [← List.head?_filter, List.filter_append, hcontent] at hfind ⊢
    exact hfind
  · have hkinds := (forall₂_maybeRetired_middle front middle back).imp
      fun a b => MaybeRetired.sameKind
    rw [← answered_iff, ← answered_congr hkinds, answered_iff]
    exact h.contexts
  · rw [runs_retired hruns]
    · refine List.rel_append hfirst (List.Forall₂.cons ?_ hrest)
      exact Entry.ofLines_retired hrun (hlines ▸ hmem) hline
    · rw [hfront, Entry.flatMap_lines_of_builtFrom hfirst]
    · rw [hmiddle, List.flatMap_singleton, hlines]
    · rw [hback, Entry.flatMap_lines_of_builtFrom hrest]
  · have hkeys := h.keys
    rw [List.map_append, List.map_cons] at hkeys ⊢
    rw [Entry.key_retired]
    exact hkeys

end Division

/-! ### The text of a retired message -/

/-- Whether the text is that of a line with content. -/
def Line.holdsContent (text : Text) : Bool :=
  match parse text with
  | .ok line => line.hasContent
  | .error _ => false

namespace Document

/-- Hands out flags to the lines that have content, in their order. Lines without content are not
flagged, nor are lines for which no flag is left. -/
def spread : List Bool → List Bool → List Bool
  | _, [] => []
  | flags, false :: contents => false :: spread flags contents
  | [], true :: contents => false :: spread [] contents
  | flag :: flags, true :: contents => flag :: spread flags contents

/-- The number of lines with content in the entries. -/
def contentCount (entries : List Entry) : Nat :=
  (entries.flatMap Entry.lines).countP Line.hasContent

/-- For each line of the text of a catalog, whether it is one of the lines with content of the
message at the given place. The lines with content stand in the text in the order of the entries. -/
def messageFlags (document : Document) (place : Nat) (text : Text) : List Bool :=
  spread
    (List.replicate (contentCount (document.entries.take (place + 1))) false
      ++ List.replicate (contentCount document.messages[place]?.toList) true)
    ((lineTexts text).map Line.holdsContent)

/-- The text of a catalog with the retiring mark in front of each line with content of the message
at the given place. -/
def retireText (document : Document) (place : Nat) (text : Text) : Text :=
  Text.markLines Line.retiringMark (document.messageFlags place text) text

/-! ### Which lines are flagged -/

theorem map_holdsContent {texts : List Text} {lines : List Line} (h : Line.ParsedAs texts lines) :
    texts.map Line.holdsContent = lines.map Line.hasContent := by
  induction h with
  | nil => rfl
  | cons hline _ ih =>
    rw [List.map_cons, List.map_cons, ih, Line.holdsContent, hline]

theorem spread_nil (contents : List Bool) : spread [] contents = contents.map fun _ => false := by
  induction contents with
  | nil => rfl
  | cons content contents ih => cases content <;> simp [spread, ih]

/-- As many flags as there are lines with content are used up by the lines. -/
theorem spread_replicate (flag : Bool) (flags contents : List Bool) (lines : List Line) :
    spread (List.replicate (lines.countP Line.hasContent) flag ++ flags)
        (lines.map Line.hasContent ++ contents)
      = lines.map (fun line => flag && line.hasContent) ++ spread flags contents := by
  induction lines with
  | nil => rfl
  | cons line lines ih =>
    cases hline : line.hasContent with
    | false => simp [spread, hline, ih]
    | true => simp [spread, hline, ih, List.replicate_succ]

variable {document : Document} {place : Nat} {message : Entry}

theorem entries_eq_append (h : document.messages[place]? = some message) :
    document.entries
      = document.entries.take (place + 1) ++ message :: document.messages.drop (place + 1) := by
  obtain ⟨hplace, rfl⟩ := List.getElem?_eq_some_iff.1 h
  rw [← List.drop_eq_getElem_cons hplace]
  exact (List.take_append_drop (place + 1) document.entries).symm

theorem entries_set (h : document.messages[place]? = some message) (other : Entry) :
    { document with messages := document.messages.set place other }.entries
      = document.entries.take (place + 1) ++ other :: document.messages.drop (place + 1) := by
  obtain ⟨hplace, -⟩ := List.getElem?_eq_some_iff.1 h
  unfold entries
  rw [List.set_eq_take_append_cons_drop, if_pos hplace]
  rfl

/-- The lines of a catalog in three parts: the middle one has the content of a message, and the
others have the content of what stands before and behind it. -/
structure Cut (document : Document) (place : Nat) (message : Entry)
    (front middle back : List Line) : Prop where
  /-- The first part has the content of the entries before the message. -/
  front : Holds front (document.entries.take (place + 1))
  /-- The middle part has the content of the message. -/
  middle : Holds middle [message]
  /-- The last part has the content of the entries behind the message. -/
  back : Holds back (document.messages.drop (place + 1))

theorem exists_cut {lines : List Line} (h : Divides lines document.entries)
    (hmessage : document.messages[place]? = some message) :
    ∃ front middle back, lines = front ++ (middle ++ back) ∧
      Cut document place message front middle back := by
  have hholds := h.holds
  rw [entries_eq_append hmessage] at hholds
  obtain ⟨front, rest, rfl, hfront, hrest⟩ := hholds.exists_append
  have hmessages : Holds rest ([message] ++ document.messages.drop (place + 1)) := hrest
  obtain ⟨middle, back, rfl, hmiddle, hback⟩ := hmessages.exists_append
  exact ⟨front, middle, back, rfl, hfront, hmiddle, hback⟩

variable {front middle back : List Line}

/-- What has content in the middle part is a line of the message. -/
theorem Cut.mem_lines (h : Cut document place message front middle back) {line : Line}
    (hmem : line ∈ middle) (hline : line.hasContent = true) : line ∈ message.lines := by
  have hfilter : line ∈ middle.filter Line.hasContent := List.mem_filter.2 ⟨hmem, hline⟩
  rw [h.middle, List.flatMap_singleton] at hfilter
  exact (List.mem_filter.1 hfilter).1

/-- The flagged lines are those with content in the middle part. -/
theorem Cut.messageFlags_eq (h : Cut document place message front middle back)
    (hmessage : document.messages[place]? = some message) {text : Text}
    (hlines : Line.ParsedAs (lineTexts text) (front ++ (middle ++ back))) :
    document.messageFlags place text
      = front.map (fun _ => false)
        ++ (middle.map Line.hasContent ++ back.map fun _ => false) := by
  unfold messageFlags contentCount
  rw [map_holdsContent hlines, hmessage, Option.toList_some, ← h.front.countP_eq,
    ← h.middle.countP_eq, List.map_append, spread_replicate, List.map_append]
  rw [← List.append_nil (List.replicate _ true), spread_replicate, spread_nil, List.map_map]
  simp only [Bool.false_and, Bool.true_and, Function.comp_def]

theorem flagged_map (lines : List Line) (f : Line → Bool) :
    (((lines.map f).zip (lines.map Line.raw)).filter Prod.fst).map Prod.snd
      = (lines.filter f).map Line.raw := by
  rw [List.zip_map', List.filter_map, List.map_map]
  rfl

/-- The texts of the flagged lines are those of the lines with content of the message. -/
theorem Cut.flagged_eq (h : Cut document place message front middle back)
    (hmessage : document.messages[place]? = some message) {text : Text}
    (hlines : Line.ParsedAs (lineTexts text) (front ++ (middle ++ back))) :
    (((document.messageFlags place text).zip (lineTexts text)).filter Prod.fst).map Prod.snd
      = (message.lines.filter Line.hasContent).map Line.raw := by
  rw [h.messageFlags_eq hmessage hlines, ← Line.map_raw_of_parsedAs hlines, List.map_append,
    List.map_append, List.zip_append (by simp), List.zip_append (by simp)]
  simp only [List.filter_append, List.map_append, flagged_map]
  rw [h.middle, List.flatMap_singleton]
  simp

/-! ### Reading the new text -/

theorem isLine_retiringMark : Text.IsLine Line.retiringMark := by
  unfold Text.IsLine
  decide

/-- The lines of the new text are those of the old one, with the middle part retired. -/
theorem Cut.lineTexts_retireText (h : Cut document place message front middle back)
    (hmessage : document.messages[place]? = some message) {text : Text}
    (hlines : Line.ParsedAs (lineTexts text) (front ++ (middle ++ back)))
    (hfront : front ≠ []) (hactive : ∀ line ∈ message.lines, line.isObsolete = false) :
    lineTexts (document.retireText place text)
      = (front ++ (middle.map Line.retired ++ back)).map Line.raw := by
  have hflags := h.messageFlags_eq hmessage hlines
  have htexts := Line.map_raw_of_parsedAs hlines
  have hmarks : middle.map Line.hasContent = middle.map Line.isActive := by
    refine List.map_congr_left fun line hmem => ?_
    cases hline : line.hasContent with
    | false => simp [Line.isActive, hline]
    | true => simp [Line.isActive, hline, hactive line (h.mem_lines hmem hline)]
  have hraw : ∀ lines : List Line,
      List.zipWith (Text.putMark Line.retiringMark) (lines.map fun _ => false) (lines.map Line.raw)
        = lines.map Line.raw := by
    intro lines
    rw [List.zipWith_map, List.zipWith_self]
    rfl
  have hretired : List.zipWith (Text.putMark Line.retiringMark) (middle.map Line.isActive)
      (middle.map Line.raw) = (middle.map Line.retired).map Line.raw := by
    rw [List.zipWith_map, List.zipWith_self, List.map_map]
    exact List.map_congr_left fun line _ => (Line.raw_retired line).symm
  unfold retireText
  rw [lineTexts_markLines isLine_retiringMark, hflags, ← htexts]
  · rw [List.map_append, List.map_append, List.zipWith_append (by simp),
      List.zipWith_append (by simp), hmarks, hraw, hraw, hretired, List.map_append,
      List.map_append]
  · rw [hflags, ← htexts]
    simp
  · rw [hflags]
    obtain ⟨line, front, rfl⟩ := List.exists_cons_of_ne_nil hfront
    simp

/-- Every line reads as itself, those of the middle part also when they are retired. -/
theorem Cut.parse_raw_retired (h : Cut document place message front middle back)
    {run : List Line} (hrun : Entry.ofLines run = .ok message)
    (hread : ∀ line ∈ front ++ (middle ++ back), Line.parse line.raw = .ok line) :
    ∀ line ∈ front ++ (middle.map Line.retired ++ back), Line.parse line.raw = .ok line := by
  simp only [List.forall_mem_append, List.forall_mem_map] at hread ⊢
  obtain ⟨hfront, hmiddle, hback⟩ := hread
  refine ⟨hfront, ?_, hback⟩
  intro line hmem
  cases hline : line.hasContent with
  | false =>
    rw [Line.retired_of_gap hline]
    exact hmiddle line hmem
  | true =>
    refine Line.parse_retired (hmiddle line hmem) (Entry.exists_field_of_ofLines hrun ?_)
    rw [← Entry.lines_of_ofLines hrun]
    exact h.mem_lines hmem hline

/-- A message has a line with content, as only a header can do without. -/
theorem exists_content_of_getElem? {lines : List Line} (h : Divides lines document.entries)
    (hheader : document.headerEntry.isHeader = true)
    (hmessage : document.messages[place]? = some message) :
    ∃ line ∈ message.lines, line.hasContent = true := by
  by_contra hnone
  have hgap : IsGap message.lines := by
    intro line hmem
    rw [Bool.eq_false_iff]
    exact fun hline => hnone ⟨line, hmem, hline⟩
  have hdivides := h
  rw [entries_eq_append hmessage] at hdivides
  obtain ⟨-, run, -, -, -, hrun, -⟩ := hdivides.exists_runs
  have hlines := Entry.lines_of_ofLines hrun
  obtain ⟨-, hcontent⟩ := Entry.ofLines_eq_ok_iff.1 hrun
  have hkey : message.key = document.headerEntry.key := by
    rw [hcontent, Entry.key_content_of_isGap (hlines ▸ hgap)]
    exact (of_decide_eq_true hheader).symm
  have hfresh : document.headerEntry.key ∉ document.messages.map Entry.key :=
    (List.nodup_cons.1 h.keys).1
  exact hfresh (List.mem_map.2 ⟨message, List.mem_of_getElem? hmessage, hkey⟩)

/-- **Retiring a message.** In a catalog that was read, take a message none of whose lines is
obsolete, and put the mark in front of the lines with content that the message has. The new text
reads as the same catalog with that message retired: the header and all other entries, with their
lines, are as before, and so is all that the message says. -/
theorem parse_retireText {options : ReadOptions} {text : Text}
    (h : parse options text = .ok document) (hmessage : document.messages[place]? = some message)
    (hactive : ∀ line ∈ message.lines, line.isObsolete = false) :
    (((document.messageFlags place text).zip (lineTexts text)).filter Prod.fst).map Prod.snd
        = (message.lines.filter Line.hasContent).map Line.raw ∧
      parse options (document.retireText place text)
        = .ok { document with messages := document.messages.set place message.retired } := by
  obtain ⟨hentries, hheader, hfields⟩ := parse_eq_ok_iff.1 h
  obtain ⟨lines, hlines, hdivides⟩ := Assembly.entries_eq_ok_iff.1 hentries
  obtain ⟨front, middle, back, rfl, hcut⟩ := exists_cut hdivides hmessage
  obtain ⟨line, hmem, hline⟩ := exists_content_of_getElem? hdivides hheader hmessage
  rw [entries_eq_append hmessage] at hdivides
  have hbefore : document.entries.take (place + 1) ≠ [] := List.cons_ne_nil _ _
  refine ⟨hcut.flagged_eq hmessage hlines, parse_eq_ok_iff.2 ⟨?_, hheader, hfields⟩⟩
  refine Assembly.entries_eq_ok_iff.2 ⟨front ++ (middle.map Line.retired ++ back), ?_, ?_⟩
  · have hfront : front ≠ [] := by
      obtain ⟨first, more, hfilter⟩ := hdivides.exists_filter_eq_cons hbefore hcut.front
      rintro rfl
      cases hfilter
    rw [hcut.lineTexts_retireText hmessage hlines hfront hactive]
    obtain ⟨-, run, -, -, -, hrun, -⟩ := hdivides.exists_runs
    exact Line.parsedAs_map_raw (hcut.parse_raw_retired hrun (Line.parse_raw_of_parsedAs hlines))
  · rw [entries_set hmessage]
    exact hdivides.retired hbefore hcut.front hcut.middle hcut.back hmem hline

/-- A catalog of messages that share some of their lines. The second one has a comment between its
context and its id, a line that ends with a carriage return, and a line that continues its text. -/
def sharedLines : Text :=
  "msgid \"\"\nmsgstr \"Language: ja\\n\"\n\nmsgid \"a\"\nmsgstr \"b\"\n".toList
    ++ "\n# first\nmsgctxt \"c\"\r\n# note\nmsgid \"a\"\nmsgstr \"b\"\n\"d\"\n".toList
    ++ "\nmsgid \"e\"\nmsgstr \"b\"\n".toList

example : (parse {} sharedLines).map (fun document => document.retireText 1 sharedLines) = .ok
    ("msgid \"\"\nmsgstr \"Language: ja\\n\"\n\nmsgid \"a\"\nmsgstr \"b\"\n".toList
      ++ "\n# first\n#~ msgctxt \"c\"\r\n# note\n#~ msgid \"a\"\n#~ msgstr \"b\"\n#~ \"d\"\n".toList
      ++ "\nmsgid \"e\"\nmsgstr \"b\"\n".toList) := by
  decide +kernel

theorem parse_retireText_sharedLines :
    ∃ document message, parse {} sharedLines = .ok document ∧
      document.messages[1]? = some message ∧ (∀ line ∈ message.lines, line.isObsolete = false) ∧
      (((document.messageFlags 1 sharedLines).zip (lineTexts sharedLines)).filter Prod.fst).map
          Prod.snd = (message.lines.filter Line.hasContent).map Line.raw ∧
      parse {} (document.retireText 1 sharedLines)
        = .ok { document with messages := document.messages.set 1 message.retired } := by
  have hcheck : (parse {} sharedLines).toOption.any (fun document =>
      document.messages[1]?.any fun message =>
        message.lines.all fun line => !line.isObsolete) = true := by decide +kernel
  cases h : parse {} sharedLines with
  | error error =>
    rw [h] at hcheck
    cases hcheck
  | ok document =>
    rw [h] at hcheck
    change document.messages[1]?.any _ = true at hcheck
    cases hmessage : document.messages[1]? with
    | none =>
      rw [hmessage] at hcheck
      cases hcheck
    | some message =>
      have hactive : ∀ line ∈ message.lines, line.isObsolete = false := by
        simpa [hmessage] using hcheck
      exact ⟨document, message, rfl, hmessage, hactive, parse_retireText h hmessage hactive⟩

end Document

end MessageCatalog
