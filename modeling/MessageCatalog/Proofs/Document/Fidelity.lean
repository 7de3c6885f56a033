import MessageCatalog.Proofs.Document.Refinement
import MessageCatalog.Proofs.Line.Reading
import MessageCatalog.Proofs.Text.Lines

/-!
# What writing a catalog gives

A document keeps the lines of its text in the order in which the division has settled them
(`lines_eq_settle`), so writing it gives the text back line by line exactly if the division moves
nothing: if no line without content stands directly before an id that a context waits for
(`write_eq_unlines_iff`).

Whether or not something was moved, the written text reads as the same document (`parse_write`):
settled lines are settled, they have the same runs, and the first of them cannot start with a byte
order mark, as such a line would be neither a header nor without content.
-/

namespace MessageCatalog

open Division

/-! ### The lines of a document -/

namespace Line

theorem map_raw_of_parsedAs {texts : List Text} {lines : List Line} (h : ParsedAs texts lines) :
    lines.map raw = texts := by
  induction h with
  | nil => rfl
  | cons hline _ ih => rw [List.map_cons, raw_of_parse hline, ih]

theorem parse_raw_of_parsedAs {texts : List Text} {lines : List Line} (h : ParsedAs texts lines) :
    ∀ line ∈ lines, parse line.raw = .ok line := by
  induction h with
  | nil => exact fun _ hmem => absurd hmem List.not_mem_nil
  | cons hline _ ih =>
    intro line hmem
    rcases List.mem_cons.1 hmem with rfl | hmem
    · exact parse_raw hline
    · exact ih line hmem

theorem parsedAs_map_raw {lines : List Line} (h : ∀ line ∈ lines, parse line.raw = .ok line) :
    ParsedAs (lines.map raw) lines := by
  rw [ParsedAs, List.forall₂_map_left_iff, List.forall₂_same]
  exact h

/-- Texts determine the lines that they hold. -/
theorem ParsedAs.unique {texts : List Text} {a b : List Line} (ha : ParsedAs texts a)
    (hb : ParsedAs texts b) : a = b :=
  List.right_unique_forall₂' (fun _ _ _ h₁ h₂ => Except.ok.inj (h₁.symm.trans h₂)) ha hb

end Line

namespace Entry

theorem lines_of_ofLines {lines : List Line} {entry : Entry} (h : ofLines lines = .ok entry) :
    entry.lines = lines := by
  rw [ofLines] at h
  split at h
  · cases h
  · obtain rfl := Except.ok.inj h
    rfl

theorem flatMap_lines_of_builtFrom {runs : List (List Line)} {entries : List Entry}
    (h : BuiltFrom runs entries) : entries.flatMap Entry.lines = runs.flatten := by
  induction h with
  | nil => rfl
  | cons hentry _ ih => rw [List.flatMap_cons, List.flatten_cons, lines_of_ofLines hentry, ih]

end Entry

namespace Document

/-- A document keeps the lines of its text as they are settled. -/
theorem lines_eq_settle {lines : List Line} {document : Document}
    (h : Divides lines document.entries) : document.lines = settle false lines := by
  rw [Document.lines, Entry.flatMap_lines_of_builtFrom h.built, flatten_runs]

/-- The texts of the settled lines are the texts of the lines in another order. -/
theorem map_raw_settle_perm {texts : List Text} {lines : List Line}
    (h : Line.ParsedAs texts lines) : ((settle false lines).map Line.raw).Perm texts := by
  have hperm := (settle_perm false lines).map Line.raw
  rw [Line.map_raw_of_parsedAs h] at hperm
  exact hperm

/-- The texts of the settled lines read as these lines. -/
theorem parsedAs_settle {texts : List Text} {lines : List Line} (h : Line.ParsedAs texts lines) :
    Line.ParsedAs ((settle false lines).map Line.raw) (settle false lines) := by
  refine Line.parsedAs_map_raw fun line hmem => ?_
  exact Line.parse_raw_of_parsedAs h line ((settle_perm false lines).mem_iff.1 hmem)

/-- **Exactly when writing gives the text back.** The written lines are those of the text, settled:
all of them and no others. They are in the order of the text exactly if no line without content
stands directly before an id that a context waits for. -/
theorem write_eq_unlines_iff {options : ReadOptions} {text : Text} {document : Document}
    (h : parse options text = .ok document) :
    ∃ lines, Line.ParsedAs (lineTexts text) lines ∧
      document.write = Text.unlines ((settle false lines).map Line.raw) ∧
      ((settle false lines).map Line.raw).Perm (lineTexts text) ∧
      (document.write = Text.unlines (lineTexts text) ↔
        ∀ before line id behind, lines = before ++ line :: id :: behind →
          line.hasContent = false → id.isId = true → waits before = false) := by
  obtain ⟨lines, hlines, hdivides⟩ := Assembly.entries_eq_ok_iff.1 (parse_eq_ok_iff.1 h).1
  have hwrite : document.write = Text.unlines ((settle false lines).map Line.raw) := by
    rw [write, lines_eq_settle hdivides]
  refine ⟨lines, hlines, hwrite, map_raw_settle_perm hlines, ?_⟩
  rw [← settle_eq_self_iff, hwrite]
  constructor
  · intro heq
    have htexts : (settle false lines).map Line.raw = lineTexts text := by
      refine Text.unlines_injective (fun raw hmem => ?_) (fun _ => newline_not_mem_of_mem_lineTexts)
        heq
      exact newline_not_mem_of_mem_lineTexts ((map_raw_settle_perm hlines).mem_iff.1 hmem)
    have hparsed := parsedAs_settle hlines
    rw [htexts] at hparsed
    exact hparsed.unique hlines
  · intro heq
    rw [heq, Line.map_raw_of_parsedAs hlines]

/-- A catalog with a comment between a context and its id. -/
def noteBehindContext : Text :=
  "msgid \"\"\nmsgstr \"Language: ja\\n\"\n".toList
    ++ "\nmsgctxt \"c\"\n# note\nmsgid \"a\"\nmsgstr \"b\"\n".toList

theorem exists_parse_noteBehindContext : ∃ document, parse {} noteBehindContext = .ok document :=
  Outcome.exists_ok (by decide +kernel)

theorem write_eq_unlines_iff_noteBehindContext :
    ∃ document, parse {} noteBehindContext = .ok document ∧
      ∃ lines, Line.ParsedAs (lineTexts noteBehindContext) lines ∧
        document.write = Text.unlines ((settle false lines).map Line.raw) ∧
        ((settle false lines).map Line.raw).Perm (lineTexts noteBehindContext) ∧
        document.write ≠ Text.unlines (lineTexts noteBehindContext) ∧
        ∃ before line id behind, lines = before ++ line :: id :: behind ∧
          line.hasContent = false ∧ id.isId = true ∧ waits before = true := by
  have hview : (parse {} noteBehindContext).toOption.map
      (fun document => document.write == Text.unlines (lineTexts noteBehindContext))
      = some false := by decide +kernel
  obtain ⟨document, h, hview⟩ := Outcome.exists_ok_of_map_toOption hview
  have hwrite : document.write ≠ Text.unlines (lineTexts noteBehindContext) :=
    beq_eq_false_iff_ne.1 hview
  obtain ⟨lines, hlines, hsettled, hperm, hsame⟩ := write_eq_unlines_iff h
  have hmoved := mt hsame.2 hwrite
  simp only [not_forall, Bool.not_eq_false] at hmoved
  obtain ⟨before, line, id, behind, hcut, hcontent, hid, hwaits⟩ := hmoved
  exact ⟨document, h, lines, hlines, hsettled, hperm, hwrite, before, line, id, behind, hcut,
    hcontent, hid, hwaits⟩

/-- The comment is written behind the id. -/
theorem write_ne_unlines_noteBehindContext :
    ∃ document, parse {} noteBehindContext = .ok document ∧
      document.write ≠ Text.unlines (lineTexts noteBehindContext) := by
  obtain ⟨document, h⟩ := exists_parse_noteBehindContext
  have hwrite : (parse {} noteBehindContext).map write
      ≠ .ok (Text.unlines (lineTexts noteBehindContext)) := by decide +kernel
  refine ⟨document, h, fun heq => hwrite ?_⟩
  rw [h, ← heq]
  rfl

/-! ### Reading a written catalog -/

/-- The settled lines are divided as the lines are. -/
theorem divides_settle {lines : List Line} {entries : List Entry} (h : Divides lines entries) :
    Divides (settle false lines) entries := by
  have hcontexts := (answered_iff lines).2 h.contexts
  refine ⟨?_, ?_, ?_, h.keys⟩
  · obtain ⟨first, hfind, hfirst⟩ := h.header
    refine ⟨first, ?_, hfirst⟩
    rw [← List.head?_filter, filter_settle, List.head?_filter, hfind]
  · rw [← answered_iff, ← answered_filter, filter_settle, answered_filter]
    exact hcontexts
  · rw [runs_settle]
    exact h.built

/-- No text of a divided catalog starts with a byte order mark: the mark would belong to a keyword,
and the first keyword is that of an id. -/
theorem unmarked_of_divides {texts : List Text} {lines : List Line} {entries : List Entry}
    (hlines : Line.ParsedAs texts lines) (h : Divides lines entries) :
    ∀ first ∈ texts.head?, Text.after? byteOrderMark first = none := by
  intro text hhead
  cases hlines with
  | nil => simp at hhead
  | @cons _ line _ rest hparse _ =>
    obtain rfl := Option.some.inj hhead
    cases hmark : Text.after? byteOrderMark _ with
    | none => rfl
    | some unmarked =>
      rw [Text.after?_eq_some.1 hmark] at hparse
      obtain ⟨name, index, hkeyword⟩ := Line.parse_cons_of_isNameChar (by decide) hparse
      obtain ⟨first, hfind, hfirst⟩ := h.header
      rw [List.find?_cons_of_pos (Line.hasContent_of_keyword hkeyword)] at hfind
      obtain rfl := Option.some.inj hfind
      have hname := (Line.isId_iff.1 hfirst.isId).symm.trans hkeyword
      have hchar := (Keyword.mk.inj (Option.some.inj hname)).1
      exact absurd (List.cons.inj hchar).1 (by decide)

/-- **Writing and reading again.** If no line of the text ends with a carriage return, the written
text of a document reads as the same document. -/
theorem parse_write {options : ReadOptions} {text : Text} {document : Document}
    (h : parse options text = .ok document)
    (hreturn : ∀ line ∈ Text.lines text, line.getLast? ≠ some '\r') :
    parse options document.write = .ok document := by
  obtain ⟨hentries, hheader⟩ := parse_eq_ok_iff.1 h
  obtain ⟨lines, hlines, hdivides⟩ := Assembly.entries_eq_ok_iff.1 hentries
  have hsettled := parsedAs_settle hlines
  have hisLine : ∀ raw ∈ (settle false lines).map Line.raw, Text.IsLine raw := fun raw hmem =>
    isLine_of_mem_lineTexts hreturn ((map_raw_settle_perm hlines).mem_iff.1 hmem)
  have htexts : lineTexts document.write = (settle false lines).map Line.raw := by
    rw [write, lines_eq_settle hdivides]
    exact lineTexts_of_lines (Text.lines_unlines hisLine)
      (unmarked_of_divides hsettled (divides_settle hdivides))
  refine parse_eq_ok_iff.2 ⟨Assembly.entries_eq_ok_iff.2 ⟨settle false lines, ?_, ?_⟩, hheader⟩
  · rw [htexts]
    exact hsettled
  · exact divides_settle hdivides

theorem parse_write_noteBehindContext :
    ∃ document, parse {} noteBehindContext = .ok document ∧
      (∀ line ∈ Text.lines noteBehindContext, line.getLast? ≠ some '\r') ∧
      parse {} document.write = .ok document := by
  obtain ⟨document, h⟩ := exists_parse_noteBehindContext
  have hreturn : ∀ line ∈ Text.lines noteBehindContext, line.getLast? ≠ some '\r' := by
    decide +kernel
  exact ⟨document, h, hreturn, parse_write h hreturn⟩

end Document

end MessageCatalog
