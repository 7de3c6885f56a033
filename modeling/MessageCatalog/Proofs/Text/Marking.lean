import MessageCatalog.Proofs.Text.Lines

/-!
# Putting a mark in front of some lines

`Text.markLines` puts a mark in front of some lines of a text and leaves everything else as it is,
line ends included. The lines of the new text are the lines of the old one, some of them behind the
mark (`lines_markLines`), if the mark itself is one that can stand in a line.
-/

namespace MessageCatalog.Text

/-- The lines of a text together with their line ends. -/
def fullLines : Text → List Text
  | [] => []
  | '\n' :: rest => ['\n'] :: fullLines rest
  | c :: rest =>
    match fullLines rest with
    | [] => [[c]]
    | line :: more => (c :: line) :: more

/-- The line, behind the mark if it is flagged. -/
def putMark (mark : Text) (flag : Bool) (line : Text) : Text := if flag then mark ++ line else line

/-- Puts the mark in front of every line that is flagged. There is a flag for each line. -/
def markLines (mark : Text) (flags : List Bool) (text : Text) : Text :=
  (List.zipWith (putMark mark) flags (fullLines text)).flatten

/-- The lines with their ends are the text. -/
theorem flatten_fullLines (text : Text) : (fullLines text).flatten = text := by
  induction text using fullLines.induct with
  | case1 => rfl
  | case2 rest ih => simp [fullLines, ih]
  | case3 c rest hfeed hnil ih =>
    rw [fullLines.eq_3 c rest hfeed, hnil]
    rw [hnil] at ih
    simp [← ih]
  | case4 c rest hfeed line more hlines ih =>
    rw [fullLines.eq_3 c rest hfeed, hlines]
    rw [hlines] at ih
    simp [← ih]

/-- A line with its end is not empty. -/
theorem ne_nil_of_mem_fullLines {text line : Text} (h : line ∈ fullLines text) : line ≠ [] := by
  induction text using fullLines.induct generalizing line with
  | case1 => cases h
  | case2 rest ih =>
    rw [fullLines] at h
    rcases List.mem_cons.1 h with hline | hmem
    · simp [hline]
    · exact ih hmem
  | case3 c rest hfeed hnil ih =>
    rw [fullLines.eq_3 c rest hfeed, hnil] at h
    simp [List.mem_singleton.1 h]
  | case4 c rest hfeed first more hlines ih =>
    rw [fullLines.eq_3 c rest hfeed, hlines] at h
    rcases List.mem_cons.1 h with hline | hmem
    · simp [hline]
    · exact ih (by rw [hlines]; exact List.mem_cons_of_mem _ hmem)

theorem lines_eq_nil_iff {text : Text} : lines text = [] ↔ text = [] := by
  constructor
  · intro h
    induction text using lines.induct with
    | case1 => rfl
    | case2 rest ih => rw [lines] at h; cases h
    | case3 rest ih => rw [lines] at h; cases h
    | case4 c rest hfeed hreturn hnil ih =>
      rw [lines.eq_4 c rest hfeed hreturn, hnil] at h
      cases h
    | case5 c rest hfeed hreturn line more hlines ih =>
      rw [lines.eq_4 c rest hfeed hreturn, hlines] at h
      cases h
  · intro h
    rw [h]
    rfl

theorem length_fullLines (text : Text) : (fullLines text).length = (lines text).length := by
  induction text using lines.induct with
  | case1 => rfl
  | case2 rest ih => simp [fullLines, lines, ih]
  | case3 rest ih => simp [fullLines, lines, ih]
  | case4 c rest hfeed hreturn hnil ih =>
    obtain rfl := lines_eq_nil_iff.1 hnil
    rw [lines.eq_4 c [] hfeed hreturn, fullLines.eq_3 c [] hfeed]
    rfl
  | case5 c rest hfeed hreturn line more hlines ih =>
    obtain ⟨full, others, hfull⟩ : ∃ full others, fullLines rest = full :: others :=
      List.exists_cons_of_length_pos (by rw [ih, hlines]; simp)
    rw [lines.eq_4 c rest hfeed hreturn, fullLines.eq_3 c rest hfeed, hlines, hfull]
    rw [hlines, hfull] at ih
    exact ih

theorem IsLine.of_cons {c : Char} {line : Text} (h : IsLine (c :: line)) : IsLine line := by
  refine ⟨fun hmem => h.1 (List.mem_cons_of_mem _ hmem), ?_⟩
  cases line with
  | nil => simp
  | cons d line => simpa [List.getLast?_cons_cons] using h.2

/-- What is put in front of a text joins its first line. -/
theorem lines_append_of_isLine {mark text first : Text} {more : List Text} (hmark : IsLine mark)
    (h : lines text = first :: more) : lines (mark ++ text) = (mark ++ first) :: more := by
  induction mark with
  | nil => exact h
  | cons c mark ih =>
    have hfeed : c ≠ '\n' := fun heq => hmark.1 (by simp [heq])
    have hreturn : ∀ rest, c = '\r' → mark ++ text ≠ '\n' :: rest := by
      intro rest hc heq
      cases mark with
      | nil => exact hmark.2 (by simp [hc])
      | cons d mark =>
        rw [List.cons_append] at heq
        exact hmark.1 (by simp [(List.cons.inj heq).1])
    rw [List.cons_append, lines.eq_4 c _ hfeed hreturn, ih hmark.of_cons]
    rfl

theorem lines_putMark {mark text first : Text} {more : List Text} (hmark : IsLine mark)
    (flag : Bool) (h : lines text = first :: more) :
    lines (putMark mark flag text) = putMark mark flag first :: more := by
  cases flag with
  | false => exact h
  | true => exact lines_append_of_isLine hmark h

theorem putMark_append (mark : Text) (flag : Bool) (line rest : Text) :
    putMark mark flag line ++ rest = putMark mark flag (line ++ rest) := by
  cases flag with
  | false => rfl
  | true => exact List.append_assoc mark line rest

/-- Marking the first line leaves the marking of the others. -/
theorem markLines_cons {mark text line : Text} {others : List Text} (flag : Bool)
    (flags : List Bool) (h : fullLines text = line :: others) :
    markLines mark (flag :: flags) text
      = putMark mark flag (line ++ (List.zipWith (putMark mark) flags others).flatten) := by
  rw [markLines, h, List.zipWith_cons_cons, List.flatten_cons, putMark_append]

/-- It is enough to look at the text behind the first mark. -/
theorem lines_markLines_cons {mark text line first : Text} {others more : List Text} {flag : Bool}
    {flags : List Bool} (hmark : IsLine mark) (hfull : fullLines text = line :: others)
    (h : lines (line ++ (List.zipWith (putMark mark) flags others).flatten)
      = first :: List.zipWith (putMark mark) flags more) :
    lines (markLines mark (flag :: flags) text)
      = List.zipWith (putMark mark) (flag :: flags) (first :: more) := by
  rw [markLines_cons flag flags hfull, lines_putMark hmark flag h, List.zipWith_cons_cons]

/-- **The lines of a marked text** are the lines of the text, those that are flagged behind the
mark. -/
theorem lines_markLines {mark : Text} (hmark : IsLine mark) {text : Text} {flags : List Bool}
    (hlength : flags.length = (lines text).length) :
    lines (markLines mark flags text) = List.zipWith (putMark mark) flags (lines text) := by
  induction text using lines.induct generalizing flags with
  | case1 =>
    obtain rfl := List.length_eq_zero_iff.1 hlength
    rfl
  | case2 rest ih =>
    rw [lines] at hlength ⊢
    obtain ⟨flag, flags, rfl⟩ := List.exists_cons_of_length_eq_add_one hlength
    refine lines_markLines_cons hmark (fullLines.eq_2 rest) ?_
    rw [List.singleton_append, lines]
    exact congrArg _ (ih (Nat.succ.inj hlength))
  | case3 rest ih =>
    rw [lines] at hlength ⊢
    obtain ⟨flag, flags, rfl⟩ := List.exists_cons_of_length_eq_add_one hlength
    have hfull : fullLines ('\r' :: '\n' :: rest) = ['\r', '\n'] :: fullLines rest := by
      simp [fullLines]
    refine lines_markLines_cons hmark hfull ?_
    rw [List.cons_append, List.singleton_append, lines]
    exact congrArg _ (ih (Nat.succ.inj hlength))
  | case4 c rest hfeed hreturn hnil ih =>
    obtain rfl := lines_eq_nil_iff.1 hnil
    have hline : lines [c] = [[c]] := by rw [lines.eq_4 c [] hfeed hreturn, lines]
    rw [hline] at hlength ⊢
    obtain ⟨flag, flags, rfl⟩ := List.exists_cons_of_length_eq_add_one hlength
    obtain rfl := List.length_eq_zero_iff.1 (Nat.succ.inj hlength)
    refine lines_markLines_cons hmark (fullLines.eq_3 c [] hfeed) ?_
    simpa using hline
  | case5 c rest hfeed hreturn first more hlines ih =>
    have hall : lines (c :: rest) = (c :: first) :: more := by
      rw [lines.eq_4 c rest hfeed hreturn, hlines]
    rw [hall] at hlength ⊢
    obtain ⟨flag, flags, rfl⟩ := List.exists_cons_of_length_eq_add_one hlength
    obtain ⟨line, others, hfull⟩ : ∃ line others, fullLines rest = line :: others :=
      List.exists_cons_of_length_pos (by rw [length_fullLines, hlines]; simp)
    have hfullAll : fullLines (c :: rest) = (c :: line) :: others := by
      rw [fullLines.eq_3 c rest hfeed, hfull]
    -- the induction hypothesis is used with no mark in front of the first line of the rest
    have hrest : lines (line ++ (List.zipWith (putMark mark) flags others).flatten)
        = first :: List.zipWith (putMark mark) flags more := by
      have hunmarked := @ih (false :: flags) (by rw [hlines]; exact hlength)
      rw [hlines, markLines_cons false flags hfull] at hunmarked
      exact hunmarked
    have hreturn' : ∀ tail, c = '\r' →
        line ++ (List.zipWith (putMark mark) flags others).flatten ≠ '\n' :: tail := by
      intro tail hc heq
      obtain ⟨d, line, rfl⟩ := List.exists_cons_of_ne_nil
        (ne_nil_of_mem_fullLines (by rw [hfull]; exact List.mem_cons_self : line ∈ fullLines rest))
      have hflat := flatten_fullLines rest
      rw [hfull, List.flatten_cons, List.cons_append] at hflat
      rw [List.cons_append] at heq
      exact hreturn _ hc (by rw [← hflat, (List.cons.inj heq).1])
    refine lines_markLines_cons hmark hfullAll ?_
    rw [List.cons_append, lines.eq_4 c _ hfeed hreturn', hrest]

end MessageCatalog.Text

namespace MessageCatalog.Document

open Text

theorem length_lineTexts (text : Text) : (lineTexts text).length = (Text.lines text).length := by
  unfold lineTexts
  cases Text.lines text with
  | nil => rfl
  | cons first rest => rfl

/-- The same holds of the lines of a catalog, if the first one, which may have a byte order mark in
front, is not flagged. -/
theorem lineTexts_markLines {mark text : Text} {flags : List Bool} (hmark : IsLine mark)
    (hlength : flags.length = (lineTexts text).length) (hfirst : flags.head? ≠ some true) :
    lineTexts (markLines mark flags text)
      = List.zipWith (putMark mark) flags (lineTexts text) := by
  rw [length_lineTexts] at hlength
  have hlines := lines_markLines hmark hlength
  unfold lineTexts
  rw [hlines]
  cases htext : Text.lines text with
  | nil => simp
  | cons first rest =>
    rw [htext] at hlength
    obtain ⟨flag, flags, rfl⟩ := List.exists_cons_of_length_eq_add_one hlength
    cases flag with
    | true => exact absurd rfl hfirst
    | false => rfl

end MessageCatalog.Document
