import Mathlib.Data.List.Basic
import MessageCatalog.Document.Basic

/-!
# Cutting a text into lines and putting lines together

No line of a text holds a line feed (`newline_not_mem_of_mem_lines`). Lines with a line feed behind
each are determined by the text that they make (`unlines_injective`), and lines with a line feed
between neighbours are the lines of that text (`lines_join`), if the last one is not empty.

The same is said of `Document.lineTexts`, the lines of a catalog, which drops a byte order mark.
-/

namespace MessageCatalog.Text

/-- No line of a text holds a line feed. -/
theorem newline_not_mem_of_mem_lines {text line : Text} (h : line ∈ lines text) : '\n' ∉ line := by
  induction text using lines.induct generalizing line with
  | case1 => cases h
  | case2 rest ih =>
    rw [lines] at h
    rcases List.mem_cons.1 h with rfl | h
    · exact List.not_mem_nil
    · exact ih h
  | case3 rest ih =>
    rw [lines] at h
    rcases List.mem_cons.1 h with rfl | h
    · exact List.not_mem_nil
    · exact ih h
  | case4 c rest hfeed hreturn hnil ih =>
    rw [lines.eq_4 c rest hfeed hreturn, hnil] at h
    rw [List.mem_singleton.1 h, List.mem_singleton]
    exact fun heq => hfeed heq.symm
  | case5 c rest hfeed hreturn first more hlines ih =>
    rw [lines.eq_4 c rest hfeed hreturn, hlines] at h
    rcases List.mem_cons.1 h with rfl | h
    · intro hmem
      rcases List.mem_cons.1 hmem with heq | hmem
      · exact hfeed heq.symm
      · exact ih (by rw [hlines]; exact List.mem_cons_self) hmem
    · exact ih (by rw [hlines]; exact List.mem_cons_of_mem _ h)

/-- A text without a line feed is one line, unless it is empty. -/
theorem lines_of_newline_not_mem {text : Text} (hfeed : '\n' ∉ text) (hnil : text ≠ []) :
    lines text = [text] := by
  induction text with
  | nil => exact absurd rfl hnil
  | cons c rest ih =>
    have hc : c ≠ '\n' := fun heq => hfeed (by simp [heq])
    have hrest : '\n' ∉ rest := fun hmem => hfeed (List.mem_cons_of_mem _ hmem)
    have hreturn : ∀ tail, c = '\r' → rest ≠ '\n' :: tail := by
      rintro tail - rfl
      exact hrest List.mem_cons_self
    rw [lines.eq_4 c rest hc hreturn]
    cases rest with
    | nil => rfl
    | cons d rest => rw [ih hrest (by simp)]

/-- Lines with a line feed between neighbours are the lines of that text. -/
theorem lines_join {texts : List Text} (h : ∀ text ∈ texts, IsLine text)
    (hlast : ∀ text ∈ texts.getLast?, text ≠ []) : lines (join ['\n'] texts) = texts := by
  induction texts with
  | nil => rfl
  | cons text texts ih =>
    have htext := h text List.mem_cons_self
    cases texts with
    | nil =>
      have hjoin : join ['\n'] [text] = text := by simp [join, List.intercalate]
      rw [hjoin]
      exact lines_of_newline_not_mem htext.1 (hlast text (by simp))
    | cons next more =>
      have hjoin : join ['\n'] (text :: next :: more)
          = text ++ '\n' :: join ['\n'] (next :: more) := by
        simp [join, List.intercalate]
      rw [hjoin, lines_append_newline htext, ih (fun t ht => h t (List.mem_cons_of_mem _ ht))]
      simpa [List.getLast?_cons_cons] using hlast

theorem unlines_cons (text : Text) (texts : List Text) :
    unlines (text :: texts) = text ++ '\n' :: unlines texts := by
  simp [unlines]

/-- Lines without line feeds are determined by the text that they make. -/
theorem unlines_injective {a b : List Text} (ha : ∀ text ∈ a, '\n' ∉ text)
    (hb : ∀ text ∈ b, '\n' ∉ text) (h : unlines a = unlines b) : a = b := by
  induction a generalizing b with
  | nil =>
    cases b with
    | nil => rfl
    | cons text b => rw [unlines_cons] at h; simp [unlines] at h
  | cons text a ih =>
    cases b with
    | nil => rw [unlines_cons] at h; simp [unlines] at h
    | cons other b =>
      have hcut := congrArg (cutAt? '\n') h
      rw [unlines_cons, unlines_cons, cutAt?_append (ha text List.mem_cons_self),
        cutAt?_append (hb other List.mem_cons_self)] at hcut
      obtain ⟨rfl, hrest⟩ := Prod.mk.inj (Option.some.inj hcut)
      rw [ih (fun t ht => ha t (List.mem_cons_of_mem _ ht))
        (fun t ht => hb t (List.mem_cons_of_mem _ ht)) hrest]

end MessageCatalog.Text

namespace MessageCatalog.Document

open Text

/-- A line of a catalog is a line of its text, possibly without a mark in front. -/
theorem suffix_of_mem_lineTexts {text line : Text} (h : line ∈ lineTexts text) :
    ∃ whole ∈ Text.lines text, line <:+ whole := by
  rw [lineTexts] at h
  cases hlines : Text.lines text with
  | nil => simp [hlines] at h
  | cons first rest =>
    rw [hlines] at h
    rcases List.mem_cons.1 h with rfl | h
    · refine ⟨first, List.mem_cons_self, ?_⟩
      rw [dropMark]
      cases hmark : after? byteOrderMark first with
      | none => exact List.suffix_refl first
      | some unmarked =>
        rw [after?_eq_some.1 hmark]
        exact List.suffix_cons _ _
    · exact ⟨line, List.mem_cons_of_mem _ h, List.suffix_refl line⟩

theorem newline_not_mem_of_mem_lineTexts {text line : Text} (h : line ∈ lineTexts text) :
    '\n' ∉ line := by
  obtain ⟨whole, hwhole, hsuffix⟩ := suffix_of_mem_lineTexts h
  exact fun hmem => newline_not_mem_of_mem_lines hwhole (hsuffix.subset hmem)

/-- If no line of a text ends with a carriage return, the lines of the catalog can be written and
read back. -/
theorem isLine_of_mem_lineTexts {text line : Text}
    (hreturn : ∀ whole ∈ Text.lines text, whole.getLast? ≠ some '\r') (h : line ∈ lineTexts text) :
    IsLine line := by
  refine ⟨newline_not_mem_of_mem_lineTexts h, fun hlast => ?_⟩
  obtain ⟨whole, hwhole, front, rfl⟩ := suffix_of_mem_lineTexts h
  refine hreturn _ hwhole ?_
  rw [List.getLast?_append, hlast]
  rfl

/-- The lines of a catalog that is written line by line are these lines, if the first of them has no
mark in front. -/
theorem lineTexts_of_lines {text : Text} {texts : List Text} (h : Text.lines text = texts)
    (hmark : ∀ first ∈ texts.head?, after? byteOrderMark first = none) :
    lineTexts text = texts := by
  rw [lineTexts, h]
  cases texts with
  | nil => rfl
  | cons first rest =>
    have hfirst := hmark first (by simp)
    simp [dropMark, hfirst]

end MessageCatalog.Document
