import MessageCatalog.Proofs.Line.Composing

/-!
# The normal form of a line

Written anew from its parts, a line loses what the parts do not hold: the blanks around them, of
which one space is left between neighbours, and the zeros in front of an index. What is left is a
normal form (`parse_recompose`). It reads as a line with the same parts, behind an obsolete marker
stands the same line, and written anew it stays as it is.

Two facts give this. Parts that some text spells are spelled by their written form as well
(`Spells.render`), because a text can only spell a keyword that can be written and a string that can
stand between quotes. And a line is determined by its text and by the parts that the text spells
(`parse_of_spells_parts`): of the text itself it only keeps a copy.
-/

namespace MessageCatalog.Line

open Text

/-! ### Parts that a text spells -/

variable {text other : Text} {parts : Parts} {line : Line}

/-- The keyword that a text spells can be written. -/
theorem Spells.writable (h : Spells text parts) : ∀ keyword ∈ parts.keyword, Writable keyword := by
  intro keyword hkeyword
  refine ⟨h.isName keyword hkeyword, ?_⟩
  intro index hindex
  obtain ⟨-, hfront, -, -, -, -, -⟩ := h
  obtain rfl : _ = some keyword := hkeyword
  cases hfront with
  | present _ hspells =>
    obtain rfl : _ = some index := hindex
    cases hspells with
    | present _ _ _ hlt => exact hlt

/-- The string that a text spells has the value that its raw text stands for. -/
theorem Spells.unescape_raw (h : Spells text parts) :
    ∀ payload ∈ parts.value, unescape payload.raw = .ok payload.value := by
  intro payload hvalue
  obtain ⟨-, -, -, hmiddle, -, -, -⟩ := h
  obtain rfl : _ = some payload := hvalue
  cases hmiddle with
  | present _ hunescape => exact hunescape

/-- Parts that some text spells are spelled by their written form. -/
theorem Spells.render (h : Spells text parts) : Spells parts.render parts :=
  spells_render h.writable fun payload hvalue =>
    ⟨h.quotable payload hvalue, h.unescape_raw payload hvalue⟩

/-! ### Lines with the same parts -/

/-- The line with another text. -/
def withRaw (raw : Text) : Line → Line
  | plain parts _ => plain parts raw
  | obsolete hidden _ logical => obsolete hidden raw logical

@[simp] theorem parts_withRaw (raw : Text) (line : Line) :
    (line.withRaw raw).parts = line.parts := by
  cases line with
  | plain parts text => rfl
  | obsolete hidden text logical => rfl

@[simp] theorem recompose_withRaw (raw : Text) (line : Line) :
    (line.withRaw raw).recompose = line.recompose := by
  unfold recompose
  rw [parts_withRaw]

/-- A text that spells the parts of a line reads as this line, up to the text that the line
keeps. -/
theorem parse_of_spells_parts (h : parse text = .ok line) (hother : Spells other line.parts) :
    parse other = .ok (line.withRaw other) := by
  have hspells := spells_of_parse h
  cases line with
  | plain parts raw =>
    apply parse_of_spells hother
    intro hidden hparts
    have hobsolete := (isObsolete_iff_of_parse h).2 ⟨hidden, hparts⟩
    cases hobsolete
  | obsolete hidden raw logical =>
    -- both texts hide the same text, which is all that decides what stands behind the marker
    by_cases hbar : StartsWithBar hidden
    · rw [parse_of_startsWithBar hspells hbar] at h
      rw [parse_of_startsWithBar hother hbar]
      obtain ⟨-, -, rfl⟩ := Line.obsolete.inj (Except.ok.inj h)
      rfl
    · rw [parse_of_not_startsWithBar hspells hbar] at h
      obtain ⟨inner, hinner, heq⟩ := Outcome.map_eq_ok_iff.1 h
      obtain ⟨-, -, rfl⟩ := Line.obsolete.inj heq
      rw [parse_of_not_startsWithBar hother hbar, hinner]
      rfl

/-- A line that says the same as another one, whatever their texts are. -/
structure Restates (again line : Line) : Prop where
  /-- The keyword is the same, with its name and its index. -/
  keyword : again.keyword = line.keyword
  /-- The string is the same, with its raw text and its value. -/
  value : again.value = line.value
  /-- The comment is the same. -/
  comment : again.comment = line.comment
  /-- Both lines are obsolete, or none is. -/
  isObsolete : again.isObsolete = line.isObsolete
  /-- Behind the marker stands the same line. -/
  logical : line.isObsolete = true → again.logical = line.logical

theorem restates_withRaw (line : Line) (raw : Text) : Restates (line.withRaw raw) line := by
  cases line with
  | plain parts text => exact ⟨rfl, rfl, rfl, rfl, fun h => by cases h⟩
  | obsolete hidden text logical => exact ⟨rfl, rfl, rfl, rfl, fun _ => rfl⟩

/-- **A line written anew is in normal form.** Whatever text a line was read from, the text that is
written anew from its parts reads as a line again. This line says the same, that text is its text,
and written anew it stays as it is. -/
theorem parse_recompose (h : parse text = .ok line) :
    ∃ again, parse line.recompose = .ok again ∧ Restates again line ∧
      again.raw = line.recompose ∧ again.recompose = line.recompose := by
  have hagain := parse_of_spells_parts h (spells_of_parse h).render
  exact ⟨_, hagain, restates_withRaw line _, raw_of_parse hagain, recompose_withRaw _ line⟩

/-- A keyword behind a wide blank with zeros in front of its index, a string that touches it, and a
comment that starts with the obsolete marker. -/
def looseText : Text := "\u3000msgstr\t[007]\"a\\\"#\" \t#~ b".toList

/-- A line behind two obsolete markers, with blanks before each of them. -/
def nestedText : Text := "  #~ \t#~msgid [00]\"x\"# y".toList

theorem parse_recompose_looseTexts :
    (∃ line, parse looseText = .ok line ∧
      line.recompose = "msgstr[7] \"a\\\"#\" #~ b".toList ∧
      ∃ again, parse line.recompose = .ok again ∧ Restates again line ∧
        again.raw = line.recompose ∧ again.recompose = line.recompose) ∧
    ∃ line, parse nestedText = .ok line ∧ line.isObsolete = true ∧
      line.recompose = "#~ \t#~msgid [00]\"x\"# y".toList ∧
      ∃ again, parse line.recompose = .ok again ∧ Restates again line ∧
        again.raw = line.recompose ∧ again.recompose = line.recompose := by
  have hloose : (parse looseText).toOption.map recompose
      = some "msgstr[7] \"a\\\"#\" #~ b".toList := by decide +kernel
  have hnested : (parse nestedText).toOption.map (fun line => (line.isObsolete, line.recompose))
      = some (true, "#~ \t#~msgid [00]\"x\"# y".toList) := by decide +kernel
  obtain ⟨loose, hread, hwritten⟩ := Outcome.exists_ok_of_map_toOption hloose
  obtain ⟨nested, hread', hview⟩ := Outcome.exists_ok_of_map_toOption hnested
  obtain ⟨hobsolete, hwritten'⟩ := Prod.mk.inj hview
  exact ⟨⟨loose, hread, hwritten, parse_recompose hread⟩,
    nested, hread', hobsolete, hwritten', parse_recompose hread'⟩

end MessageCatalog.Line
