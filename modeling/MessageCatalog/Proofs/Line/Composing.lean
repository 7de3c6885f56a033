import MessageCatalog.Proofs.Escape
import MessageCatalog.Proofs.Line.Grammar

/-!
# Composed lines read back

Parts that are written with one space between neighbours spell themselves (`spells_render`), if the
keyword is one that a line can hold and the string is one that can stand between quotes. Composing
parts that spell themselves is then the same as reading what is written for them, faults included
(`compose_eq_parse`).

A string that is made of its value can always stand between quotes (`quotable_escape`), so composing
such parts gives a line that reads back (`compose_reads_back`). A string that is made of its raw
text need not: a quote without a backslash is accepted in a raw text, and it ends the string when
the line is read. `compose_raw_reads_back_iff` says that this is the only thing that can go wrong.
-/

namespace MessageCatalog.Line

open Text Escape

/-! ### Strings that can stand between quotes -/

/-- The digits of an escape sequence are neither quotes nor backslashes. -/
theorem quotable_digitChar {d : Nat} (h : d < 16) {raw : Text} (hraw : Quotable raw) :
    Quotable (Nat.digitChar d :: raw) := by
  have hall : ∀ d < 16, Nat.digitChar d ≠ '"' ∧ Nat.digitChar d ≠ '\\' := by decide
  exact Quotable.plain (hall d h).1 (hall d h).2 hraw

theorem quotable_encode_append (c : Char) {raw : Text} (h : Quotable raw) :
    Quotable (encode c ++ raw) := by
  unfold encode
  cases hletter : letter? c with
  | some letter => exact Quotable.pair letter h
  | none =>
    dsimp only
    split
    next hcontrol =>
      exact Quotable.pair 'x'
        (quotable_digitChar (by omega) (quotable_digitChar (by omega) h))
    next => exact Quotable.plain (ne_quote_of_letter? hletter) (ne_backslash_of_letter? hletter) h

/-- A written value can stand between quotes. -/
theorem quotable_escape (value : Text) : Quotable (escape value) := by
  induction value with
  | nil => exact Quotable.nil
  | cons c value ih =>
    rw [escape_cons]
    exact quotable_encode_append c ih

/-! ### Written parts -/

/-- A keyword that a line can hold: its name can be read back, and its index fits a machine word. -/
structure Writable (keyword : Keyword) : Prop where
  /-- The name can be read back. -/
  name : Keyword.isName keyword.name = true
  /-- The index fits a machine word. -/
  index : ∀ index ∈ keyword.index, index < wordLimit

/-- A written keyword spells itself. -/
theorem Writable.spellsKeyword {keyword : Keyword} (h : Writable keyword) :
    SpellsKeyword keyword.render (some keyword) := by
  obtain ⟨name, index⟩ := keyword
  cases index with
  | none =>
    have hspells := SpellsKeyword.present h.name SpellsIndex.absent
    rw [List.append_nil] at hspells
    exact hspells
  | some index =>
    have hdigits : allDigits (decimal index) = true :=
      List.all_eq_true.2 fun c hc => Nat.isDigit_of_mem_toDigits (by decide) (by decide) hc
    have hlt : decimalValue (decimal index) < wordLimit := by
      rw [decimalValue_decimal]
      exact h.index index rfl
    have hne : decimal index ≠ [] := Nat.toDigits_ne_nil
    have hspells := SpellsKeyword.present h.name (SpellsIndex.present Blanks.nil hne hdigits hlt)
    simpa [Keyword.render] using hspells

/-- A written string spells itself, if it can stand between quotes. -/
theorem spellsValue_render {payload : Payload} (hraw : Quotable payload.raw)
    (hvalue : unescape payload.raw = .ok payload.value) :
    SpellsValue payload.render (some payload) :=
  SpellsValue.present hraw hvalue

/-- Between written parts there is at most a space. -/
theorem render_eq_append (parts : Parts) :
    ∃ gap space, Blanks gap ∧ Blanks space ∧
      parts.render = parts.keyword.elim [] Keyword.render ++ (gap ++
        (parts.value.elim [] Payload.render ++ (space ++ parts.comment.elim [] ('#' :: ·)))) := by
  have hspace : Blanks [' '] := by
    intro c hc
    rw [List.mem_singleton.1 hc]
    rfl
  have hsome : ∀ b : Bool, Blanks (if b then [' '] else []) := by
    intro b
    cases b
    · exact Blanks.nil
    · exact hspace
  obtain ⟨keyword, value, comment⟩ := parts
  refine ⟨_, _, hsome (keyword.isSome && (value.isSome || comment.isSome)),
    hsome (value.isSome && comment.isSome), ?_⟩
  cases keyword <;> cases value <;> cases comment <;>
    simp [Parts.render, join, List.intercalate]

/-- Written parts spell themselves. -/
theorem spells_render {parts : Parts} (hkeyword : ∀ keyword ∈ parts.keyword, Writable keyword)
    (hvalue : ∀ payload ∈ parts.value,
      Quotable payload.raw ∧ unescape payload.raw = .ok payload.value) :
    Spells parts.render parts := by
  obtain ⟨gap, space, hgap, hspace, hrender⟩ := render_eq_append parts
  obtain ⟨keyword, value, comment⟩ := parts
  refine Spells.intro Blanks.nil ?_ hgap ?_ hspace ?_ hrender
  · cases keyword with
    | none => exact SpellsKeyword.absent
    | some keyword => exact (hkeyword keyword rfl).spellsKeyword
  · cases value with
    | none => exact SpellsValue.absent
    | some payload => exact spellsValue_render (hvalue payload rfl).1 (hvalue payload rfl).2
  · cases comment with
    | none => exact SpellsComment.absent
    | some comment => exact SpellsComment.present comment

/-! ### Composing -/

theorem hiddenIn?_eq_some_iff {parts : Parts} {hidden : Text} :
    hiddenIn? parts = some hidden ↔ parts = marked hidden := by
  obtain ⟨keyword, value, comment⟩ := parts
  unfold hiddenIn? marked
  cases keyword with
  | some keyword => simp [Parts.hasContent]
  | none =>
    cases value with
    | some payload => simp [Parts.hasContent]
    | none => simp [Parts.hasContent, Option.bind_eq_some_iff, after?_eq_some]

theorem compose_of_invalid {parts : Parts} {keyword : Keyword} (hkeyword : parts.keyword = keyword)
    (hname : Keyword.isName keyword.name = false) :
    compose parts = .error { fault := .invalidKeyword, text := parts.render } := by
  simp [compose, hkeyword, hname]

/-- Without the marker, composing can only fail because of the keyword. -/
theorem compose_of_plain {parts : Parts}
    (hname : ∀ keyword ∈ parts.keyword, Keyword.isName keyword.name = true)
    (hplain : ∀ hidden, parts ≠ marked hidden) :
    compose parts = .ok (plain parts parts.render) := by
  have hall : (parts.keyword.all fun keyword => Keyword.isName keyword.name) = true := by
    cases hkeyword : parts.keyword with
    | none => rfl
    | some keyword => exact hname keyword hkeyword
  have hnone : hiddenIn? parts = none := by
    rw [Option.eq_none_iff_forall_ne_some]
    intro hidden hsome
    exact hplain hidden (hiddenIn?_eq_some_iff.1 hsome)
  simp [compose, hall, hnone]

theorem compose_marked (hidden : Text) :
    compose (marked hidden)
      = if isFormer hidden then .ok (obsolete hidden (marked hidden).render (former hidden))
        else (parse hidden).map (obsolete hidden (marked hidden).render) := by
  have hsome : hiddenIn? (marked hidden) = some hidden := hiddenIn?_eq_some_iff.2 rfl
  have hnone : (marked hidden).keyword = none := rfl
  simp only [compose, hnone, hsome, Option.all_none, if_true]

/-- Composing parts that spell themselves is reading what is written for them. -/
theorem compose_eq_parse {parts : Parts} (h : Spells parts.render parts) :
    compose parts = parse parts.render := by
  by_cases hmarked : ∃ hidden, parts = marked hidden
  · obtain ⟨hidden, rfl⟩ := hmarked
    rw [compose_marked]
    by_cases hbar : StartsWithBar hidden
    · rw [parse_of_startsWithBar h hbar, if_pos (startsWithBar_iff.1 hbar)]
    · rw [parse_of_not_startsWithBar h hbar, if_neg fun hf => hbar (startsWithBar_iff.2 hf)]
  · have hplain : ∀ hidden, parts ≠ marked hidden := fun hidden heq => hmarked ⟨hidden, heq⟩
    rw [compose_of_plain h.isName hplain, parse_of_spells h hplain]

/-- Composing fails exactly if the keyword cannot be read back, or the marker is there and what
stands behind it is neither a line nor behind a bar. -/
theorem compose_eq_error_iff {parts : Parts} :
    (∃ error, compose parts = .error error) ↔
      (∃ keyword ∈ parts.keyword, Keyword.isName keyword.name = false) ∨
        ∃ hidden, parts = marked hidden ∧ ¬StartsWithBar hidden ∧
          ∃ error, parse hidden = .error error := by
  by_cases hname : ∃ keyword ∈ parts.keyword, Keyword.isName keyword.name = false
  · obtain ⟨keyword, hkeyword, hinvalid⟩ := hname
    exact iff_of_true ⟨_, compose_of_invalid hkeyword hinvalid⟩ (.inl ⟨keyword, hkeyword, hinvalid⟩)
  rw [or_iff_right hname]
  have hvalid : ∀ keyword ∈ parts.keyword, Keyword.isName keyword.name = true := by
    intro keyword hkeyword
    by_contra hinvalid
    exact hname ⟨keyword, hkeyword, Bool.not_eq_true _ ▸ hinvalid⟩
  by_cases hmarked : ∃ hidden, parts = marked hidden
  · obtain ⟨hidden, rfl⟩ := hmarked
    have hhidden : (∃ other, marked hidden = marked other ∧ ¬StartsWithBar other ∧
        ∃ error, parse other = .error error) ↔
          ¬StartsWithBar hidden ∧ ∃ error, parse hidden = .error error := by
      simp [marked]
    rw [hhidden, compose_marked]
    by_cases hbar : StartsWithBar hidden
    · simp [hbar, startsWithBar_iff.1 hbar]
    · have hformer : isFormer hidden = false :=
        Bool.eq_false_iff.2 fun hf => hbar (startsWithBar_iff.2 hf)
      simp [hbar, hformer, Outcome.map_eq_error_iff]
  · have hplain : ∀ hidden, parts ≠ marked hidden := fun hidden heq => hmarked ⟨hidden, heq⟩
    rw [compose_of_plain hvalid hplain]
    constructor
    · intro h
      obtain ⟨error, herror⟩ := h
      cases herror
    · intro h
      obtain ⟨hidden, hparts, -⟩ := h
      exact absurd hparts (hplain hidden)

/-- A composed line has the parts that it was composed of, and their written form is its text. -/
theorem parts_and_raw_of_compose {parts : Parts} {line : Line} (h : compose parts = .ok line) :
    line.parts = parts ∧ line.raw = parts.render := by
  unfold compose at h
  split at h
  next hname =>
    split at h
    next =>
      obtain rfl := Except.ok.inj h
      exact ⟨rfl, rfl⟩
    next hidden hsome =>
      obtain rfl := hiddenIn?_eq_some_iff.1 hsome
      split at h
      · obtain rfl := Except.ok.inj h
        exact ⟨rfl, rfl⟩
      · obtain ⟨logical, -, rfl⟩ := Outcome.map_eq_ok_iff.1 h
        exact ⟨rfl, rfl⟩
  next => cases h

/-- A keyword and a string that can stand between quotes, written one behind the other, read back as
these two. -/
theorem parse_render_of_quotable {keyword : Keyword} {payload : Payload}
    (hkeyword : Writable keyword) (hraw : Quotable payload.raw)
    (hvalue : unescape payload.raw = .ok payload.value) :
    parse (Parts.render { keyword := keyword, value := payload })
      = .ok (plain { keyword := keyword, value := payload }
          (Parts.render { keyword := keyword, value := payload })) := by
  have hspells : Spells (Parts.render { keyword := keyword, value := payload })
      { keyword := keyword, value := payload } := by
    refine spells_render ?_ ?_
    · intro word hword
      obtain rfl := Option.some.inj hword
      exact hkeyword
    · intro string hstring
      obtain rfl := Option.some.inj hstring
      exact ⟨hraw, hvalue⟩
  exact parse_of_spells hspells fun hidden hmarked => by cases hmarked

/-! ### Strings made of their values -/

/-- A keyword and a string made of its value, written one behind the other, read back as these
two. -/
theorem parse_render_field {keyword : Keyword} (h : Writable keyword) (value : Text) :
    parse (Parts.render { keyword := keyword, value := Payload.ofValue value })
      = .ok (plain { keyword := keyword, value := Payload.ofValue value }
          (Parts.render { keyword := keyword, value := Payload.ofValue value })) :=
  parse_render_of_quotable h (quotable_escape value) (unescape_escape value)

/-- The parts of a line, with a string that is made of its value. -/
def ofTexts (keyword : Option Keyword) (value comment : Option Text) : Parts :=
  { keyword, value := value.map Payload.ofValue, comment }

variable {keyword : Option Keyword} {value comment : Option Text}

theorem spells_render_ofTexts (hkeyword : ∀ word ∈ keyword, Writable word) :
    Spells (ofTexts keyword value comment).render (ofTexts keyword value comment) := by
  refine spells_render hkeyword ?_
  intro payload hpayload
  obtain ⟨text, -, rfl⟩ := Option.map_eq_some_iff.1 hpayload
  exact ⟨quotable_escape text, unescape_escape text⟩

theorem isName_eq_false_iff {name : Text} :
    Keyword.isName name = false ↔ name = [] ∨
      ∃ c ∈ name, Text.isBlank c = true ∨ c = '[' ∨ c = '"' ∨ c = '#' := by
  have hchar (c : Char) : ¬Keyword.isNameChar c = true ↔
      Text.isBlank c = true ∨ c = '[' ∨ c = '"' ∨ c = '#' := by
    unfold Keyword.isNameChar
    by_cases hblank : Text.isBlank c = true
    · simp [hblank]
    · simp [hblank]
      tauto
  rw [← Bool.not_eq_true, isName_iff, not_and_or, not_not]
  simp only [not_forall, exists_prop, hchar]

/-- **Reading inverts composing.** Take any keyword whose index fits a machine word, any value and
any comment, each of which may be missing. If they can be composed, the line has these parts and its
text reads back as the line. They cannot exactly if the keyword's name is empty or holds a character
that ends a name, or if there is only a comment, it starts with the obsolete marker, and what stands
behind the marker neither starts with a bar nor reads as a line. -/
theorem compose_reads_back (hindex : ∀ word ∈ keyword, ∀ index ∈ word.index, index < wordLimit) :
    (∀ line, compose (ofTexts keyword value comment) = .ok line →
      line.parts = ofTexts keyword value comment ∧ parse line.raw = .ok line) ∧
    ((∃ error, compose (ofTexts keyword value comment) = .error error) ↔
      (∃ word ∈ keyword, word.name = [] ∨
        ∃ c ∈ word.name, Text.isBlank c = true ∨ c = '[' ∨ c = '"' ∨ c = '#') ∨
      (keyword = none ∧ value = none ∧ ∃ hidden, comment = some (obsoleteMarker :: hidden) ∧
        ¬StartsWithBar hidden ∧ ∃ error, parse hidden = .error error)) := by
  constructor
  · intro line h
    obtain ⟨hparts, hraw⟩ := parts_and_raw_of_compose h
    have hname : ∀ word ∈ keyword, Keyword.isName word.name = true := by
      intro word hword
      by_contra hinvalid
      rw [compose_of_invalid hword (Bool.not_eq_true _ ▸ hinvalid)] at h
      cases h
    have hspells : Spells (ofTexts keyword value comment).render (ofTexts keyword value comment) :=
      spells_render_ofTexts fun word hword => ⟨hname word hword, hindex word hword⟩
    refine ⟨hparts, ?_⟩
    rw [hraw, ← compose_eq_parse hspells]
    exact h
  · have hmarked (hidden : Text) : ofTexts keyword value comment = marked hidden ↔
        keyword = none ∧ value = none ∧ comment = some (obsoleteMarker :: hidden) := by
      simp [ofTexts, marked]
    rw [compose_eq_error_iff]
    simp only [isName_eq_false_iff, hmarked]
    refine or_congr Iff.rfl ?_
    constructor
    · intro h
      obtain ⟨hidden, ⟨hkeyword, hvalue, hcomment⟩, hrest⟩ := h
      exact ⟨hkeyword, hvalue, hidden, hcomment, hrest⟩
    · intro h
      obtain ⟨hkeyword, hvalue, hidden, hcomment, hrest⟩ := h
      exact ⟨hidden, ⟨hkeyword, hvalue, hcomment⟩, hrest⟩

/-- A keyword of unusual characters with the highest index. -/
def crowdedKeyword : Keyword := { name := "~msg\\|]".toList, index := some (wordLimit - 1) }

/-- A line with all three parts, each of which holds characters that have a meaning elsewhere. -/
def crowdedParts : Parts :=
  ofTexts (some crowdedKeyword) (some "\"#\\\n\x00[1]".toList) (some "~ msgid \"".toList)

theorem compose_reads_back_crowdedParts :
    ∃ line, compose crowdedParts = .ok line ∧ line.parts = crowdedParts ∧
      parse line.raw = .ok line := by
  obtain ⟨line, hline⟩ := Outcome.exists_ok (x := compose crowdedParts) (by decide +kernel)
  have hindex : ∀ word ∈ some crowdedKeyword, ∀ index ∈ word.index, index < wordLimit := by
    decide +kernel
  exact ⟨line, hline, (compose_reads_back hindex).1 line hline⟩

/-! ### Strings made of their raw texts -/

/-- **When a raw text reads back.** Take a keyword that a line can hold and a raw text that stands
for a value. The keyword and the string with this raw text can be composed, and the line reads back
as these two exactly if the raw text can stand between quotes. -/
theorem compose_raw_reads_back_iff {keyword : Keyword} {raw : Text} {payload : Payload}
    (hkeyword : Writable keyword) (hraw : Payload.ofRaw raw = .ok payload) :
    ∃ line, compose { keyword := keyword, value := payload } = .ok line ∧
      (Quotable raw → parse line.raw = .ok line) ∧
      ((∃ again, parse line.raw = .ok again ∧ again.keyword = some keyword ∧
        again.value = some payload) ↔ Quotable raw) := by
  obtain ⟨value, hvalue, rfl⟩ := Outcome.map_eq_ok_iff.1 hraw
  have hname : ∀ word ∈ some keyword, Keyword.isName word.name = true := by
    intro word hword
    obtain rfl := Option.some.inj hword
    exact hkeyword.name
  have hplain : ∀ hidden, ({ keyword := keyword, value := some ⟨raw, value⟩ } : Parts)
      ≠ marked hidden := by
    intro hidden hmarked
    cases hmarked
  refine ⟨_, compose_of_plain hname hplain, ?_, ?_, ?_⟩
  · intro hquotable
    exact parse_render_of_quotable hkeyword hquotable hvalue
  · intro h
    obtain ⟨again, hagain, -, hpayload⟩ := h
    exact (spells_of_parse hagain).quotable _ hpayload
  · intro hquotable
    exact ⟨_, parse_render_of_quotable hkeyword hquotable hvalue, rfl, rfl⟩

/-- The keyword of an id. -/
def idKeyword : Keyword := { name := "msgid".toList }

theorem writable_idKeyword : Writable idKeyword where
  name := by decide
  index := by
    intro index hindex
    cases hindex

/-- A raw text in which a quote and a backslash stand behind backslashes. -/
theorem compose_raw_reads_back_iff_escaped :
    ∃ payload line, Payload.ofRaw "\\\\\\\"#\\x41".toList = .ok payload ∧
      Quotable "\\\\\\\"#\\x41".toList ∧
      compose { keyword := idKeyword, value := payload } = .ok line ∧
      parse line.raw = .ok line := by
  obtain ⟨payload, hraw⟩ :=
    Outcome.exists_ok (x := Payload.ofRaw "\\\\\\\"#\\x41".toList) (by decide +kernel)
  have hquotable : Quotable "\\\\\\\"#\\x41".toList := by decide +kernel
  obtain ⟨line, hline, hreads, -⟩ := compose_raw_reads_back_iff writable_idKeyword hraw
  exact ⟨payload, line, hraw, hquotable, hline, hreads hquotable⟩

/-- A quote alone is accepted as a raw text, and the line that is composed of it cannot be read. -/
theorem not_compose_raw_reads_back_quote :
    ∃ payload line, Payload.ofRaw ['"'] = .ok payload ∧ Writable idKeyword ∧
      compose { keyword := idKeyword, value := payload } = .ok line ∧
      ¬∃ again, parse line.raw = .ok again ∧ again.keyword = some idKeyword ∧
        again.value = some payload := by
  refine ⟨{ raw := ['"'], value := ['"'] }, _, rfl, writable_idKeyword, rfl, ?_⟩
  intro h
  obtain ⟨again, hagain, -⟩ := h
  have hfails : (parse "msgid \"\"\"".toList).isOk = false := by decide +kernel
  rw [show parse "msgid \"\"\"".toList = .ok again from hagain] at hfails
  cases hfails

end MessageCatalog.Line
