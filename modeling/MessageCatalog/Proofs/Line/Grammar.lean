import Mathlib.Data.List.DropRight
import MessageCatalog.Proofs.Line.Reading

/-!
# The grammar of lines

What the text of a line looks like, said without reference to how it is read:

    blanks [name [blanks "[" digits "]"]] blanks ["\"" raw "\""] blanks ["#" comment]

`Spells text parts` says that a text has this form and which parts it then holds. The parts are
determined by the text (`Spells.unique`), although blanks may be missing everywhere, because each
part starts with a character that can neither be a blank nor continue the part before it.

A comment that is the only part and starts with the obsolete marker hides a text of its own.
`InGrammar` asks of this text that it starts with a bar or is a line again, to any depth.

Each reader of `Line.Parser` is compared with its rule of the grammar in both directions, and from
this it follows that reading the parts of a text is finding what it spells (`readParts_eq_ok_iff`).
The main result is `parse_iff_inGrammar`: reading succeeds exactly on the texts of the grammar, and
gives the line that the parts describe.
-/

namespace MessageCatalog.Line

open Text

/-! ### The rules -/

/-- A text of blanks. -/
def Blanks (text : Text) : Prop := ∀ c ∈ text, Text.isBlank c = true

/-- The index of a keyword, as it stands behind the name. -/
inductive SpellsIndex : Text → Option Nat → Prop where
  /-- There is no index. -/
  | absent : SpellsIndex [] none
  /-- Blanks, and in brackets the digits of a number that fits a machine word. -/
  | present {blanks digits : Text} : Blanks blanks → digits ≠ [] → allDigits digits = true →
      decimalValue digits < wordLimit →
      SpellsIndex (blanks ++ '[' :: (digits ++ [']'])) (some (decimalValue digits))

/-- The keyword of a line. -/
inductive SpellsKeyword : Text → Option Keyword → Prop where
  /-- There is no keyword. -/
  | absent : SpellsKeyword [] none
  /-- A name and what its index is written as. -/
  | present {name behind : Text} {index : Option Nat} : Keyword.isName name = true →
      SpellsIndex behind index → SpellsKeyword (name ++ behind) (some { name, index })

/-- A text that can stand between quotes: no quote in it ends the string, as each one stands behind
a backslash of its own, and no backslash is left to stand before the closing quote. -/
inductive Quotable : Text → Prop where
  /-- Nothing. -/
  | nil : Quotable []
  /-- A character that is neither a quote nor a backslash. -/
  | plain {c : Char} {raw : Text} : c ≠ '"' → c ≠ '\\' → Quotable raw → Quotable (c :: raw)
  /-- A backslash with the character that it escapes. -/
  | pair (c : Char) {raw : Text} : Quotable raw → Quotable ('\\' :: c :: raw)

/-- The quoted string of a line. -/
inductive SpellsValue : Text → Option Payload → Prop where
  /-- There is no string. -/
  | absent : SpellsValue [] none
  /-- Between quotes a raw text that stands for a value. -/
  | present {raw value : Text} : Quotable raw → unescape raw = .ok value →
      SpellsValue ('"' :: (raw ++ ['"'])) (some { raw, value })

/-- The comment of a line. -/
inductive SpellsComment : Text → Option Text → Prop where
  /-- There is no comment. -/
  | absent : SpellsComment [] none
  /-- Any text behind a number sign. -/
  | present (comment : Text) : SpellsComment ('#' :: comment) (some comment)

/-- The text holds the parts, in their order and with any blanks before each of them. -/
inductive Spells (text : Text) : Parts → Prop where
  /-- The text falls into the three parts and the blanks before them. -/
  | intro {lead front gap middle space back : Text} {keyword : Option Keyword}
      {value : Option Payload} {comment : Option Text} :
      Blanks lead → SpellsKeyword front keyword → Blanks gap → SpellsValue middle value →
      Blanks space → SpellsComment back comment →
      text = lead ++ (front ++ (gap ++ (middle ++ (space ++ back)))) →
      Spells text { keyword, value, comment }

/-- The text starts with a bar, behind any blanks. -/
def StartsWithBar (text : Text) : Prop :=
  ∃ blanks tail, Blanks blanks ∧ text = blanks ++ '|' :: tail

/-- The parts of a line whose only part is a comment with the obsolete marker in front. -/
def marked (hidden : Text) : Parts := { comment := some (obsoleteMarker :: hidden) }

/-- The texts of lines. -/
inductive InGrammar : Text → Prop where
  /-- A text that spells parts, without the obsolete marker. -/
  | plain {text : Text} {parts : Parts} : Spells text parts → (∀ hidden, parts ≠ marked hidden) →
      InGrammar text
  /-- The marker, and behind it a bar. -/
  | former {text hidden : Text} : Spells text (marked hidden) → StartsWithBar hidden →
      InGrammar text
  /-- The marker, and behind it a line. -/
  | obsolete {text hidden : Text} : Spells text (marked hidden) → InGrammar hidden →
      InGrammar text

/-! ### Blanks -/

theorem Blanks.nil : Blanks [] := fun _ h => absurd h List.not_mem_nil

theorem trimStart_append {blanks : Text} (h : Blanks blanks) (text : Text) :
    trimStart (blanks ++ text) = trimStart text :=
  List.dropWhile_append_of_pos h

theorem trimStart_trimStart (text : Text) : trimStart (trimStart text) = trimStart text :=
  List.dropWhile_idempotent Text.isBlank text

theorem exists_blanks_trimStart (text : Text) :
    ∃ blanks, Blanks blanks ∧ text = blanks ++ trimStart text := by
  refine ⟨text.takeWhile Text.isBlank, ?_, List.takeWhile_append_dropWhile.symm⟩
  intro c hc
  exact List.mem_takeWhile_imp hc

theorem startsWithBar_iff {text : Text} : StartsWithBar text ↔ isFormer text = true := by
  unfold isFormer startsWith
  rw [Option.isSome_iff_exists]
  constructor
  · intro h
    obtain ⟨blanks, tail, hblanks, rfl⟩ := h
    refine ⟨tail, after?_eq_some.2 ?_⟩
    rw [trimStart_append hblanks, trimStart_cons_of_not_blank (by decide)]
  · intro h
    obtain ⟨tail, htail⟩ := h
    obtain ⟨blanks, hblanks, htext⟩ := exists_blanks_trimStart text
    rw [after?_eq_some.1 htail] at htext
    exact ⟨blanks, tail, hblanks, htext⟩

/-! ### The index -/

theorem all_isDigit {digits : Text} (h : allDigits digits = true) :
    ∀ c ∈ digits, Char.isDigit c = true :=
  List.all_eq_true.1 h

theorem readIndex_eq_ok_iff {text rest : Text} {index : Nat} :
    readIndex text = .ok (index, rest) ↔
      ∃ digits, digits ≠ [] ∧ allDigits digits = true ∧ decimalValue digits < wordLimit ∧
        index = decimalValue digits ∧ text = digits ++ ']' :: rest := by
  constructor
  · intro h
    have htext := List.takeWhile_append_dropWhile (p := Char.isDigit) (l := text)
    have hdigits : allDigits (text.takeWhile Char.isDigit) = true :=
      List.all_eq_true.2 fun c hc => List.mem_takeWhile_imp hc
    unfold readIndex at h
    split at h
    next digit digits tail hfront hback =>
      rw [hfront] at hdigits htext
      rw [hback] at htext
      dsimp only at h
      split at h
      next hlt =>
        obtain ⟨rfl, rfl⟩ := Prod.mk.inj (Except.ok.inj h)
        exact ⟨digit :: digits, by simp, hdigits, hlt, rfl, htext.symm⟩
      next => cases h
    next => cases h
  · intro h
    obtain ⟨digits, hne, hdigits, hlt, rfl, rfl⟩ := h
    have hclose : NoHead Char.isDigit (']' :: rest) := NoHead.cons (by decide) rest
    unfold readIndex
    rw [takeWhile_append_of_noHead (all_isDigit hdigits) hclose,
      dropWhile_append_of_noHead (all_isDigit hdigits) hclose]
    cases digits with
    | nil => exact absurd rfl hne
    | cons digit digits => simp [hlt]

/-! ### The keyword -/

theorem isName_iff {name : Text} :
    Keyword.isName name = true ↔ name ≠ [] ∧ ∀ c ∈ name, Keyword.isNameChar c = true := by
  simp [Keyword.isName]

/-- What is read as a keyword spells it, up to blanks behind it. -/
theorem spellsKeyword_of_readKeyword {text rest : Text} {keyword : Option Keyword}
    (h : readKeyword text = .ok (keyword, rest)) :
    ∃ front blanks, SpellsKeyword front keyword ∧ Blanks blanks ∧
      text = front ++ (blanks ++ rest) := by
  have htext := List.takeWhile_append_dropWhile (p := Keyword.isNameChar) (l := text)
  unfold readKeyword at h
  split at h
  next =>
    obtain ⟨rfl, rfl⟩ := Prod.mk.inj (Except.ok.inj h)
    exact ⟨[], [], SpellsKeyword.absent, Blanks.nil, rfl⟩
  next hne =>
    have hname : Keyword.isName (text.takeWhile Keyword.isNameChar) = true :=
      isName_iff.2 ⟨hne, fun c hc => List.mem_takeWhile_imp hc⟩
    obtain ⟨blanks, hblanks, hbehind⟩ :=
      exists_blanks_trimStart (text.dropWhile Keyword.isNameChar)
    rw [hbehind] at htext
    split at h
    next tail hbracket =>
      rw [hbracket] at htext
      obtain ⟨⟨index, back⟩, hindex, heq⟩ := Outcome.map_eq_ok_iff.1 h
      obtain ⟨rfl, rfl⟩ := Prod.mk.inj heq
      obtain ⟨digits, hdigits, hall, hlt, rfl, rfl⟩ := readIndex_eq_ok_iff.1 hindex
      refine ⟨_, [], SpellsKeyword.present hname (SpellsIndex.present hblanks hdigits hall hlt),
        Blanks.nil, ?_⟩
      simp [htext]
    next =>
      obtain ⟨rfl, rfl⟩ := Prod.mk.inj (Except.ok.inj h)
      refine ⟨_, blanks, SpellsKeyword.present hname SpellsIndex.absent, hblanks, ?_⟩
      rw [List.append_nil]
      exact htext.symm

/-- Behind its blanks the text holds at most a string or a comment, so it cannot be taken for a part
of a keyword in front of it. -/
def SetOff (text : Text) : Prop := ∀ c tail, trimStart text = c :: tail → c = '"' ∨ c = '#'

theorem SetOff.bracket {text : Text} (h : SetOff text) (tail : Text) :
    trimStart text ≠ '[' :: tail := by
  intro heq
  rcases h '[' tail heq with hc | hc
  · exact absurd hc (by decide)
  · exact absurd hc (by decide)

theorem SetOff.name {text : Text} (h : SetOff text) : NoHead Keyword.isNameChar text := by
  intro c tail htext
  by_cases hblank : Text.isBlank c = true
  · simp [Keyword.isNameChar, hblank]
  · rw [Bool.not_eq_true] at hblank
    rcases h c tail (by rw [htext, trimStart_cons_of_not_blank hblank]) with rfl | rfl
    · rfl
    · rfl

theorem SetOff.append {blanks text : Text} (hblanks : Blanks blanks) (h : SetOff text) :
    SetOff (blanks ++ text) := by
  unfold SetOff
  rw [trimStart_append hblanks]
  exact h

theorem SetOff.trimStart {text : Text} (h : SetOff text) : SetOff (Text.trimStart text) := by
  unfold SetOff
  rw [trimStart_trimStart]
  exact h

/-- Blanks end a name. -/
theorem noHead_append {blanks text : Text} (hblanks : Blanks blanks)
    (h : NoHead Keyword.isNameChar text) : NoHead Keyword.isNameChar (blanks ++ text) := by
  cases blanks with
  | nil => exact h
  | cons c blanks =>
    have hc : Text.isBlank c = true := hblanks c List.mem_cons_self
    exact NoHead.cons (by simp [Keyword.isNameChar, hc]) (blanks ++ text)

/-- What spells a keyword is read as it, up to blanks behind it, if it is set off from what
follows. -/
theorem readKeyword_of_spellsKeyword {front rest : Text} {keyword : Option Keyword}
    (h : SpellsKeyword front keyword) (hrest : SetOff rest) :
    ∃ behind, readKeyword (front ++ rest) = .ok (keyword, behind) ∧
      trimStart behind = trimStart rest := by
  cases h with
  | absent =>
    refine ⟨rest, ?_, rfl⟩
    unfold readKeyword
    rw [takeWhile_append_of_noHead (by simp) hrest.name]
    rfl
  | @present name behind index hname hindex =>
    obtain ⟨hne, hall⟩ := isName_iff.1 hname
    obtain ⟨c, tail, rfl⟩ := List.exists_cons_of_ne_nil hne
    cases hindex with
    | absent =>
      refine ⟨trimStart rest, ?_, trimStart_trimStart rest⟩
      unfold readKeyword
      rw [List.append_nil, takeWhile_append_of_noHead hall hrest.name,
        dropWhile_append_of_noHead hall hrest.name]
      dsimp only
      split
      next bracket htrim => exact absurd htrim (hrest.bracket bracket)
      next => rfl
    | @present blanks digits hblanks hdigits hall' hlt =>
      refine ⟨rest, ?_, rfl⟩
      have htext : (c :: tail ++ (blanks ++ '[' :: (digits ++ [']']))) ++ rest
          = c :: tail ++ (blanks ++ '[' :: (digits ++ ']' :: rest)) := by simp
      have hopen : NoHead Keyword.isNameChar (blanks ++ '[' :: (digits ++ ']' :: rest)) :=
        noHead_append hblanks (NoHead.cons (by decide) _)
      have hread : readIndex (digits ++ ']' :: rest) = .ok (decimalValue digits, rest) :=
        readIndex_eq_ok_iff.2 ⟨digits, hdigits, hall', hlt, rfl, rfl⟩
      unfold readKeyword
      rw [htext, takeWhile_append_of_noHead hall hopen, dropWhile_append_of_noHead hall hopen,
        trimStart_append hblanks, trimStart_cons_of_not_blank (by decide)]
      simp only [hread, Except.map]

/-! ### The quoted string -/

theorem closeQuote?_plain {c : Char} (hquote : c ≠ '"') (hslash : c ≠ '\\') (rest : Text) :
    closeQuote? (c :: rest) = (closeQuote? rest).map fun (raw, rest) => (c :: raw, rest) :=
  closeQuote?.eq_4 _ _ hquote fun _ _ hc _ => hslash hc

/-- The scan for the closing quote finds the end of what can stand between quotes. -/
theorem closeQuote?_eq_some_iff {text raw rest : Text} :
    closeQuote? text = some (raw, rest) ↔ Quotable raw ∧ text = raw ++ '"' :: rest := by
  constructor
  · intro h
    induction text using closeQuote?.induct generalizing raw with
    | case1 => cases h
    | case2 tail =>
      obtain ⟨rfl, rfl⟩ := Prod.mk.inj (Option.some.inj h)
      exact ⟨Quotable.nil, rfl⟩
    | case3 c tail ih =>
      rw [closeQuote?] at h
      obtain ⟨⟨inner, back⟩, hclose, heq⟩ := Option.map_eq_some_iff.1 h
      obtain ⟨rfl, rfl⟩ := Prod.mk.inj heq
      obtain ⟨hinner, rfl⟩ := ih hclose
      exact ⟨Quotable.pair c hinner, rfl⟩
    | case4 c tail hquote hpair ih =>
      rw [closeQuote?.eq_4 c tail hquote hpair] at h
      obtain ⟨⟨inner, back⟩, hclose, heq⟩ := Option.map_eq_some_iff.1 h
      obtain ⟨rfl, rfl⟩ := Prod.mk.inj heq
      obtain ⟨hinner, rfl⟩ := ih hclose
      -- a backslash would have taken the next character, which is there, with it
      have hslash : c ≠ '\\' := by
        intro hc
        cases inner with
        | nil => exact hpair _ _ hc rfl
        | cons d inner => exact hpair _ _ hc rfl
      exact ⟨Quotable.plain hquote hslash hinner, rfl⟩
  · intro h
    obtain ⟨hraw, rfl⟩ := h
    induction hraw with
    | nil => rfl
    | plain hquote hslash _ ih => rw [List.cons_append, closeQuote?_plain hquote hslash, ih]; rfl
    | pair c _ ih => rw [List.cons_append, List.cons_append, closeQuote?, ih]; rfl

instance : DecidablePred Quotable := fun raw =>
  decidable_of_iff (closeQuote? (raw ++ ['"']) = some (raw, []))
    (closeQuote?_eq_some_iff.trans (and_iff_left rfl))

/-- What is read as a string spells it. -/
theorem spellsValue_of_readValue {text rest : Text} {value : Option Payload}
    (h : readValue text = .ok (value, rest)) :
    ∃ middle, SpellsValue middle value ∧ text = middle ++ rest := by
  unfold readValue at h
  split at h
  next tail =>
    split at h
    next => cases h
    next raw back hclose =>
      obtain ⟨hraw, rfl⟩ := closeQuote?_eq_some_iff.1 hclose
      split at h
      next => cases h
      next payload hpayload =>
        obtain ⟨rfl, rfl⟩ := Prod.mk.inj (Except.ok.inj h)
        obtain ⟨text, htext, rfl⟩ := Outcome.map_eq_ok_iff.1 hpayload
        exact ⟨_, SpellsValue.present hraw htext, by simp⟩
  next =>
    obtain ⟨rfl, rfl⟩ := Prod.mk.inj (Except.ok.inj h)
    exact ⟨[], SpellsValue.absent, rfl⟩

/-- What spells a string is read as it; where there is none, none may follow. -/
theorem readValue_of_spellsValue {middle rest : Text} {value : Option Payload}
    (h : SpellsValue middle value) (hrest : ∀ tail, rest ≠ '"' :: tail) :
    readValue (middle ++ rest) = .ok (value, rest) := by
  cases h with
  | absent =>
    rw [List.nil_append]
    unfold readValue
    split
    next tail => exact absurd rfl (hrest tail)
    next => rfl
  | @present raw value hraw hvalue =>
    have hclose : closeQuote? (raw ++ '"' :: rest) = some (raw, rest) :=
      closeQuote?_eq_some_iff.2 ⟨hraw, rfl⟩
    have htext : '"' :: (raw ++ ['"']) ++ rest = '"' :: (raw ++ '"' :: rest) := by simp
    rw [htext, readValue, hclose]
    simp only [Payload.ofRaw, hvalue, Except.map]

/-! ### The parts together -/

theorem readComment_eq_ok_iff {text : Text} {comment : Option Text} :
    readComment text = .ok comment ↔ SpellsComment text comment := by
  constructor
  · intro h
    unfold readComment at h
    split at h
    next =>
      obtain rfl := Except.ok.inj h
      exact SpellsComment.absent
    next rest =>
      obtain rfl := Except.ok.inj h
      exact SpellsComment.present rest
    next => cases h
  · intro h
    cases h with
    | absent => rfl
    | present rest => rfl

theorem SpellsComment.trimStart_eq {back : Text} {comment : Option Text}
    (h : SpellsComment back comment) : trimStart back = back := by
  cases h with
  | absent => rfl
  | present rest => exact trimStart_cons_of_not_blank (by decide) rest

theorem SpellsComment.setOff {back : Text} {comment : Option Text}
    (h : SpellsComment back comment) : SetOff back := by
  intro c tail heq
  rw [h.trimStart_eq] at heq
  cases h with
  | absent => cases heq
  | present rest => exact .inr (List.cons.inj heq).1.symm

theorem SpellsComment.ne_quote {back : Text} {comment : Option Text}
    (h : SpellsComment back comment) (tail : Text) : back ≠ '"' :: tail := by
  cases h with
  | absent => simp
  | present rest => simp

theorem SpellsValue.setOff_append {middle rest : Text} {value : Option Payload}
    (h : SpellsValue middle value) (hrest : SetOff rest) : SetOff (middle ++ rest) := by
  cases h with
  | absent => exact hrest
  | present hraw hvalue =>
    intro c tail heq
    rw [List.cons_append, trimStart_cons_of_not_blank (by decide)] at heq
    exact .inl (List.cons.inj heq).1.symm

/-- A keyword in front of what is set off from it is read, also if there are blanks before it. -/
theorem readKeyword_trimStart {front rest : Text} {keyword : Option Keyword}
    (h : SpellsKeyword front keyword) (hrest : SetOff rest) :
    ∃ behind, readKeyword (trimStart (front ++ rest)) = .ok (keyword, behind) ∧
      trimStart behind = trimStart rest := by
  cases h with
  | absent =>
    obtain ⟨behind, hread, hbehind⟩ :=
      readKeyword_of_spellsKeyword SpellsKeyword.absent hrest.trimStart
    exact ⟨behind, hread, hbehind.trans (trimStart_trimStart rest)⟩
  | @present name behind index hname hindex =>
    have hread := readKeyword_of_spellsKeyword (SpellsKeyword.present hname hindex) hrest
    obtain ⟨hne, hall⟩ := isName_iff.1 hname
    obtain ⟨c, tail, rfl⟩ := List.exists_cons_of_ne_nil hne
    have hc : Text.isBlank c = false := not_isBlank_of_isNameChar (hall c List.mem_cons_self)
    rw [List.cons_append, List.cons_append, trimStart_cons_of_not_blank hc]
    exact hread

/-- What can stand behind the keyword is read as a string and a comment. -/
theorem readValue_trimStart {middle space back : Text} {value : Option Payload}
    {comment : Option Text} (hvalue : SpellsValue middle value) (hspace : Blanks space)
    (hcomment : SpellsComment back comment) :
    ∃ behind, readValue (trimStart (middle ++ (space ++ back))) = .ok (value, behind) ∧
      trimStart behind = back := by
  cases hvalue with
  | absent =>
    refine ⟨back, ?_, hcomment.trimStart_eq⟩
    rw [List.nil_append, trimStart_append hspace, hcomment.trimStart_eq]
    exact readValue_of_spellsValue SpellsValue.absent hcomment.ne_quote
  | @present raw value hraw hunescape =>
    refine ⟨space ++ back, ?_, ?_⟩
    · have hrest : ∀ tail, space ++ back ≠ '"' :: tail := by
        intro tail heq
        have htrim := trimStart_append hspace back
        rw [heq, trimStart_cons_of_not_blank (by decide), hcomment.trimStart_eq] at htrim
        exact hcomment.ne_quote tail htrim.symm
      rw [List.cons_append, trimStart_cons_of_not_blank (by decide), ← List.cons_append]
      exact readValue_of_spellsValue (SpellsValue.present hraw hunescape) hrest
    · rw [trimStart_append hspace, hcomment.trimStart_eq]

/-- **Reading the parts of a text is finding what it spells.** -/
theorem readParts_eq_ok_iff {text : Text} {parts : Parts} :
    readParts text = .ok parts ↔ Spells text parts := by
  constructor
  · intro h
    obtain ⟨⟨keyword, rest₁⟩, hkeyword, h⟩ := Outcome.bind_eq_ok_iff.1 h
    obtain ⟨⟨value, rest₂⟩, hvalue, h⟩ := Outcome.bind_eq_ok_iff.1 h
    obtain ⟨comment, hcomment, h⟩ := Outcome.bind_eq_ok_iff.1 h
    obtain rfl := Except.ok.inj h
    obtain ⟨lead, hlead, htext⟩ := exists_blanks_trimStart text
    obtain ⟨front, blanks, hfront, hblanks, htext₁⟩ := spellsKeyword_of_readKeyword hkeyword
    obtain ⟨gap, hgap, hrest₁⟩ := exists_blanks_trimStart rest₁
    obtain ⟨middle, hmiddle, htext₂⟩ := spellsValue_of_readValue hvalue
    obtain ⟨space, hspace, hrest₂⟩ := exists_blanks_trimStart rest₂
    have hboth : Blanks (blanks ++ gap) := by
      intro c hc
      rcases List.mem_append.1 hc with hc | hc
      · exact hblanks c hc
      · exact hgap c hc
    refine Spells.intro hlead hfront hboth hmiddle hspace (readComment_eq_ok_iff.1 hcomment) ?_
    rw [← hrest₂, ← htext₂, List.append_assoc, ← hrest₁, ← htext₁, ← htext]
  · intro h
    obtain ⟨hlead, hfront, hgap, hmiddle, hspace, hback, rfl⟩ := h
    have hrest := (hmiddle.setOff_append (hback.setOff.append hspace)).append hgap
    obtain ⟨behind₁, hkeyword, hbehind₁⟩ := readKeyword_trimStart hfront hrest
    obtain ⟨behind₂, hvalue, hbehind₂⟩ := readValue_trimStart hmiddle hspace hback
    rw [readParts, trimStart_append hlead, hkeyword]
    simp only [bind, Except.bind]
    rw [hbehind₁, trimStart_append hgap, hvalue]
    dsimp only
    rw [hbehind₂, readComment_eq_ok_iff.2 hback]
    rfl

/-- A text spells its parts in one way. -/
theorem Spells.unique {text : Text} {a b : Parts} (ha : Spells text a) (hb : Spells text b) :
    a = b :=
  Except.ok.inj ((readParts_eq_ok_iff.2 ha).symm.trans (readParts_eq_ok_iff.2 hb))

/-- The keyword that a text spells has a name that can be read. -/
theorem Spells.isName {text : Text} {parts : Parts} (h : Spells text parts) :
    ∀ keyword ∈ parts.keyword, Keyword.isName keyword.name = true := by
  intro keyword hkeyword
  obtain ⟨-, hfront, -, -, -, -, -⟩ := h
  obtain rfl : _ = some keyword := hkeyword
  cases hfront with
  | present hname _ => exact hname

/-- The string that a text spells can stand between quotes. -/
theorem Spells.quotable {text : Text} {parts : Parts} (h : Spells text parts) :
    ∀ payload ∈ parts.value, Quotable payload.raw := by
  intro payload hvalue
  obtain ⟨-, -, -, hmiddle, -, -, -⟩ := h
  obtain rfl : _ = some payload := hvalue
  cases hmiddle with
  | present hraw _ => exact hraw

/-! ### The obsolete marker -/

/-- A text hides another one exactly if it spells a comment with the marker in front and nothing
else. -/
theorem hidden?_eq_some_iff {text hidden : Text} :
    hidden? text = some hidden ↔ Spells text (marked hidden) := by
  unfold hidden?
  constructor
  · intro h
    obtain ⟨comment, hcomment, hhidden⟩ := Option.bind_eq_some_iff.1 h
    obtain ⟨lead, hlead, htext⟩ := exists_blanks_trimStart text
    rw [after?_eq_some.1 hcomment, after?_eq_some.1 hhidden] at htext
    exact Spells.intro hlead SpellsKeyword.absent Blanks.nil SpellsValue.absent Blanks.nil
      (SpellsComment.present (obsoleteMarker :: hidden)) htext
  · intro h
    obtain ⟨hlead, hfront, hgap, hmiddle, hspace, hback, rfl⟩ := h
    cases hfront
    cases hmiddle
    cases hback
    refine Option.bind_eq_some_iff.2
      ⟨obsoleteMarker :: hidden, after?_eq_some.2 ?_, after?_eq_some.2 rfl⟩
    rw [trimStart_append hlead, List.nil_append, trimStart_append hgap, List.nil_append,
      trimStart_append hspace, trimStart_cons_of_not_blank (by decide)]

/-- Without the marker, a text reads as the parts that it spells. -/
theorem parse_of_spells {text : Text} {parts : Parts} (h : Spells text parts)
    (hplain : ∀ hidden, parts ≠ marked hidden) : parse text = .ok (plain parts text) := by
  refine parse_of_readParts ?_ (readParts_eq_ok_iff.2 h)
  rw [Option.eq_none_iff_forall_ne_some]
  intro hidden hsome
  exact hplain hidden (h.unique (hidden?_eq_some_iff.1 hsome))

/-- Behind the marker a bar makes the rest a comment. -/
theorem parse_of_startsWithBar {text hidden : Text} (h : Spells text (marked hidden))
    (hbar : StartsWithBar hidden) : parse text = .ok (obsolete hidden text (former hidden)) := by
  rw [parse]
  split
  next found hfound =>
    obtain rfl := Option.some.inj ((hidden?_eq_some_iff.2 h).symm.trans hfound)
    rw [if_pos (startsWithBar_iff.1 hbar)]
  next hnone => cases (hidden?_eq_some_iff.2 h).symm.trans hnone

/-- Without a bar, what stands behind the marker is read as a line. -/
theorem parse_of_not_startsWithBar {text hidden : Text} (h : Spells text (marked hidden))
    (hbar : ¬StartsWithBar hidden) : parse text = (parse hidden).map (obsolete hidden text) := by
  rw [parse]
  split
  next found hfound =>
    obtain rfl := Option.some.inj ((hidden?_eq_some_iff.2 h).symm.trans hfound)
    rw [if_neg fun hformer => hbar (startsWithBar_iff.2 hformer)]
  next hnone => cases (hidden?_eq_some_iff.2 h).symm.trans hnone

/-- What is read as a line spells parts: those of the line. -/
theorem spells_of_parse {text : Text} {line : Line} (h : parse text = .ok line) :
    Spells text line.parts := by
  rw [parse] at h
  split at h
  next hidden hhidden =>
    split at h
    · obtain rfl := Except.ok.inj h
      exact hidden?_eq_some_iff.1 hhidden
    · obtain ⟨logical, -, rfl⟩ := Outcome.map_eq_ok_iff.1 h
      exact hidden?_eq_some_iff.1 hhidden
  next =>
    split at h
    · cases h
    next parts hparts =>
      obtain rfl := Except.ok.inj h
      exact readParts_eq_ok_iff.1 hparts

/-- A line is obsolete exactly if its parts are a comment with the marker in front. -/
theorem isObsolete_iff_of_parse {text : Text} {line : Line} (h : parse text = .ok line) :
    line.isObsolete = true ↔ ∃ hidden, line.parts = marked hidden := by
  constructor
  · intro hobsolete
    cases line with
    | plain parts raw => cases hobsolete
    | obsolete hidden raw logical => exact ⟨hidden, rfl⟩
  · intro hmarked
    obtain ⟨hidden, hparts⟩ := hmarked
    have hspells := spells_of_parse h
    rw [hparts] at hspells
    by_cases hbar : StartsWithBar hidden
    · rw [parse_of_startsWithBar hspells hbar] at h
      rw [← Except.ok.inj h]
      rfl
    · rw [parse_of_not_startsWithBar hspells hbar] at h
      obtain ⟨logical, -, rfl⟩ := Outcome.map_eq_ok_iff.1 h
      rfl

/-! ### Whole lines -/

/-- A text of the grammar reads as a line. -/
theorem InGrammar.exists_parse {text : Text} (h : InGrammar text) :
    ∃ line, parse text = .ok line := by
  induction h with
  | plain hspells hplain => exact ⟨_, parse_of_spells hspells hplain⟩
  | former hspells hbar => exact ⟨_, parse_of_startsWithBar hspells hbar⟩
  | @obsolete text hidden hspells _ ih =>
    by_cases hbar : StartsWithBar hidden
    · exact ⟨_, parse_of_startsWithBar hspells hbar⟩
    · obtain ⟨line, hline⟩ := ih
      rw [parse_of_not_startsWithBar hspells hbar, hline]
      exact ⟨_, rfl⟩

/-- What reads as a line is a text of the grammar. The induction is on the line, in which the line
behind a marker is contained. -/
theorem inGrammar_of_parse {text : Text} {line : Line} (h : parse text = .ok line) :
    InGrammar text := by
  have hspells := spells_of_parse h
  induction line generalizing text with
  | plain parts raw =>
    refine InGrammar.plain hspells ?_
    intro hidden hparts
    exact absurd ((isObsolete_iff_of_parse h).2 ⟨hidden, hparts⟩) (by simp [isObsolete])
  | obsolete hidden raw logical ih =>
    by_cases hbar : StartsWithBar hidden
    · exact InGrammar.former hspells hbar
    · rw [parse_of_not_startsWithBar hspells hbar] at h
      obtain ⟨inner, hinner, heq⟩ := Outcome.map_eq_ok_iff.1 h
      obtain ⟨-, -, rfl⟩ := Line.obsolete.inj heq
      exact InGrammar.obsolete hspells (ih hinner (spells_of_parse hinner))

/-- The line that a text with the given parts is to be read as. -/
structure Describes (line : Line) (text : Text) (parts : Parts) : Prop where
  /-- The keyword, with its index, is that of the parts. -/
  keyword : line.keyword = parts.keyword
  /-- The string, with its raw text and its value, is that of the parts. -/
  value : line.value = parts.value
  /-- The comment is that of the parts. -/
  comment : line.comment = parts.comment
  /-- The line keeps the text. -/
  raw : line.raw = text
  /-- The line is obsolete exactly if the only part is a comment with the marker in front. -/
  isObsolete : line.isObsolete = true ↔ ∃ hidden, parts = marked hidden
  /-- Without the marker, the line is its own logical line. -/
  unmarked : (∀ hidden, parts ≠ marked hidden) → line.logical = line
  /-- With a bar behind the marker, the logical line is a comment from the bar on. -/
  former : ∀ blanks tail, Blanks blanks → parts = marked (blanks ++ '|' :: tail) →
    line.logical = plain { comment := some ('|' :: tail) } (blanks ++ '|' :: tail)
  /-- Without a bar, the logical line is what stands behind the marker. -/
  behind : ∀ hidden, ¬StartsWithBar hidden → parts = marked hidden →
    parse hidden = .ok line.logical

theorem describes_of_parse {text : Text} {line : Line} (h : parse text = .ok line) :
    Describes line text line.parts := by
  have hspells := spells_of_parse h
  refine ⟨rfl, rfl, rfl, raw_of_parse h, isObsolete_iff_of_parse h, ?_, ?_, ?_⟩
  · intro hplain
    rw [parse_of_spells hspells hplain] at h
    rw [← Except.ok.inj h]
    rfl
  · intro blanks tail hblanks hparts
    rw [hparts] at hspells
    rw [parse_of_startsWithBar hspells ⟨blanks, tail, hblanks, rfl⟩] at h
    rw [← Except.ok.inj h]
    show former (blanks ++ '|' :: tail) = _
    unfold former
    rw [trimStart_append hblanks, trimStart_cons_of_not_blank (by decide)]
  · intro hidden hbar hparts
    rw [hparts] at hspells
    rw [parse_of_not_startsWithBar hspells hbar] at h
    obtain ⟨logical, hlogical, rfl⟩ := Outcome.map_eq_ok_iff.1 h
    exact hlogical

/-- **The grammar of lines is what is read.** A text reads as a line exactly if it is in the
grammar. It spells its parts in one way only, and the line that it reads as is the one that these
parts describe. -/
theorem parse_iff_inGrammar (text : Text) :
    ((∃ line, parse text = .ok line) ↔ InGrammar text) ∧
      (∀ a b, Spells text a → Spells text b → a = b) ∧
      ∀ line, parse text = .ok line → ∃ parts, Spells text parts ∧ Describes line text parts := by
  refine ⟨⟨?_, InGrammar.exists_parse⟩, fun a b => Spells.unique, ?_⟩
  · intro h
    obtain ⟨line, hline⟩ := h
    exact inGrammar_of_parse hline
  · intro line hline
    exact ⟨line.parts, spells_of_parse hline, describes_of_parse hline⟩

end MessageCatalog.Line
