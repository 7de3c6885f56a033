import MessageCatalog.Proofs.Document.Fidelity
import MessageCatalog.Proofs.Entry.Composed

/-!
# Composed catalogs read back

`Document.compose` makes the text of a catalog of a header and messages: a line for each field, and
any number of empty lines in front of each message. Reading that text gives a document with this
header and these messages (`Document.parse_compose`), whatever the texts are.

The lines of one message open one entry and nothing in them moves, whatever follows
(`Division.OpensOne`). So the division of all lines gives back the lines of each message, together
with the empty lines in front of it (`Document.runs_composedLines`).
-/

namespace MessageCatalog

open Division

namespace Division

/-! ### Lines of one message -/

/-- Lines with content that open one entry: an id, possibly behind a context, and behind it lines
that introduce neither. -/
inductive OpensOne : List Line → Prop where
  /-- The id comes first. -/
  | plain {id : Line} {inner : List Line} : id.isId = true → IsInner inner →
      (∀ line ∈ inner, line.hasContent = true) → OpensOne (id :: inner)
  /-- The context comes first. -/
  | contextual {context id : Line} {inner : List Line} : context.isContext = true →
      id.isId = true → IsInner inner → (∀ line ∈ inner, line.hasContent = true) →
      OpensOne (context :: id :: inner)

namespace OpensOne

variable {unit : List Line}

theorem answered_append (h : OpensOne unit) (lines : List Line) :
    answered false (unit ++ lines) = answered false lines := by
  cases h with
  | plain hid hinner _ =>
    rw [List.cons_append, answered, awaits_of_isId hid, answered_inner_append hinner]
    simp
  | contextual hc hid hinner _ =>
    rw [List.cons_append, List.cons_append, answered, answered, awaits_of_isContext hc,
      awaits_of_isId hid, answered_inner_append hinner, Line.isContext_of_isId hid]
    simp

theorem settle_append (h : OpensOne unit) (lines : List Line) :
    settle false (unit ++ lines) = unit ++ settle false lines := by
  cases h with
  | plain hid hinner hcontent =>
    rw [List.cons_append, settle_of_isId hid, settle_inner_append hinner hcontent]
    rfl
  | contextual hc hid hinner hcontent =>
    rw [List.cons_append, settle_content (Line.hasContent_of_isContext hc), List.cons_append,
      settle_of_isId hid, settle_inner_append hinner hcontent]
    rfl

/-- The lines are cut in front of the first one only. -/
theorem pieces_append (h : OpensOne unit) (lines : List Line) :
    pieces false (unit ++ lines)
      = ([], (unit ++ (pieces false lines).1) :: (pieces false lines).2) := by
  cases h with
  | @plain id _ hid hinner _ =>
    have hopens : opens false id = true := by simp [opens, hid]
    rw [List.cons_append, pieces_of_opens hopens, awaits_of_isId hid, pieces_inner_append hinner]
    rfl
  | @contextual context id _ hc hid hinner _ =>
    have hopens : opens false context = true := by simp [opens, hc]
    have hanswer : opens true id = false := by simp [opens, Line.isContext_of_isId hid]
    rw [List.cons_append, pieces_of_opens hopens, awaits_of_isContext hc, List.cons_append,
      pieces_of_not_opens hanswer, awaits_of_isId hid, pieces_inner_append hinner]
    rfl

theorem endsInContent (h : OpensOne unit) : EndsInContent unit := by
  have hall : ∀ line ∈ unit, line.hasContent = true := by
    cases h with
    | plain hid _ hcontent =>
      exact List.forall_mem_cons.2 ⟨Line.hasContent_of_isId hid, hcontent⟩
    | contextual hc hid _ hcontent =>
      exact List.forall_mem_cons.2 ⟨Line.hasContent_of_isContext hc,
        List.forall_mem_cons.2 ⟨Line.hasContent_of_isId hid, hcontent⟩⟩
  rcases List.eq_nil_or_concat unit with rfl | ⟨front, last, rfl⟩
  · cases h
  · rw [List.concat_eq_append]
    exact EndsInContent.concat front (hall last (by simp))

end OpensOne

end Division

/-- The lines of a translation introduce neither a context nor an id. -/
theorem Translation.isInner_contents (translation : Translation) :
    IsInner (translation.contents.map fun content => content.1.line content.2) := by
  intro line hmem
  obtain ⟨⟨field, text⟩, hcontent, rfl⟩ := List.mem_map.1 hmem
  cases translation with
  | single value =>
    obtain ⟨rfl, -⟩ := Prod.mk.inj (List.mem_singleton.1 hcontent)
    exact ⟨rfl, rfl⟩
  | plural id forms =>
    rcases List.mem_cons.1 hcontent with heq | hcontent
    · obtain ⟨rfl, -⟩ := Prod.mk.inj heq
      exact ⟨rfl, rfl⟩
    · obtain ⟨⟨form, index⟩, -, heq⟩ := List.mem_map.1 hcontent
      obtain ⟨rfl, -⟩ := Prod.mk.inj heq
      exact ⟨rfl, rfl⟩

namespace Message

theorem lines_eq_append (blanks : Nat) (message : Message) :
    message.lines blanks = List.replicate blanks Line.blank ++ message.lines 0 := rfl

/-- The lines of a message open one entry. -/
theorem opensOne_lines (message : Message) : OpensOne (message.lines 0) := by
  have hinner := message.translation.isInner_contents
  have hcontent : ∀ line ∈ message.translation.contents.map fun content =>
      content.1.line content.2, line.hasContent = true := by
    intro line hmem
    obtain ⟨content, -, rfl⟩ := List.mem_map.1 hmem
    rfl
  obtain ⟨context, id, translation⟩ := message
  cases context with
  | none => exact OpensOne.plain rfl hinner hcontent
  | some context => exact OpensOne.contextual rfl rfl hinner hcontent

theorem endsInContent_lines (blanks : Nat) (message : Message) :
    EndsInContent (message.lines blanks) :=
  message.opensOne_lines.endsInContent.append (List.replicate blanks Line.blank)

/-- The message that the header of a catalog is. -/
def header (text : Text) : Message := { id := [], translation := .single text }

/-- Composes the lines of a message and gives their texts. -/
def compose (message : Message) : Except LineError (List Text) :=
  message.contents.mapM fun (field, text) => (Line.compose (field.parts text)).map Line.raw

theorem compose_eq_ok (message : Message) :
    message.compose = .ok ((message.lines 0).map Line.raw) := by
  rw [lines, Entry.composed_zero, List.map_map]
  refine Outcome.mapM_eq_ok (fun content => ?_) message.contents
  obtain ⟨field, text⟩ := content
  dsimp only
  rw [Field.compose_parts]
  rfl

end Message

namespace Document

/-! ### The division of composed lines -/

/-- The lines of messages, those of each behind the given number of empty lines. -/
def composedLines (messages : List (Nat × Message)) : List Line :=
  messages.flatMap fun (blanks, message) => message.lines blanks

variable (blanks : Nat) (message : Message) (messages : List (Nat × Message))

theorem composedLines_cons :
    composedLines ((blanks, message) :: messages)
      = List.replicate blanks Line.blank ++ (message.lines 0 ++ composedLines messages) := by
  rw [← List.append_assoc, ← Message.lines_eq_append]
  rfl

theorem isGap_replicate_blank : IsGap (List.replicate blanks Line.blank) := by
  intro line hmem
  rw [List.eq_of_mem_replicate hmem]
  rfl

theorem takeWhile_isText_replicate_blank :
    (List.replicate blanks Line.blank).takeWhile isText = [] := by
  cases blanks <;> rfl

theorem dropWhile_isText_replicate_blank :
    (List.replicate blanks Line.blank).dropWhile isText = List.replicate blanks Line.blank := by
  cases blanks <;> rfl

theorem answered_composedLines : answered false (composedLines messages) = true := by
  induction messages with
  | nil => rfl
  | cons first messages ih =>
    obtain ⟨blanks, message⟩ := first
    rw [composedLines_cons, answered_inner_append (isGap_replicate_blank blanks).isInner,
      message.opensOne_lines.answered_append, ih]

theorem settle_composedLines : settle false (composedLines messages) = composedLines messages := by
  induction messages with
  | nil => rfl
  | cons first messages ih =>
    obtain ⟨blanks, message⟩ := first
    rw [composedLines_cons, settle_gap_append (isGap_replicate_blank blanks),
      message.opensOne_lines.settle_append, ih]

theorem pieces_composedLines_cons :
    pieces false (composedLines ((blanks, message) :: messages))
      = (List.replicate blanks Line.blank,
          (message.lines 0 ++ (pieces false (composedLines messages)).1)
            :: (pieces false (composedLines messages)).2) := by
  rw [composedLines_cons, pieces_inner_append (isGap_replicate_blank blanks).isInner,
    message.opensOne_lines.pieces_append]
  simp

/-- What stands before the messages hands over nothing but empty lines, and each message takes those
in front of it. -/
theorem handOver_composedLines {current : List Line} (h : EndsInContent current) :
    handOver (current ++ (pieces false (composedLines messages)).1)
        (pieces false (composedLines messages)).2
      = current :: messages.map fun (blanks, message) => message.lines blanks := by
  induction messages generalizing current with
  | nil => simp [composedLines, pieces, handOver]
  | cons first messages ih =>
    obtain ⟨blanks, message⟩ := first
    have hgap := isGap_replicate_blank blanks
    rw [pieces_composedLines_cons, handOver, kept_append h hgap, passed_append h hgap,
      takeWhile_isText_replicate_blank, dropWhile_isText_replicate_blank, List.append_nil,
      ← List.append_assoc, ← Message.lines_eq_append,
      ih (message.endsInContent_lines blanks)]
    rfl

/-- **The runs of composed lines are the lines of the messages.** -/
theorem runs_composedLines :
    runs (composedLines ((blanks, message) :: messages))
      = ((blanks, message) :: messages).map fun (blanks, message) => message.lines blanks := by
  rw [runs, settle_composedLines, pieces_composedLines_cons]
  dsimp only
  rw [← List.append_assoc, ← Message.lines_eq_append]
  exact handOver_composedLines messages (message.endsInContent_lines blanks)

/-! ### Reading a composed catalog -/

/-- Composes the text of a catalog: the header and the messages, each message behind the given
number of empty lines. -/
def compose (header : Text) (messages : List (Nat × Message)) : Except LineError Text := do
  let first ← (Message.header header).compose
  let others ← messages.mapM fun (blanks, message) =>
    message.compose.map (List.replicate blanks [] ++ ·)
  return Text.join ['\n'] (first ++ others.flatten)

theorem compose_eq_ok (header : Text) :
    compose header messages = .ok (Text.join ['\n']
      ((composedLines ((0, Message.header header) :: messages)).map Line.raw)) := by
  have hmessages : (messages.mapM fun (blanks, message) =>
      message.compose.map (List.replicate blanks [] ++ ·))
        = .ok (messages.map fun (blanks, message) => (message.lines blanks).map Line.raw) := by
    refine Outcome.mapM_eq_ok (fun spaced => ?_) messages
    obtain ⟨blanks, message⟩ := spaced
    dsimp only
    rw [Message.compose_eq_ok, Message.lines_eq_append blanks, List.map_append, List.map_replicate]
    rfl
  rw [compose, Message.compose_eq_ok, hmessages, composedLines, List.map_flatMap,
    List.flatMap_cons, List.flatMap_def]
  rfl

theorem parse_blank : Line.parse Line.blank.raw = .ok Line.blank :=
  Line.parse_of_readParts rfl rfl

variable {messages} {line : Line}

/-- Each composed line is blank or holds a field of a message. -/
theorem eq_of_mem_composedLines (h : line ∈ composedLines messages) :
    line = Line.blank ∨ ∃ message field text,
      (field, text) ∈ Message.contents message ∧ line = field.line text := by
  obtain ⟨⟨blanks, message⟩, -, hline⟩ := List.mem_flatMap.1 h
  rcases List.mem_append.1 hline with hline | hline
  · exact .inl (List.eq_of_mem_replicate hline)
  · obtain ⟨⟨field, text⟩, hcontent, rfl⟩ := List.mem_map.1 hline
    exact .inr ⟨message, field, text, hcontent, rfl⟩

theorem parse_raw_of_mem_composedLines (h : line ∈ composedLines messages) :
    Line.parse line.raw = .ok line := by
  rcases eq_of_mem_composedLines h with rfl | ⟨message, field, text, hcontent, rfl⟩
  · exact parse_blank
  · exact Field.parse_raw_line (Message.index_lt_of_mem_contents hcontent) text

theorem isLine_raw_of_mem_composedLines (h : line ∈ composedLines messages) :
    Text.IsLine line.raw := by
  rcases eq_of_mem_composedLines h with rfl | ⟨message, field, text, -, rfl⟩
  · exact ⟨List.not_mem_nil, by simp [Line.blank, Line.raw]⟩
  · exact Field.isLine_raw_line field text

theorem raw_ne_nil_of_mem_composedLines (h : line ∈ composedLines messages)
    (hcontent : line.hasContent = true) : line.raw ≠ [] := by
  rcases eq_of_mem_composedLines h with rfl | ⟨message, field, text, -, rfl⟩
  · cases hcontent
  · simp [Field.raw_line]

variable (messages)

theorem endsInContent_composedLines :
    EndsInContent (composedLines ((blanks, message) :: messages)) := by
  induction messages generalizing blanks message with
  | nil =>
    rw [composedLines, List.flatMap_singleton]
    exact message.endsInContent_lines blanks
  | cons next messages ih => exact (ih next.1 next.2).append (message.lines blanks)

/-- The lines of a composed text are the composed lines. -/
theorem lines_join_composedLines :
    Text.lines (Text.join ['\n']
      ((composedLines ((blanks, message) :: messages)).map Line.raw))
        = (composedLines ((blanks, message) :: messages)).map Line.raw := by
  refine Text.lines_join (List.forall_mem_map.2 fun line => isLine_raw_of_mem_composedLines) ?_
  obtain ⟨front, last, heq, hlast⟩ := endsInContent_composedLines blanks message messages
  have hmem : last ∈ composedLines ((blanks, message) :: messages) := by simp [heq]
  rw [heq, List.map_append, List.map_singleton, List.getLast?_concat]
  rintro text ⟨⟩
  exact raw_ne_nil_of_mem_composedLines hmem hlast

/-- The lines of messages are entries that say what the messages say. -/
theorem exists_builtFrom :
    ∃ entries,
      Entry.BuiltFrom (messages.map fun (blanks, message) => message.lines blanks) entries ∧
      List.Forall₂ Entry.Holds entries (messages.map Prod.snd) := by
  induction messages with
  | nil => exact ⟨[], List.Forall₂.nil, List.Forall₂.nil⟩
  | cons first messages ih =>
    obtain ⟨blanks, message⟩ := first
    obtain ⟨entry, hentry, hholds⟩ := message.exists_ofLines_lines blanks
    obtain ⟨entries, hbuilt, hall⟩ := ih
    exact ⟨entry :: entries, List.Forall₂.cons hentry hbuilt, List.Forall₂.cons hholds hall⟩

theorem map_key_of_holds {entries : List Entry} {messages : List Message}
    (h : List.Forall₂ Entry.Holds entries messages) :
    entries.map Entry.key = messages.map Message.key := by
  induction h with
  | nil => rfl
  | cons hholds _ ih =>
    rw [List.map_cons, List.map_cons, ih, Entry.key, Message.key, hholds.context, hholds.id]

/-- The composed lines of a header and messages with different keys are divided into entries that
say what these say. -/
theorem exists_divides_composedLines (header : Text)
    (hkeys : (messages.map fun (_, message) => message.key).Nodup)
    (hnone : ∀ message ∈ messages.map Prod.snd, message.key ≠ { id := [] }) :
    ∃ entries, Divides (composedLines ((0, Message.header header) :: messages)) entries ∧
      List.Forall₂ Entry.Holds entries (Message.header header :: messages.map Prod.snd) := by
  obtain ⟨entries, hbuilt, hholds⟩ := exists_builtFrom ((0, Message.header header) :: messages)
  refine ⟨entries, ⟨?_, ?_, ?_, ?_⟩, hholds⟩
  · refine ⟨Field.id.line [], rfl, rfl, rfl, ?_⟩
    rintro payload ⟨⟩
    rfl
  · exact (answered_iff _).1 (answered_composedLines _)
  · rw [runs_composedLines]
    exact hbuilt
  · rw [map_key_of_holds hholds, List.map_cons, List.map_cons, List.map_map, List.nodup_cons]
    refine ⟨fun hmem => ?_, hkeys⟩
    obtain ⟨spaced, hspaced, hkey⟩ := List.mem_map.1 hmem
    exact hnone spaced.2 (List.mem_map_of_mem hspaced) hkey

/-- **Every content survives composing and reading.** Take a header that can be read, and messages
with different keys of which none is that of a header. They can be composed, with any number of
empty lines in front of each message, and the composed text reads as a document with this header
whose messages are, in their order, entries in use that say what these messages say. -/
theorem parse_compose {options : ReadOptions} {header : Text} {fields : Header}
    (hheader : Header.parse options header = .ok fields)
    (hkeys : (messages.map fun (_, message) => message.key).Nodup)
    (hnone : ∀ message ∈ messages.map Prod.snd, message.key ≠ { id := [] }) :
    ∃ text document, compose header messages = .ok text ∧ parse options text = .ok document ∧
      document.header = fields ∧ document.headerEntry.value = header ∧
      List.Forall₂ Entry.Holds document.messages (messages.map Prod.snd) := by
  obtain ⟨entries, hdivides, hholds⟩ := exists_divides_composedLines messages header hkeys hnone
  cases hholds with
  | @cons first _ rest _ hfirst hrest =>
    have hparsed : Line.ParsedAs _ (composedLines ((0, Message.header header) :: messages)) :=
      Line.parsedAs_map_raw fun line => parse_raw_of_mem_composedLines
    have htexts := lineTexts_of_lines
      (lines_join_composedLines 0 (Message.header header) messages)
      (unmarked_of_divides hparsed hdivides)
    have hvalue : first.value = header := hfirst.value
    refine ⟨_, { header := fields, headerEntry := first, messages := rest },
      compose_eq_ok messages header, parse_eq_ok_iff.2 ⟨?_, ?_, ?_⟩, rfl, hvalue, hrest⟩
    · rw [htexts]
      exact Assembly.entries_eq_ok_iff.2 ⟨_, hparsed, hdivides⟩
    · simp [Entry.isHeader, Entry.key, hfirst.context, hfirst.id, Message.header]
    · rw [hvalue]
      exact hheader

/-- Messages whose texts hold quotes, backslashes, line ends and control characters: a plural one
directly behind the header, and behind two empty lines another with the same id. -/
def awkwardMessages : List (Nat × Message) :=
  [(0, { context := some "\"\\\r\n".toList, id := "a\u2028\n".toList,
         translation := .plural "#~ \"".toList
           ⟨["\t".toList, [], "\x00\"".toList], by decide, by decide⟩ }),
    (2, { id := "a\u2028\n".toList, translation := .single "msgid \"\"".toList })]

theorem parse_compose_awkwardMessages :
    ∃ fields text document, Header.parse {} "Language: ja\n".toList = .ok fields ∧
      compose "Language: ja\n".toList awkwardMessages = .ok text ∧
      parse {} text = .ok document ∧
      document.header = fields ∧ document.headerEntry.value = "Language: ja\n".toList ∧
      List.Forall₂ Entry.Holds document.messages (awkwardMessages.map Prod.snd) := by
  obtain ⟨fields, hheader⟩ :=
    Outcome.exists_ok (x := Header.parse {} "Language: ja\n".toList) (by decide +kernel)
  obtain ⟨text, document, h⟩ := parse_compose awkwardMessages hheader
    (by decide +kernel) (by decide +kernel)
  exact ⟨fields, text, document, hheader, h⟩

end Document

end MessageCatalog
