import Mathlib.Data.List.Nodup
import MessageCatalog.Proofs.Document.Refinement

/-!
# Looking up messages

A catalog that was read starts with its header, which has no id and no context and is in use, and no
two of its entries have the same key. So the key of a message finds that message, every other key
finds nothing, and the key of the header is one of these (`keyed_of_parse`).

That the keys differ is part of the division (`Divides`), and that the first entry has the key of a
header is checked of the entry as a whole, so lines that continue its id cannot spoil it. That it is
in use is not checked as such. It follows from its first line with content, which is not obsolete:
this line stays in the first run whatever the later lines are (`mem_head_runs`), and an entry is
obsolete if one of its lines with content is, and only then (`Entry.obsolete_eq_of_mem`).
-/

namespace MessageCatalog

open Division

/-! ### The first run -/

namespace Division

theorem mem_kept {piece : List Line} {line : Line} (hmem : line ∈ piece)
    (hline : line.hasContent = true) : line ∈ kept piece := by
  rw [← kept_append_passed piece] at hmem
  rcases List.mem_append.1 hmem with hkept | hpassed
  · exact hkept
  · -- what is handed over comes from the end of the piece, where no line has content
    have hending : line ∈ ending piece := (List.dropWhile_suffix _).subset hpassed
    have := List.mem_rtakeWhile_imp hending
    simp [hline] at this

theorem mem_head_handOver {piece : List Line} {line : Line} (hmem : line ∈ piece)
    (hline : line.hasContent = true) (more : List (List Line)) :
    ∃ run rest, handOver piece more = run :: rest ∧ line ∈ run := by
  cases more with
  | nil => exact ⟨piece, [], rfl, hmem⟩
  | cons next more => exact ⟨kept piece, _, rfl, mem_kept hmem hline⟩

/-- The line that opens the header stays in the first run. -/
theorem mem_head_runs {lines : List Line} {first : Line}
    (hfind : lines.find? Line.hasContent = some first) (hfirst : first.isId = true) :
    ∃ run rest, runs lines = run :: rest ∧ first ∈ run := by
  obtain ⟨hcontent, lead, behind, rfl, hlead⟩ := List.find?_eq_some_iff_append.1 hfind
  have hgap : IsGap lead := fun line hmem => by simpa using hlead line hmem
  have hopens : opens false first = true := by simp [opens, hfirst]
  rw [runs, settle_gap_append hgap, settle_of_isId hfirst, pieces_inner_append hgap.isInner,
    pieces_of_opens hopens]
  exact mem_head_handOver (by simp) hcontent _

end Division

/-! ### Whether an entry is obsolete -/

namespace Entry

theorem ofLines_eq_ok_iff {lines : List Line} {entry : Entry} :
    ofLines lines = .ok entry ↔ issue? lines = none ∧ entry = content lines := by
  rw [ofLines]
  cases issue? lines with
  | none => simp [eq_comm]
  | some issue => simp

theorem ofLines_eq_error_iff {lines : List Line} {issue : EntryIssue} :
    ofLines lines = .error issue ↔ issue? lines = some issue := by
  rw [ofLines]
  cases issue? lines with
  | none => simp
  | some issue => simp

/-- Of the lines with content of an entry, each is obsolete exactly if the entry is. -/
theorem obsolete_eq_of_mem {lines : List Line} {entry : Entry} {line : Line}
    (h : ofLines lines = .ok entry) (hmem : line ∈ lines) (hline : line.hasContent = true) :
    entry.obsolete = line.isObsolete := by
  obtain ⟨hissue, rfl⟩ := ofLines_eq_ok_iff.1 h
  have hmixed : ¬(anyObsolete lines = true ∧ anyActive lines = true) := by
    rintro ⟨hobsolete, hactive⟩
    simp [issue?, hobsolete, hactive] at hissue
  show anyObsolete lines = line.isObsolete
  cases hmark : line.isObsolete with
  | true => exact List.any_eq_true.2 ⟨line, hmem, by simp [hline, hmark]⟩
  | false =>
    have hactive : anyActive lines = true :=
      List.any_eq_true.2 ⟨line, hmem, by simp [hline, hmark]⟩
    exact Bool.eq_false_iff.2 fun hobsolete => hmixed ⟨hobsolete, hactive⟩

theorem isHeader_iff {entry : Entry} :
    entry.isHeader = true ↔ entry.id = [] ∧ entry.context = none := by
  simp [isHeader, key, and_comm]

theorem key_eq_iff {entry : Entry} {context : Option Text} {id : Text} :
    entry.key = { context, id } ↔ entry.context = context ∧ entry.id = id := by
  simp [key]

end Entry

/-! ### Keys of a catalog -/

namespace Document

/-- The first entry of a divided catalog is in use. -/
theorem obsolete_headerEntry {lines : List Line} {document : Document}
    (h : Divides lines document.entries) : document.headerEntry.obsolete = false := by
  obtain ⟨first, hfind, hfirst⟩ := h.header
  obtain ⟨run, rest, hruns, hmem⟩ := mem_head_runs hfind hfirst.isId
  have hbuilt := h.built
  rw [hruns] at hbuilt
  cases hbuilt with
  | cons hheader _ =>
    rw [Entry.obsolete_eq_of_mem hheader hmem (Line.hasContent_of_isId hfirst.isId)]
    exact hfirst.active

variable {document : Document}

/-- If the keys differ, a key finds exactly the message that has it. -/
theorem get?_eq_some_iff (hkeys : (document.messages.map Entry.key).Nodup) {key : EntryKey}
    {message : Entry} :
    document.get? key = some message ↔ message ∈ document.messages ∧ message.key = key := by
  constructor
  · intro hget
    exact ⟨List.mem_of_find?_eq_some hget, by simpa using List.find?_some hget⟩
  · rintro ⟨hmem, rfl⟩
    cases hget : document.get? message.key with
    | none =>
      have := List.find?_eq_none.1 hget message hmem
      simp at this
    | some found =>
      have hkey : found.key = message.key := by simpa using List.find?_some hget
      rw [List.inj_on_of_nodup_map hkeys (List.mem_of_find?_eq_some hget) hmem hkey]

theorem get?_eq_none_iff {key : EntryKey} :
    document.get? key = none ↔ ∀ message ∈ document.messages, message.key ≠ key := by
  simp [get?]

/-- A catalog whose messages are found by their keys. -/
structure Keyed (document : Document) : Prop where
  /-- The first entry has no id and no context and is in use. -/
  header : document.entries[0]? = some document.headerEntry ∧ document.headerEntry.id = [] ∧
    document.headerEntry.context = none ∧ document.headerEntry.obsolete = false
  /-- All entries have different keys. -/
  keys : (document.entries.map Entry.key).Nodup
  /-- No message is a header. -/
  messages : ∀ message ∈ document.messages, message.isHeader = false
  /-- A context and an id find the message that has them. -/
  found : ∀ context id message, document.find? context id = some message ↔
    message ∈ document.messages ∧ message.context = context ∧ message.id = id
  /-- They find nothing if no message has them. -/
  missing : ∀ context id, document.find? context id = none ↔
    ∀ message ∈ document.messages, ¬(message.context = context ∧ message.id = id)
  /-- A key finds what its parts find. -/
  get : ∀ key, document.get? key = document.find? key.context key.id
  /-- The key of the header finds nothing. -/
  headerKey : document.get? document.headerEntry.key = none
  /-- The key of each message finds that message. -/
  ownKey : ∀ (k : Nat) (message : Entry), document.messages[k]? = some message →
    document.find? message.context message.id = some message

/-- **Looking up messages.** In a catalog that was read, messages are found by their keys. -/
theorem keyed_of_parse {options : ReadOptions} {text : Text}
    (h : parse options text = .ok document) : document.Keyed := by
  obtain ⟨hentries, hheader, -⟩ := parse_eq_ok_iff.1 h
  obtain ⟨lines, -, hdivides⟩ := Assembly.entries_eq_ok_iff.1 hentries
  obtain ⟨hid, hcontext⟩ := Entry.isHeader_iff.1 hheader
  have hkeys : (document.headerEntry.key :: document.messages.map Entry.key).Nodup := hdivides.keys
  obtain ⟨hfresh, hmessages⟩ := List.nodup_cons.1 hkeys
  have hother : ∀ message ∈ document.messages, message.key ≠ document.headerEntry.key :=
    fun message hmem heq => hfresh (List.mem_map.2 ⟨message, hmem, heq⟩)
  refine
    { header := ⟨rfl, hid, hcontext, obsolete_headerEntry hdivides⟩
      keys := hkeys
      messages := fun message hmem => ?_
      found := fun context id message => ?_
      missing := fun context id => ?_
      get := fun _ => rfl
      headerKey := get?_eq_none_iff.2 hother
      ownKey := fun k message hk => ?_ }
  · have hkey : document.headerEntry.key = { id := [] } := Entry.key_eq_iff.2 ⟨hcontext, hid⟩
    exact decide_eq_false (hkey ▸ hother message hmem)
  · rw [find?, get?_eq_some_iff hmessages, Entry.key_eq_iff]
  · simp only [find?, get?_eq_none_iff, ne_eq, Entry.key_eq_iff]
  · exact (get?_eq_some_iff hmessages).2 ⟨List.mem_of_getElem? hk, rfl⟩

/-- A catalog whose header continues its empty id on a second line, with a message, the same id in a
context, and the same id again in an obsolete message with another context. -/
def sharedIds : Text :=
  "# head\nmsgid \"\"\n\"\"\nmsgstr \"Language: ja\\n\"\n\nmsgid \"a\"\nmsgstr \"b\"\n".toList
    ++ "msgctxt \"c\"\nmsgid \"a\"\nmsgstr \"d\"\n#~ msgctxt \"\"\n#~ msgid \"a\"\n".toList

theorem keyed_of_parse_sharedIds :
    ∃ document, parse {} sharedIds = .ok document ∧ document.Keyed := by
  obtain ⟨document, h⟩ := Outcome.exists_ok (x := parse {} sharedIds) (by decide +kernel)
  exact ⟨document, h, keyed_of_parse h⟩

end Document

end MessageCatalog
