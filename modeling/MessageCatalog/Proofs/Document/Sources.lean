import MessageCatalog.Proofs.Document.Stream
import MessageCatalog.Proofs.Text.Marking

/-!
# A catalog is the same from every source

A text can be stored as plain UTF-8, or behind a byte order mark as UTF-8 or UTF-16, and be read
from memory, from a stream or from a file. However it is stored and wherever it comes from, the
catalog is the one that the text gives, and so is the error (`Document.load_eq_parse_iff`). There is
one exception, and it comes from the decoder of files, which looks for a mark only in three bytes or
more: the empty text behind a mark of UTF-16, which takes two, is refused as malformed UTF-8
(`load_file_ne_parse_nil`).

Memory and a file accept the same bytes and give the same catalog for them, unless something is
malformed behind a mark (`Document.load_memory_iff_load_file`). Memory refuses such bytes. A file
does not: it gives the catalog with replacement characters (`load_file_strayByte`).
-/

namespace MessageCatalog.Document

open Encoding

variable {text : Text} {bytes content : Bytes} {encoding : Encoding} {document : Document}

/-! ### A mark in front of a text -/

/-- The first line of a text starts as the text does. -/
theorem head?_of_lines {line : Text} {more : List Text} {c : Char}
    (h : Text.lines text = line :: more) (hc : line.head? = some c) : text.head? = some c := by
  cases text using Text.lines.fun_cases with
  | case1 => cases h
  | case2 rest =>
    rw [Text.lines, List.cons.injEq] at h
    rw [← h.1] at hc
    cases hc
  | case3 rest =>
    rw [Text.lines, List.cons.injEq] at h
    rw [← h.1] at hc
    cases hc
  | case4 d rest hfeed hreturn hnil =>
    rw [Text.lines.eq_4 d rest hfeed hreturn, hnil, List.cons.injEq] at h
    rw [← h.1] at hc
    exact hc
  | case5 d rest hfeed hreturn first others hlines =>
    rw [Text.lines.eq_4 d rest hfeed hreturn, hlines, List.cons.injEq] at h
    rw [← h.1] at hc
    exact hc

/-- A mark in front of a text does not change its lines. -/
theorem lineTexts_mark_cons (hnil : text ≠ []) (hmark : text.head? ≠ some byteOrderMark) :
    lineTexts (byteOrderMark :: text) = lineTexts text := by
  have hlines := Text.lines.eq_4 byteOrderMark text (by decide) (fun _ h => absurd h (by decide))
  cases htext : Text.lines text with
  | nil => exact absurd (Text.lines_eq_nil_iff.1 htext) hnil
  | cons line more =>
    rw [htext] at hlines
    have hplain : ∀ first ∈ (line :: more).head?, Text.after? byteOrderMark first = none := by
      intro first hfirst
      rw [List.head?_cons, Option.mem_some_iff] at hfirst
      rw [← hfirst, Option.eq_none_iff_forall_ne_some]
      intro rest hrest
      rw [Text.after?_eq_some] at hrest
      exact hmark (head?_of_lines htext (by rw [hrest]; rfl))
    rw [lineTexts_of_lines htext hplain, lineTexts, hlines]
    simp [Text.dropMark, Text.after?]

/-- A text is read the same behind a mark. -/
theorem parse_mark_cons (options : ReadOptions) (hmark : text.head? ≠ some byteOrderMark) :
    parse options (byteOrderMark :: text) = parse options text := by
  by_cases hnil : text = []
  · -- a single blank line has no header, and neither has an empty text
    have hentries : Assembly.entries (lineTexts [byteOrderMark])
        = Assembly.entries (lineTexts []) := by decide +kernel
    rw [hnil, parse, parse, hentries]
  · rw [parse, parse, lineTexts_mark_cons hnil hmark]

/-! ### The text of bytes -/

theorem memoryText_marked (encoding : Encoding) (content : Bytes) :
    memoryText (encoding.mark ++ content) = match encoding.strict? content with
      | some text => .ok text
      | none => .error (.malformedBytes encoding) := by
  rw [memoryText, marked?_eq_some_iff.2 rfl]
  rfl

theorem memoryText_unmarked (h : marked? bytes = none) :
    memoryText bytes = match utf8.strict? bytes with
      | some text => .ok text
      | none => .error (.malformedBytes .utf8) := by
  rw [memoryText, h]
  rfl

theorem fileText_unmarked (h : marked? bytes = none) : fileText bytes = streamText bytes := by
  rw [fileText, h, ite_self]

theorem fileText_marked (h : markWindow ≤ (encoding.mark ++ content).length) :
    fileText (encoding.mark ++ content) = .ok (encoding.repaired content) := by
  rw [fileText, if_neg (Nat.not_lt.2 h), marked?_eq_some_iff.2 rfl]

/-- A file is too short only if it is a mark of UTF-16 with nothing behind it. -/
theorem markWindow_le (h : content ≠ [] ∨ encoding = utf8) :
    markWindow ≤ (encoding.mark ++ content).length := by
  rw [List.length_append]
  rcases h with hcontent | rfl
  · have hlength := List.length_pos_of_ne_nil hcontent
    have hmark : 2 ≤ encoding.mark.length := by
      cases encoding with
      | utf8 => decide
      | utf16 order => exact Nat.le_of_eq (length_mark_utf16 order).symm
    unfold markWindow
    omega
  · exact Nat.le_add_right _ _

/-! ### Stored texts -/

/-- How a text that is read from a source may be stored. -/
inductive Stored (text : Text) : Source → Bytes → Prop where
  /-- As UTF-8. -/
  | plain (source : Source) : Stored text source (utf8.encode text)
  /-- As UTF-8 behind its byte order mark. -/
  | marked (source : Source) : Stored text source (utf8.mark ++ utf8.encode text)
  /-- As UTF-16 behind its byte order mark, but not in a stream. -/
  | wide {source : Source} (order : ByteOrder) : source ≠ .stream →
      Stored text source ((utf16 order).mark ++ (utf16 order).encode text)

theorem sourceText_plain (hmark : text.head? ≠ some byteOrderMark) (source : Source) :
    sourceText source (utf8.encode text) = .ok text := by
  have hmarked := marked?_encode hmark
  cases source with
  | memory =>
    show memoryText _ = _
    rw [memoryText_unmarked hmarked, strict?_encode]
  | stream => exact streamText_encode text
  | file => exact (fileText_unmarked hmarked).trans (streamText_encode text)

theorem memoryText_mark_encode (encoding : Encoding) (text : Text) :
    memoryText (encoding.mark ++ encoding.encode text) = .ok text := by
  rw [memoryText_marked, strict?_encode]

theorem fileText_mark_encode (h : text ≠ [] ∨ encoding = utf8) :
    fileText (encoding.mark ++ encoding.encode text) = .ok text := by
  have hcontent : encoding.encode text ≠ [] ∨ encoding = utf8 :=
    h.imp_left fun htext hnil => htext (encoding.encode_eq_nil_iff.1 hnil)
  rw [fileText_marked (markWindow_le hcontent), repaired_encode]

theorem streamText_mark_encode (text : Text) :
    streamText (utf8.mark ++ utf8.encode text) = .ok (byteOrderMark :: text) := by
  rw [mark_eq, ← encode_append]
  exact streamText_encode _

theorem load_of_sourceText {source : Source} (h : sourceText source bytes = .ok text) :
    load source bytes = parse {} text := by
  rw [load, h]
  rfl

theorem parse_nil (options : ReadOptions) :
    parse options [] = .error (.documentStructure 1 .missingHeader) := rfl

/-- A file that is too short for its mark is no UTF-8 either. -/
theorem load_file_mark (order : ByteOrder) :
    load .file (utf16 order).mark = .error .malformedStream := by
  cases order with
  | little => rfl
  | big => rfl

/-- Only the empty text is stored as nothing but a mark of UTF-16. -/
theorem Stored.eq_nil {source : Source} {order : ByteOrder} (h : Stored text source bytes)
    (hbytes : bytes = (utf16 order).mark) : text = [] := by
  cases h with
  | plain =>
    rw [← List.append_nil (utf16 order).mark] at hbytes
    exact absurd hbytes (encode_ne_mark_append order text [])
  | marked => cases order <;> cases hbytes
  | wide other _ =>
    have hlength := congrArg List.length hbytes
    rw [List.length_append, length_mark_utf16, length_mark_utf16] at hlength
    have hnil : (utf16 other).encode text = [] := List.eq_nil_of_length_eq_zero (by omega)
    exact (utf16 other).encode_eq_nil_iff.1 hnil

theorem Stored.load_memory (hmark : text.head? ≠ some byteOrderMark)
    (h : Stored text .memory bytes) : load .memory bytes = parse {} text := by
  cases h with
  | plain => exact load_of_sourceText (sourceText_plain hmark .memory)
  | marked => exact load_of_sourceText (memoryText_mark_encode utf8 text)
  | wide order _ => exact load_of_sourceText (memoryText_mark_encode (utf16 order) text)

theorem Stored.load_stream (hmark : text.head? ≠ some byteOrderMark)
    (h : Stored text .stream bytes) : load .stream bytes = parse {} text := by
  cases h with
  | plain => exact load_of_sourceText (sourceText_plain hmark .stream)
  | marked =>
    rw [← parse_mark_cons {} hmark]
    exact load_of_sourceText (streamText_mark_encode text)
  | wide _ hsource => exact absurd rfl hsource

theorem Stored.load_file_iff (hmark : text.head? ≠ some byteOrderMark)
    (h : Stored text .file bytes) :
    load .file bytes = parse {} text ↔ ¬∃ order, bytes = (utf16 order).mark := by
  constructor
  · rintro hload ⟨order, hbytes⟩
    rw [h.eq_nil hbytes, hbytes, load_file_mark, parse_nil] at hload
    cases hload
  · intro hlong
    cases h with
    | plain => exact load_of_sourceText (sourceText_plain hmark .file)
    | marked => exact load_of_sourceText (fileText_mark_encode (.inr rfl))
    | wide order _ =>
      refine load_of_sourceText (fileText_mark_encode (.inl ?_))
      rintro rfl
      exact hlong ⟨order, List.append_nil _⟩

/-- **A stored text is read as the text itself**, from every source, except that a file which holds
nothing but a mark of UTF-16 is refused as malformed UTF-8. A stream may be read line by line. -/
theorem load_eq_parse_iff {source : Source} (hmark : text.head? ≠ some byteOrderMark)
    (h : Stored text source bytes) :
    (load source bytes = parse {} text ↔
      ¬(source = .file ∧ ∃ order, bytes = (utf16 order).mark)) ∧
    (source = .stream → readLines bytes = parse {} text) := by
  cases source with
  | memory => simp [h.load_memory hmark]
  | stream => simp [← load_stream_eq_readLines, h.load_stream hmark]
  | file => simp [h.load_file_iff hmark]

/-- A catalog with line ends of two characters and a message beyond the first plane, behind whose
first character stands U+FEFF. -/
def distantMessage : Text :=
  "msgid \"\"\r\nmsgstr \"Language: ja\\n\"\r\n\r\nmsgid \"😀\ufeff\"\r\n".toList

theorem load_eq_parse_iff_distantMessage :
    distantMessage.head? ≠ some byteOrderMark ∧ (parse {} distantMessage).isOk = true ∧
    load .file ((utf16 .big).mark ++ (utf16 .big).encode distantMessage)
      = parse {} distantMessage ∧
    load .stream (utf8.mark ++ utf8.encode distantMessage) = parse {} distantMessage ∧
    readLines (utf8.mark ++ utf8.encode distantMessage) = parse {} distantMessage := by
  have hmark : distantMessage.head? ≠ some byteOrderMark := by decide
  have hfile : Stored distantMessage .file
      ((utf16 .big).mark ++ (utf16 .big).encode distantMessage) := .wide .big (by decide)
  have hstream : Stored distantMessage .stream (utf8.mark ++ utf8.encode distantMessage) :=
    .marked .stream
  refine ⟨hmark, by decide +kernel, ?_, ?_, (load_eq_parse_iff hmark hstream).2 rfl⟩
  · apply (load_eq_parse_iff hmark hfile).1.2
    rintro ⟨-, order, hbytes⟩
    have hnil : distantMessage ≠ [] := by decide
    exact hnil (hfile.eq_nil hbytes)
  · apply (load_eq_parse_iff hmark hstream).1.2
    rintro ⟨hsource, -⟩
    cases hsource

/-- **A file can be too short for its mark.** The empty text behind a mark of UTF-16 is read from
memory as the text itself and refused from a file. -/
theorem load_file_ne_parse_nil :
    Stored [] .file [0xFF, 0xFE] ∧ load .memory [0xFF, 0xFE] = parse {} [] ∧
    load .file [0xFF, 0xFE] = .error .malformedStream ∧ load .file [0xFF, 0xFE] ≠ parse {} [] :=
  ⟨.wide .little (by decide), rfl, rfl, by decide +kernel⟩

/-! ### Malformed bytes -/

/-- What stands behind a mark and is malformed is refused from memory and repaired from a file. -/
theorem load_malformed (hcontent : ∀ text, content ≠ encoding.encode text) :
    load .memory (encoding.mark ++ content) = .error (.malformedBytes encoding) ∧
    load .file (encoding.mark ++ content) = parse {} (encoding.repaired content) := by
  constructor
  · show memoryText _ >>= _ = _
    rw [memoryText_marked, strict?_eq_none_iff.2 hcontent]
    rfl
  · have hnil : content ≠ [] := by
      rintro rfl
      exact hcontent [] (encoding.encode_eq_nil_iff.2 rfl).symm
    exact load_of_sourceText (fileText_marked (markWindow_le (.inl hnil)))

/-- Without a mark, memory and a file differ only in how they refuse bytes. -/
theorem load_unmarked (hmarked : marked? bytes = none) (document : Document) :
    load .memory bytes = .ok document ↔ load .file bytes = .ok document := by
  cases hstrict : utf8.strict? bytes with
  | none =>
    have hmemory : load .memory bytes = .error (.malformedBytes .utf8) := by
      show memoryText _ >>= _ = _
      rw [memoryText_unmarked hmarked, hstrict]
      rfl
    have hfile : load .file bytes = .error .malformedStream := by
      show fileText _ >>= _ = _
      rw [fileText_unmarked hmarked, streamText, hstrict]
      rfl
    simp [hmemory, hfile]
  | some text =>
    have hmemory : sourceText .memory bytes = .ok text := by
      show memoryText _ = _
      rw [memoryText_unmarked hmarked, hstrict]
    have hfile : sourceText .file bytes = .ok text := by
      show fileText _ = _
      rw [fileText_unmarked hmarked, streamText, hstrict]
    rw [load_of_sourceText hmemory, load_of_sourceText hfile]

/-- Behind a mark, memory and a file give the same for the bytes of a text, or refuse them both. -/
theorem load_wellFormed (encoding : Encoding) (text : Text) (document : Document) :
    load .memory (encoding.mark ++ encoding.encode text) = .ok document ↔
      load .file (encoding.mark ++ encoding.encode text) = .ok document := by
  have hmemory : load .memory (encoding.mark ++ encoding.encode text) = parse {} text :=
    load_of_sourceText (memoryText_mark_encode encoding text)
  by_cases hshort : text = [] ∧ ∃ order, encoding = utf16 order
  · obtain ⟨rfl, order, rfl⟩ := hshort
    have hbytes : (utf16 order).mark ++ (utf16 order).encode [] = (utf16 order).mark :=
      List.append_nil _
    rw [hmemory, parse_nil, hbytes, load_file_mark]
    simp
  · have hlong : text ≠ [] ∨ encoding = utf8 := by
      cases encoding with
      | utf8 => exact .inr rfl
      | utf16 order => exact .inl fun hnil => hshort ⟨hnil, order, rfl⟩
    have hfile : load .file (encoding.mark ++ encoding.encode text) = parse {} text :=
      load_of_sourceText (fileText_mark_encode hlong)
    rw [hmemory, hfile]

/-- Memory and a file agree on all bytes that are not malformed behind a mark. -/
theorem load_agree_or_malformed (bytes : Bytes) :
    (∀ document, load .memory bytes = .ok document ↔ load .file bytes = .ok document) ∨
      ∃ (encoding : Encoding) (content : Bytes), bytes = encoding.mark ++ content ∧
        ∀ text, content ≠ encoding.encode text := by
  cases hmarked : marked? bytes with
  | none => exact .inl (load_unmarked hmarked)
  | some found =>
    obtain ⟨encoding, content⟩ := found
    obtain rfl := marked?_eq_some_iff.1 hmarked
    cases hstrict : encoding.strict? content with
    | none => exact .inr ⟨encoding, content, rfl, strict?_eq_none_iff.1 hstrict⟩
    | some text =>
      obtain rfl := strict?_eq_some_iff.1 hstrict
      exact .inl (load_wellFormed encoding text)

/-- Bytes that make a catalog only when what is malformed behind their mark is repaired. -/
def NeedsRepair (bytes : Bytes) : Prop :=
  ∃ (encoding : Encoding) (content : Bytes), bytes = encoding.mark ++ content ∧
    (∀ text, content ≠ encoding.encode text) ∧
    ∃ document, parse {} (encoding.repaired content) = .ok document

/-- **What memory takes, a file takes**, and it gives the same catalog. The converse holds exactly
for bytes that need no repair: malformed bytes behind a mark are refused from memory, and a file
gives what they are repaired to. -/
theorem load_memory_iff_load_file (bytes : Bytes) :
    (∀ document, load .memory bytes = .ok document → load .file bytes = .ok document) ∧
    (∀ (encoding : Encoding) (content : Bytes), bytes = encoding.mark ++ content →
      (∀ text, content ≠ encoding.encode text) →
      load .memory bytes = .error (.malformedBytes encoding) ∧
      load .file bytes = parse {} (encoding.repaired content)) ∧
    ((∀ document, load .memory bytes = .ok document ↔ load .file bytes = .ok document) ↔
      ¬NeedsRepair bytes) := by
  refine ⟨fun document hmemory => ?_, ?_, ?_, fun hrepair => ?_⟩
  · obtain hagree | ⟨encoding, content, rfl, hcontent⟩ := load_agree_or_malformed bytes
    · exact (hagree document).1 hmemory
    · cases (load_malformed hcontent).1.symm.trans hmemory
  · rintro encoding content rfl hcontent
    exact load_malformed hcontent
  · rintro hagree ⟨encoding, content, rfl, hcontent, document, hdocument⟩
    obtain ⟨hmemory, hfile⟩ := load_malformed hcontent
    cases hmemory.symm.trans ((hagree document).2 (hfile.trans hdocument))
  · obtain hagree | ⟨encoding, content, rfl, hcontent⟩ := load_agree_or_malformed bytes
    · exact hagree
    · obtain ⟨hmemory, hfile⟩ := load_malformed hcontent
      refine fun document => ⟨fun hok => ?_, fun hok => ?_⟩
      · cases hmemory.symm.trans hok
      · exact absurd ⟨encoding, content, rfl, hcontent, document, hfile.symm.trans hok⟩ hrepair

/-- A catalog behind the mark of UTF-8 with a message whose id is the byte 0xFF, which is never part
of UTF-8. -/
def strayByte : Bytes :=
  utf8.mark ++ utf8.encode "msgid \"\"\nmsgstr \"Language: ja\\n\"\n\nmsgid \"".toList ++ [0xFF]
    ++ utf8.encode "\"\n".toList

/-- **A file is not refused for malformed bytes behind a mark.** The message gets the replacement
character as its id. -/
theorem load_file_strayByte :
    load .memory strayByte = .error (.malformedBytes .utf8) ∧
    ∃ document, load .file strayByte = .ok document ∧
      document.messages.map Entry.id = [[replacement]] := by
  have hids : (load .file strayByte).map (fun document => document.messages.map Entry.id)
      = .ok [[replacement]] := by decide +kernel
  obtain ⟨document, hdocument, hmessages⟩ := Outcome.map_eq_ok_iff.1 hids
  exact ⟨by decide +kernel, document, hdocument, hmessages.symm⟩

end MessageCatalog.Document
