import MessageCatalog.Document.Storage
import MessageCatalog.Proofs.Encoding.Recognition
import MessageCatalog.Proofs.Outcome

/-!
# Reading a stream line by line

A stream need not be held as a whole to be read. Its bytes can be cut at the line feeds and each
line be decoded for itself (`Document.readLines`): in UTF-8, a byte below 0x80 is never a part of a
longer sequence, so no character is cut in two and no line end is seen that is none.

What is read line by line is the catalog, or the error, that the whole stream gives
(`Document.load_stream_eq_readLines`).
-/

namespace MessageCatalog

/-! ### Lines of bytes -/

namespace Utf8

variable {bytes front rest : Bytes} {c : Char}

/-- The lines of bytes, cut as those of a text are. -/
def lines : Bytes → List Bytes
  | [] => []
  | 0x0A :: rest => [] :: lines rest
  | 0x0D :: 0x0A :: rest => [] :: lines rest
  | byte :: rest =>
    match lines rest with
    | [] => [[byte]]
    | line :: more => (byte :: line) :: more

/-- A byte below 0x80 is a character of its own. -/
theorem eq_of_mem_encodeChar {byte : UInt8} (h : byte ∈ encodeChar c) (hbyte : byte.toNat < 0x80) :
    c = Char.ofNat byte.toNat := by
  have hsequence := sequence_encodeChar c
  rw [← Char.ofNat_toNat c]
  generalize encodeChar c = bytes at h hsequence
  cases hsequence with
  | one _ hn => rw [hn, List.mem_singleton.1 h]
  | two ha ha' hb _ =>
    unfold IsTrail at hb
    simp only [List.mem_cons, List.not_mem_nil, or_false] at h
    obtain rfl | rfl := h <;> omega
  | three ha ha' hb _ _ hc _ =>
    unfold IsTrail at hb hc
    simp only [List.mem_cons, List.not_mem_nil, or_false] at h
    obtain rfl | rfl | rfl := h <;> omega
  | four ha ha' hb _ _ hc hd _ =>
    unfold IsTrail at hb hc hd
    simp only [List.mem_cons, List.not_mem_nil, or_false] at h
    obtain rfl | rfl | rfl | rfl := h <;> omega

theorem encodeChar_ne_nil (c : Char) : encodeChar c ≠ [] := by
  intro hnil
  have hsequence := sequence_encodeChar c
  rw [hnil] at hsequence
  cases hsequence

/-- Bytes without a line end belong to the first line. -/
theorem lines_append (hne : front ≠ []) (hfeed : 0x0A ∉ front)
    (hreturn : 0x0D ∈ front → rest.head? ≠ some 0x0A) :
    lines (front ++ rest) = match lines rest with
      | [] => [front]
      | line :: more => (front ++ line) :: more := by
  induction front with
  | nil => exact absurd rfl hne
  | cons byte front ih =>
    have hbyte : byte ≠ 0x0A := fun heq => hfeed (heq ▸ List.mem_cons_self)
    have hfeed' : 0x0A ∉ front := fun hmem => hfeed (List.mem_cons_of_mem _ hmem)
    have hend : ∀ tail, byte = 0x0D → front ++ rest = 0x0A :: tail → False := by
      intro tail heq htail
      cases front with
      | nil =>
        rw [List.nil_append] at htail
        exact hreturn (heq ▸ List.mem_cons_self) (by rw [htail]; rfl)
      | cons next front =>
        rw [List.cons_append, List.cons.injEq] at htail
        exact hfeed' (htail.1 ▸ List.mem_cons_self)
    rw [List.cons_append, lines.eq_4 byte (front ++ rest) hbyte hend]
    cases front with
    | nil => rfl
    | cons next front =>
      rw [ih (List.cons_ne_nil _ _) hfeed' fun hmem => hreturn (List.mem_cons_of_mem _ hmem)]
      cases lines rest with
      | nil => rfl
      | cons line more => rfl

theorem head?_encode_ne {text : Text} (h : text.head? ≠ some '\n') :
    (encode text).head? ≠ some 0x0A := by
  cases text with
  | nil => exact nofun
  | cons c text =>
    intro hhead
    rw [encode, List.flatMap_cons, List.head?_append_of_ne_nil _ (encodeChar_ne_nil c)] at hhead
    exact h (congrArg some (eq_of_mem_encodeChar (List.mem_of_head? hhead) (by decide)))

/-- A character that is no line end belongs to the first line. -/
theorem lines_encode_cons {rest : Text} (hfeed : c ≠ '\n')
    (hreturn : ∀ tail, c = '\r' → rest ≠ '\n' :: tail) :
    lines (encode (c :: rest)) = match lines (encode rest) with
      | [] => [encodeChar c]
      | line :: more => (encodeChar c ++ line) :: more := by
  rw [encode, List.flatMap_cons, ← encode]
  refine lines_append (encodeChar_ne_nil c) (fun hmem => ?_) fun hmem =>
    head?_encode_ne fun hhead => ?_
  · exact hfeed (eq_of_mem_encodeChar hmem (by decide))
  · obtain ⟨tail, htail⟩ := List.head?_eq_some_iff.1 hhead
    exact hreturn tail (eq_of_mem_encodeChar hmem (by decide)) htail

/-- The bytes of a text are cut where the text is cut. -/
theorem lines_encode (text : Text) : lines (encode text) = (Text.lines text).map encode := by
  induction text using Text.lines.induct with
  | case1 => rfl
  | case2 rest ih =>
    have hbytes : encode ('\n' :: rest) = 0x0A :: encode rest := rfl
    rw [hbytes, lines, Text.lines, List.map_cons, ih]
    rfl
  | case3 rest ih =>
    have hbytes : encode ('\r' :: '\n' :: rest) = 0x0D :: 0x0A :: encode rest := rfl
    rw [hbytes, lines, Text.lines, List.map_cons, ih]
    rfl
  | case4 c rest hfeed hreturn hnil ih =>
    rw [lines_encode_cons hfeed hreturn, ih, Text.lines.eq_4 c rest hfeed hreturn, hnil]
    simp [encode]
  | case5 c rest hfeed hreturn line more hlines ih =>
    rw [lines_encode_cons hfeed hreturn, ih, Text.lines.eq_4 c rest hfeed hreturn, hlines]
    simp [encode]

theorem lines_eq_nil (h : lines bytes = []) : bytes = [] := by
  cases bytes using lines.fun_cases with
  | case1 => rfl
  | case2 rest => cases h
  | case3 rest => cases h
  | case4 byte rest hfeed hreturn hnil =>
    rw [lines.eq_4 byte rest hfeed hreturn, hnil] at h
    cases h
  | case5 byte rest hfeed hreturn line more hlines =>
    rw [lines.eq_4 byte rest hfeed hreturn, hlines] at h
    cases h

/-- Between the first line and the bytes of the others stands nothing but the end of the line. -/
theorem exists_end_of_lines {first : Bytes} {more : List Bytes} (h : lines bytes = first :: more) :
    ∃ (ending : Text) (rest : Bytes),
      bytes = first ++ (encode ending ++ rest) ∧ lines rest = more := by
  induction bytes using lines.induct generalizing first with
  | case1 => cases h
  | case2 rest ih =>
    rw [lines, List.cons.injEq] at h
    exact ⟨['\n'], rest, by rw [← h.1]; rfl, h.2⟩
  | case3 rest ih =>
    rw [lines, List.cons.injEq] at h
    exact ⟨['\r', '\n'], rest, by rw [← h.1]; rfl, h.2⟩
  | case4 byte rest hfeed hreturn hnil ih =>
    rw [lines.eq_4 byte rest hfeed hreturn, hnil, List.cons.injEq] at h
    exact ⟨[], rest, by rw [← h.1]; rfl, hnil.trans h.2⟩
  | case5 byte rest hfeed hreturn line others hlines ih =>
    rw [lines.eq_4 byte rest hfeed hreturn, hlines, List.cons.injEq] at h
    obtain ⟨rfl, rfl⟩ := h
    obtain ⟨ending, behind, hrest, hmore⟩ := ih hlines
    exact ⟨ending, behind, by rw [hrest]; rfl, hmore⟩

/-- Bytes are UTF-8 if each of their lines is. -/
theorem exists_encode_of_lines (h : ∀ line ∈ lines bytes, ∃ text, line = encode text) :
    ∃ text, bytes = encode text := by
  generalize hlines : lines bytes = all at h
  induction all generalizing bytes with
  | nil => exact ⟨[], lines_eq_nil hlines⟩
  | cons first more ih =>
    obtain ⟨ending, rest, rfl, hmore⟩ := exists_end_of_lines hlines
    obtain ⟨head, rfl⟩ := h first List.mem_cons_self
    obtain ⟨tail, rfl⟩ := ih hmore fun line hmem => h line (List.mem_cons_of_mem _ hmem)
    exact ⟨head ++ (ending ++ tail), by simp [encode]⟩

end Utf8

/-! ### Reading -/

namespace Document

variable {bytes : Bytes} {text : Text}

theorem streamText_eq_ok_iff : streamText bytes = .ok text ↔ bytes = Encoding.utf8.encode text := by
  rw [← Encoding.strict?_eq_some_iff, streamText]
  cases Encoding.utf8.strict? bytes with
  | none => simp
  | some other => simp

theorem streamText_encode (text : Text) : streamText (Encoding.utf8.encode text) = .ok text :=
  streamText_eq_ok_iff.2 rfl

theorem eq_malformedStream {e : CatalogError} (h : streamText bytes = .error e) :
    e = .malformedStream := by
  unfold streamText at h
  split at h
  · cases h
  · cases h
    rfl

/-- A stream decodes line by line to the lines of its text, and one that is malformed has a
malformed line. -/
theorem mapM_streamText_lines (bytes : Bytes) :
    (Utf8.lines bytes).mapM streamText = (streamText bytes).map Text.lines := by
  cases hbytes : streamText bytes with
  | ok text =>
    obtain rfl := streamText_eq_ok_iff.1 hbytes
    have hlines : Utf8.lines (Encoding.utf8.encode text) = (Text.lines text).map Utf8.encode :=
      Utf8.lines_encode text
    have hdecode := Outcome.mapM_eq_ok streamText_encode (Text.lines text)
    rw [hlines, List.mapM_map]
    exact hdecode.trans (by rw [List.map_id']; rfl)
  | error e =>
    obtain rfl := eq_malformedStream hbytes
    -- if every line were UTF-8, the whole would be
    obtain ⟨line, hmem, hline⟩ :
        ∃ line ∈ Utf8.lines bytes, streamText line = .error .malformedStream := by
      by_contra hnone
      have hlines : ∀ line ∈ Utf8.lines bytes, ∃ text, line = Utf8.encode text := by
        intro line hmem
        cases hline : streamText line with
        | ok text => exact ⟨text, streamText_eq_ok_iff.1 hline⟩
        | error e =>
          obtain rfl := eq_malformedStream hline
          exact absurd ⟨line, hmem, hline⟩ hnone
      obtain ⟨text, rfl⟩ := Utf8.exists_encode_of_lines hlines
      cases hbytes.symm.trans (streamText_encode text)
    have hfails : ∀ line e, streamText line = .error e → e = .malformedStream := fun _ _ =>
      eq_malformedStream
    exact Outcome.mapM_eq_error hfails hmem hline

/-- Lines without the mark that may stand in front of the first. -/
def unmarked : List Text → List Text
  | [] => []
  | first :: rest => Text.dropMark byteOrderMark first :: rest

/-- Reads a catalog from a stream, decoding each line for itself. -/
def readLines (bytes : Bytes) : Except CatalogError Document := do
  let texts ← (Utf8.lines bytes).mapM streamText
  let entries ← Assembly.entries (unmarked texts)
  ofEntries {} entries

/-- **A stream can be read line by line.** -/
theorem load_stream_eq_readLines (bytes : Bytes) : load .stream bytes = readLines bytes := by
  rw [readLines, mapM_streamText_lines]
  show streamText bytes >>= parse {} = _
  cases streamText bytes with
  | error e => rfl
  | ok text => rfl

end Document

end MessageCatalog
