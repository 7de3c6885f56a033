import MessageCatalog.Encoding.Basic
import MessageCatalog.Proofs.Encoding.Utf16
import MessageCatalog.Proofs.Encoding.Utf8

/-!
# Recognizing what bytes hold

Bytes hold a text in an encoding exactly if the strict reading gives that text
(`Encoding.strict?_eq_some_iff`); then there is nothing to be repaired (`Encoding.repaired_encode`).

A byte order mark is U+FEFF in the encoding that it stands for. It is recognized exactly if it
stands in front (`Encoding.marked?_eq_some_iff`), and in front of UTF-8 none is seen by mistake: the
marks of UTF-16 are no UTF-8, and that of UTF-8 is U+FEFF (`Encoding.marked?_encode`).
-/

namespace MessageCatalog.Encoding

variable {encoding : Encoding} {bytes content : Bytes} {text : Text}

/-! ### Texts -/

theorem decode_eq_iff : encoding.decode bytes = text.map some ↔ bytes = encoding.encode text := by
  cases encoding with
  | utf8 => exact Utf8.inverts.run_eq_iff
  | utf16 order => exact (Utf16.inverts order).run_eq_iff

/-- **The strict reading** gives a text exactly for the bytes that it is stored as. -/
theorem strict?_eq_some_iff : encoding.strict? bytes = some text ↔ bytes = encoding.encode text :=
  strictText?_eq_some_iff.trans decode_eq_iff

theorem strict?_eq_none_iff :
    encoding.strict? bytes = none ↔ ∀ text, bytes ≠ encoding.encode text := by
  simp only [Option.eq_none_iff_forall_ne_some, ne_eq, strict?_eq_some_iff]

theorem strict?_encode (encoding : Encoding) (text : Text) :
    encoding.strict? (encoding.encode text) = some text :=
  strict?_eq_some_iff.2 rfl

/-- Nothing is repaired in the bytes of a text. -/
theorem repaired_encode (encoding : Encoding) (text : Text) :
    encoding.repaired (encoding.encode text) = text := by
  rw [repaired, decode_eq_iff.2 rfl, repairedText_map_some]

theorem encode_append (encoding : Encoding) (a b : Text) :
    encoding.encode (a ++ b) = encoding.encode a ++ encoding.encode b := by
  cases encoding with
  | utf8 => exact List.flatMap_append
  | utf16 order => exact List.flatMap_append

theorem encode_eq_nil_iff (encoding : Encoding) : encoding.encode text = [] ↔ text = [] := by
  have hnil : encoding.strict? [] = some [] := by
    cases encoding with
    | utf8 => rfl
    | utf16 order => rfl
  constructor
  · intro h
    rw [← h, strict?_encode] at hnil
    exact Option.some.inj hnil
  · rintro rfl
    exact (strict?_eq_some_iff.1 hnil).symm

/-! ### Byte order marks -/

/-- A byte order mark is U+FEFF in its encoding. -/
theorem mark_eq (encoding : Encoding) : encoding.mark = encoding.encode ['\ufeff'] := by
  cases encoding with
  | utf8 => rfl
  | utf16 order => cases order <;> rfl

theorem length_mark_utf16 (order : ByteOrder) : (utf16 order).mark.length = 2 := by
  cases order <;> rfl

/-- A byte order mark is recognized exactly if it stands in front. -/
theorem marked?_eq_some_iff :
    marked? bytes = some (encoding, content) ↔ bytes = encoding.mark ++ content := by
  constructor
  · intro h
    unfold marked? at h
    split at h
    · cases h; rfl
    · cases h; rfl
    · cases h; rfl
    · cases h
  · rintro rfl
    cases encoding with
    | utf8 => rfl
    | utf16 order => cases order <;> rfl

/-- The marks of UTF-16 stand in front of no UTF-8. -/
theorem encode_ne_mark_append (order : ByteOrder) (text : Text) (content : Bytes) :
    utf8.encode text ≠ (utf16 order).mark ++ content := by
  intro h
  have hdecode : utf8.decode ((utf16 order).mark ++ content) = text.map some :=
    decode_eq_iff.2 h.symm
  refine ne_map_some_of_none_mem ?_ text hdecode
  cases order with
  | little => exact List.mem_cons_self
  | big => exact List.mem_cons_self

/-- No mark is seen in front of UTF-8 unless the text starts with U+FEFF. -/
theorem marked?_encode (h : text.head? ≠ some '\ufeff') : marked? (utf8.encode text) = none := by
  rw [Option.eq_none_iff_forall_ne_some]
  rintro ⟨encoding, content⟩ hmarked
  rw [marked?_eq_some_iff] at hmarked
  cases encoding with
  | utf8 =>
    have hdecode : utf8.decode (utf8.mark ++ content) = text.map some :=
      decode_eq_iff.2 hmarked.symm
    have hmark : utf8.decode (utf8.mark ++ content) = some '\ufeff' :: utf8.decode content :=
      Utf8.inverts.run_append ['\ufeff'] content
    obtain ⟨c, rest, rfl, hc, -⟩ := List.map_eq_cons_iff.1 (hdecode.symm.trans hmark)
    rw [List.head?_cons] at h
    exact h hc
  | utf16 order => exact encode_ne_mark_append order text content hmarked

end MessageCatalog.Encoding
