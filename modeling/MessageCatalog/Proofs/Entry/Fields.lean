import Mathlib.Data.List.Basic
import MessageCatalog.Proofs.Document.Division

/-!
# Which fields lines hold

The fields of a run of lines are found through its blocks, but they can be read off the lines one by
one: each line with the keyword of a field gives that field (`fields_eq_filterMap`). So a field
comes as often as lines have its keyword (`count_fields`), it has a text exactly if one line has
(`textOf?_eq_none_iff`), and it is repeated only if two have (`two_le_countP_of_firstRepeat`).
-/

namespace MessageCatalog

namespace Line

/-- Whether the logical line has the keyword of a field. -/
def introduces (field : Field) (line : Line) : Bool := line.logical.keyword = some field.keyword

theorem isContext_eq_introduces : isContext = introduces .context := rfl

theorem isId_eq_introduces : isId = introduces .id := rfl

/-- The field that a line introduces, if its keyword is one of an entry. -/
def field? (line : Line) : Option Field := line.logical.keyword.bind Keyword.field?

theorem field?_eq_some_iff {line : Line} {field : Field} :
    line.field? = some field ↔ line.introduces field = true := by
  rw [field?, Option.bind_eq_some_iff, introduces, decide_eq_true_iff]
  constructor
  · rintro ⟨keyword, hkeyword, hfield⟩
    rw [hkeyword, Keyword.field?_eq_some_iff.1 hfield]
  · intro hkeyword
    exact ⟨field.keyword, hkeyword, Keyword.field?_eq_some_iff.2 rfl⟩

end Line

namespace Block

/-- The keywords of the blocks are those of the lines. -/
theorem map_keyword_ofLines (lines : List Line) :
    (ofLines lines).map keyword = lines.filterMap fun line => line.logical.keyword := by
  induction lines with
  | nil => rfl
  | cons line lines ih =>
    unfold ofLines at ih ⊢
    rw [gather]
    cases hkeyword : line.logical.keyword with
    | none => simpa [hkeyword] using ih
    | some keyword => simpa [hkeyword] using ih

end Block

namespace Entry

variable {lines : List Line} {field : Field}

/-- Each line with the keyword of a field gives that field. -/
theorem fields_eq_filterMap (lines : List Line) : fields lines = lines.filterMap Line.field? := by
  have hblocks : fields lines
      = ((Block.ofLines lines).map Block.keyword).filterMap Keyword.field? :=
    (List.filterMap_map ..).symm
  rw [hblocks, Block.map_keyword_ofLines, List.filterMap_filterMap]
  rfl

/-- A field comes as often as lines have its keyword. -/
theorem count_fields (lines : List Line) (field : Field) :
    (fields lines).count field = lines.countP (Line.introduces field) := by
  rw [fields_eq_filterMap, List.count_filterMap]
  refine List.countP_congr fun line _ => ?_
  rw [beq_iff_eq]
  exact Line.field?_eq_some_iff

theorem textOf?_eq_none_iff :
    Block.textOf? (Block.ofLines lines) field = none ↔
      ∀ line ∈ lines, line.introduces field = false := by
  have hfields : Block.textOf? (Block.ofLines lines) field = none ↔ field ∉ fields lines := by
    simp [Block.textOf?, fields]
  rw [hfields, fields_eq_filterMap, List.mem_filterMap, not_exists]
  constructor
  · intro h line hmem
    rw [← Bool.not_eq_true, ← Line.field?_eq_some_iff]
    exact fun hline => h line ⟨hmem, hline⟩
  · rintro h line ⟨hmem, hline⟩
    rw [Line.field?_eq_some_iff, h line hmem] at hline
    cases hline

theorem two_le_count_of_firstRepeat {α : Type} [DecidableEq α] {seen elements : List α} {a : α}
    (h : firstRepeat seen elements = some a) : 2 ≤ (seen ++ elements).count a := by
  induction elements generalizing seen with
  | nil => cases h
  | cons b elements ih =>
    rw [firstRepeat] at h
    split at h
    next hseen =>
      obtain rfl := Option.some.inj h
      have := List.count_pos_iff.2 hseen
      rw [List.count_append, List.count_cons_self]
      omega
    next =>
      have := ih h
      rwa [List.perm_middle.count_eq]

/-- A field is repeated only if two lines have its keyword. -/
theorem two_le_countP_of_firstRepeat (h : firstRepeat [] (fields lines) = some field) :
    2 ≤ lines.countP (Line.introduces field) := by
  rw [← count_fields]
  exact two_le_count_of_firstRepeat h

end Entry

end MessageCatalog
