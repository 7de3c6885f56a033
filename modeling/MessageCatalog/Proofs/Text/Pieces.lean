import Mathlib.Algebra.Order.BigOperators.Group.List
import Mathlib.Algebra.Order.Ring.Nat
import MessageCatalog.Text.Basic

/-!
# Cutting a text at separators

A text that is cut at every separator falls into pieces that hold none
(`not_cut_of_mem_splitWhere`), and pieces that hold none are what a text falls into that is put
together from them (`splitWhere_join`). The pieces with their separators are as long as the text
(`lengthWithSeparators_splitWhere`, `length_join`). A text that is cut once is cut at its first
separator (`cutAt?_eq_some_iff`).
-/

namespace MessageCatalog.Text

/-! ### Cutting at every separator -/

theorem join_cons_cons (c : Char) (piece next : Text) (more : List Text) :
    join [c] (piece :: next :: more) = piece ++ c :: join [c] (next :: more) := by
  simp [join, List.intercalate]

theorem mem_join {c d : Char} {pieces : List Text} (h : d ∈ join [c] pieces) :
    d = c ∨ ∃ piece ∈ pieces, d ∈ piece := by
  induction pieces with
  | nil => cases h
  | cons piece pieces ih =>
    cases pieces with
    | nil => exact .inr ⟨piece, List.mem_singleton_self piece, by simpa [join] using h⟩
    | cons next more =>
      rw [join_cons_cons, List.mem_append, List.mem_cons] at h
      rcases h with h | h | h
      · exact .inr ⟨piece, List.mem_cons_self, h⟩
      · exact .inl h
      · rcases ih h with h | ⟨other, hother, h⟩
        · exact .inl h
        · exact .inr ⟨other, List.mem_cons_of_mem _ hother, h⟩

section

variable {cut : Char → Bool} {c : Char} {text rest piece : Text} {pieces : List Text}

theorem splitWhere_cut (h : cut c = true) (rest : Text) :
    splitWhere cut (c :: rest) = [] :: splitWhere cut rest := by
  rw [splitWhere, if_pos h]

/-- What is no separator joins the first piece of what follows it. -/
theorem splitWhere_cons (h : cut c = false) (hrest : splitWhere cut rest = piece :: pieces) :
    splitWhere cut (c :: rest) = (c :: piece) :: pieces := by
  rw [splitWhere, if_neg (by simp [h]), hrest]

theorem splitWhere_ne_nil (cut : Char → Bool) (text : Text) : splitWhere cut text ≠ [] := by
  cases text with
  | nil => simp [splitWhere]
  | cons c rest =>
    rw [splitWhere]
    split
    · simp
    · cases splitWhere cut rest <;> simp

/-- The pieces hold no separators. -/
theorem not_cut_of_mem_splitWhere (h : piece ∈ splitWhere cut text) :
    ∀ c ∈ piece, cut c = false := by
  induction text generalizing piece with
  | nil =>
    rw [splitWhere, List.mem_singleton] at h
    simp [h]
  | cons d rest ih =>
    by_cases hd : cut d = true
    · rw [splitWhere_cut hd] at h
      rcases List.mem_cons.1 h with rfl | h
      · simp
      · exact ih h
    · have hd : cut d = false := by simpa using hd
      obtain ⟨first, others, hrest⟩ := List.exists_cons_of_ne_nil (splitWhere_ne_nil cut rest)
      rw [splitWhere_cons hd hrest] at h
      rw [hrest] at ih
      rcases List.mem_cons.1 h with rfl | h
      · exact List.forall_mem_cons.2 ⟨hd, ih List.mem_cons_self⟩
      · exact ih (List.mem_cons_of_mem _ h)

theorem splitWhere_append (hpiece : ∀ c ∈ piece, cut c = false) (hc : cut c = true)
    (rest : Text) : splitWhere cut (piece ++ c :: rest) = piece :: splitWhere cut rest := by
  induction piece with
  | nil => exact splitWhere_cut hc rest
  | cons d piece ih =>
    obtain ⟨hd, hpiece⟩ := List.forall_mem_cons.1 hpiece
    exact splitWhere_cons hd (ih hpiece)

theorem splitWhere_eq_singleton (h : ∀ c ∈ text, cut c = false) :
    splitWhere cut text = [text] := by
  induction text with
  | nil => rfl
  | cons c text ih =>
    obtain ⟨hc, htext⟩ := List.forall_mem_cons.1 h
    exact splitWhere_cons hc (ih htext)

/-- Pieces with a separator between neighbours are the pieces of that text. -/
theorem splitWhere_join (hc : cut c = true) (hpieces : ∀ piece ∈ pieces, ∀ d ∈ piece, cut d = false)
    (hne : pieces ≠ []) : splitWhere cut (join [c] pieces) = pieces := by
  induction pieces with
  | nil => exact absurd rfl hne
  | cons piece pieces ih =>
    obtain ⟨hpiece, hpieces⟩ := List.forall_mem_cons.1 hpieces
    cases pieces with
    | nil =>
      have hjoin : join [c] [piece] = piece := by simp [join, List.intercalate]
      rw [hjoin, splitWhere_eq_singleton hpiece]
    | cons next more =>
      rw [join_cons_cons, splitWhere_append hpiece hc, ih hpieces (List.cons_ne_nil next more)]

end

/-! ### The length of pieces -/

/-- The length of pieces with a separator behind each. -/
def lengthWithSeparators (pieces : List Text) : Nat := (pieces.map (·.length + 1)).sum

theorem lengthWithSeparators_cons (piece : Text) (pieces : List Text) :
    lengthWithSeparators (piece :: pieces) = piece.length + 1 + lengthWithSeparators pieces :=
  List.sum_cons

theorem lengthWithSeparators_splitWhere (cut : Char → Bool) (text : Text) :
    lengthWithSeparators (splitWhere cut text) = text.length + 1 := by
  induction text with
  | nil => rfl
  | cons c rest ih =>
    by_cases hc : cut c = true
    · rw [splitWhere_cut hc, lengthWithSeparators_cons, ih, List.length_cons, List.length_nil]
      omega
    · have hc : cut c = false := by simpa using hc
      obtain ⟨piece, pieces, hrest⟩ := List.exists_cons_of_ne_nil (splitWhere_ne_nil cut rest)
      rw [hrest, lengthWithSeparators_cons] at ih
      rw [splitWhere_cons hc hrest, lengthWithSeparators_cons, List.length_cons, List.length_cons]
      omega

theorem length_join (c : Char) {pieces : List Text} (h : pieces ≠ []) :
    (join [c] pieces).length + 1 = lengthWithSeparators pieces := by
  induction pieces with
  | nil => exact absurd rfl h
  | cons piece pieces ih =>
    cases pieces with
    | nil => simp [join, List.intercalate, lengthWithSeparators]
    | cons next more =>
      have hmore := ih (List.cons_ne_nil next more)
      rw [join_cons_cons, lengthWithSeparators_cons, ← hmore, List.length_append, List.length_cons]
      omega

theorem lengthWithSeparators_le_of_subperm {pieces others : List Text}
    (h : List.Subperm pieces others) :
    lengthWithSeparators pieces ≤ lengthWithSeparators others := by
  obtain ⟨kept, hperm, hsub⟩ := h
  calc lengthWithSeparators pieces = lengthWithSeparators kept := (hperm.map _).sum_eq.symm
    _ ≤ lengthWithSeparators others := (hsub.map _).sum_le_sum fun _ _ => Nat.zero_le _

/-! ### Cutting once -/

/-- A text is cut at its first separator and nowhere else. -/
theorem cutAt?_eq_some_iff {separator : Char} {text before behind : Text} :
    cutAt? separator text = some (before, behind) ↔
      text = before ++ separator :: behind ∧ separator ∉ before := by
  constructor
  · intro h
    refine ⟨eq_append_of_cutAt? h, ?_⟩
    induction text generalizing before with
    | nil => cases h
    | cons c rest ih =>
      by_cases hc : c = separator
      · simp only [cutAt?, hc, if_true, Option.some.injEq, Prod.mk.injEq] at h
        simp [← h.1]
      · simp only [cutAt?, hc, if_false, Option.map_eq_some_iff, Prod.exists, Prod.mk.injEq] at h
        obtain ⟨front, back, hcut, rfl, rfl⟩ := h
        have hfront := ih hcut
        simp [hfront, Ne.symm hc]
  · rintro ⟨rfl, hbefore⟩
    exact cutAt?_append hbefore behind

end MessageCatalog.Text
