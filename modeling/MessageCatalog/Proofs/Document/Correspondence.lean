import Mathlib.Data.List.Forall2
import MessageCatalog.Proofs.Document.Division

/-!
# Lines of the same kind are divided alike

The division of a catalog looks at four things of a line: whether it has content, whether it
introduces a context, whether it introduces an id, and whether it is blank. If two catalogs have
lines that agree in these, line by line, they are settled alike, cut at the same places and handed
over alike.

This is said for any relation `R` between lines that holds only for lines of the same kind: if the
lines of two catalogs are related one by one, so are the lines of their runs, one by one and run by
run (`forall₂_runs`). Each step of the division has a lemma of its own.
-/

namespace MessageCatalog.Division

/-- The two lines are treated alike by the division. -/
structure SameKind (a b : Line) : Prop where
  /-- Both have content or neither has. -/
  content : a.hasContent = b.hasContent
  /-- Both introduce a context or neither does. -/
  context : a.isContext = b.isContext
  /-- Both introduce an id or neither does. -/
  id : a.isId = b.isId
  /-- Both are blank or neither is. -/
  blank : a.isBlank = b.isBlank

theorem SameKind.awaits_eq {a b : Line} (h : SameKind a b) (waiting : Bool) :
    awaits waiting a = awaits waiting b := by
  unfold awaits
  rw [h.context, h.id]

theorem SameKind.opens_eq {a b : Line} (h : SameKind a b) (waiting : Bool) :
    opens waiting a = opens waiting b := by
  unfold opens
  rw [h.context, h.id]

theorem SameKind.isText_eq {a b : Line} (h : SameKind a b) : isText a = isText b := by
  unfold isText
  rw [h.blank]

/-- Whether the contexts are answered depends on the kinds of the lines only. -/
theorem answered_congr {as bs : List Line} (h : List.Forall₂ SameKind as bs) (waiting : Bool) :
    answered waiting as = answered waiting bs := by
  induction h generalizing waiting with
  | nil => rfl
  | cons hkind _ ih => rw [answered, answered, hkind.awaits_eq, hkind.context, ih]

/-! ### Related lines -/

variable {R : Line → Line → Prop}

theorem forall₂_takeWhile {p : Line → Bool} (hp : ∀ a b, R a b → p a = p b) {as bs : List Line}
    (h : List.Forall₂ R as bs) : List.Forall₂ R (as.takeWhile p) (bs.takeWhile p) := by
  induction h with
  | nil => exact List.Forall₂.nil
  | @cons a b as bs hhead _ ih =>
    by_cases hb : p b = true
    · rw [List.takeWhile_cons_of_pos hb, List.takeWhile_cons_of_pos ((hp a b hhead).trans hb)]
      exact List.Forall₂.cons hhead ih
    · rw [List.takeWhile_cons_of_neg hb, List.takeWhile_cons_of_neg (hp a b hhead ▸ hb)]
      exact List.Forall₂.nil

theorem forall₂_dropWhile {p : Line → Bool} (hp : ∀ a b, R a b → p a = p b) {as bs : List Line}
    (h : List.Forall₂ R as bs) : List.Forall₂ R (as.dropWhile p) (bs.dropWhile p) := by
  induction h with
  | nil => exact List.Forall₂.nil
  | @cons a b as bs hhead htail ih =>
    by_cases hb : p b = true
    · rw [List.dropWhile_cons_of_pos hb, List.dropWhile_cons_of_pos ((hp a b hhead).trans hb)]
      exact ih
    · rw [List.dropWhile_cons_of_neg hb, List.dropWhile_cons_of_neg (hp a b hhead ▸ hb)]
      exact List.Forall₂.cons hhead htail

variable (hR : ∀ a b, R a b → SameKind a b)
include hR

/-! ### Settling -/

theorem forall₂_sink {a b : Line} {as bs : List Line} (hhead : R a b)
    (h : List.Forall₂ R as bs) : List.Forall₂ R (sink a as) (sink b bs) := by
  cases h with
  | nil => exact List.Forall₂.cons hhead List.Forall₂.nil
  | @cons next other as bs hnext htail =>
    have hid : next.isId = other.isId := (hR next other hnext).id
    by_cases hother : other.isId = true
    · rw [sink_of_isId hother, sink_of_isId (hid.trans hother)]
      exact List.Forall₂.cons hnext (List.Forall₂.cons hhead htail)
    · rw [Bool.not_eq_true] at hother
      rw [sink_of_not_isId hother, sink_of_not_isId (hid.trans hother)]
      exact List.Forall₂.cons hhead (List.Forall₂.cons hnext htail)

theorem forall₂_settle {as bs : List Line} (h : List.Forall₂ R as bs) (waiting : Bool) :
    List.Forall₂ R (settle waiting as) (settle waiting bs) := by
  induction h generalizing waiting with
  | nil => exact List.Forall₂.nil
  | @cons a b as bs hhead _ ih =>
    have hkind := hR a b hhead
    rw [settle, settle, hkind.awaits_eq, hkind.content]
    split
    · exact forall₂_sink hR hhead (ih _)
    · exact List.Forall₂.cons hhead (ih _)

/-! ### Cutting -/

theorem forall₂_pieces {as bs : List Line} (h : List.Forall₂ R as bs) (waiting : Bool) :
    List.Forall₂ R (pieces waiting as).1 (pieces waiting bs).1 ∧
      List.Forall₂ (List.Forall₂ R) (pieces waiting as).2 (pieces waiting bs).2 := by
  induction h generalizing waiting with
  | nil => exact ⟨List.Forall₂.nil, List.Forall₂.nil⟩
  | @cons a b as bs hhead _ ih =>
    have hkind := hR a b hhead
    obtain ⟨hfirst, hmore⟩ := ih (awaits waiting b)
    by_cases hopens : opens waiting b = true
    · rw [pieces_of_opens hopens, pieces_of_opens ((hkind.opens_eq waiting).trans hopens),
        hkind.awaits_eq]
      exact ⟨List.Forall₂.nil, List.Forall₂.cons (List.Forall₂.cons hhead hfirst) hmore⟩
    · rw [Bool.not_eq_true] at hopens
      rw [pieces_of_not_opens hopens, pieces_of_not_opens ((hkind.opens_eq waiting).trans hopens),
        hkind.awaits_eq]
      exact ⟨List.Forall₂.cons hhead hfirst, hmore⟩

/-! ### Handing over -/

theorem forall₂_ending {as bs : List Line} (h : List.Forall₂ R as bs) :
    List.Forall₂ R (ending as) (ending bs) := by
  refine List.forall₂_reverse_iff.2 (forall₂_takeWhile ?_ (List.forall₂_reverse_iff.2 h))
  intro a b hab
  rw [(hR a b hab).content]

theorem forall₂_kept {as bs : List Line} (h : List.Forall₂ R as bs) :
    List.Forall₂ R (kept as) (kept bs) := by
  refine List.rel_append ?_ ?_
  · refine List.forall₂_reverse_iff.2 (forall₂_dropWhile ?_ (List.forall₂_reverse_iff.2 h))
    intro a b hab
    rw [(hR a b hab).content]
  · exact forall₂_takeWhile (fun a b hab => (hR a b hab).isText_eq) (forall₂_ending hR h)

theorem forall₂_passed {as bs : List Line} (h : List.Forall₂ R as bs) :
    List.Forall₂ R (passed as) (passed bs) :=
  forall₂_dropWhile (fun a b hab => (hR a b hab).isText_eq) (forall₂_ending hR h)

theorem forall₂_handOver {a b : List Line} {as bs : List (List Line)} (hpiece : List.Forall₂ R a b)
    (h : List.Forall₂ (List.Forall₂ R) as bs) :
    List.Forall₂ (List.Forall₂ R) (handOver a as) (handOver b bs) := by
  induction h generalizing a b with
  | nil => exact List.Forall₂.cons hpiece List.Forall₂.nil
  | cons hnext _ ih =>
    exact List.Forall₂.cons (forall₂_kept hR hpiece)
      (ih (List.rel_append (forall₂_passed hR hpiece) hnext))

/-- **Related lines have related runs.** -/
theorem forall₂_runs {as bs : List Line} (h : List.Forall₂ R as bs) :
    List.Forall₂ (List.Forall₂ R) (runs as) (runs bs) := by
  obtain ⟨hlead, hmore⟩ := forall₂_pieces hR (forall₂_settle hR h false) false
  unfold runs
  cases hp : pieces false (settle false as) with
  | mk lead cut =>
    cases hq : pieces false (settle false bs) with
    | mk lead' cut' =>
      rw [hp, hq] at hlead hmore
      cases hmore with
      | nil => exact List.Forall₂.cons hlead List.Forall₂.nil
      | cons hheader hrest =>
        exact forall₂_handOver hR (List.rel_append hlead hheader) hrest

end MessageCatalog.Division
