import Mathlib
import MessageCatalog.Text.Blank

/-!
# Letter case and blanks around a text

Bringing the letters of a text to lower case changes nothing that does not look at the case, such as
which characters are blanks or where a text is split. A text with blanks around it is the text
itself once they are removed (`trim_append_blanks`), and a text without blanks at its ends is not
changed by removing them (`trim_eq_self`).
-/

namespace MessageCatalog.Text

/-! ### Letter case -/

theorem toNat_of_isAlpha {c : Char} (h : c.isAlpha = true) :
    (65 ≤ c.toNat ∧ c.toNat ≤ 90) ∨ (97 ≤ c.toNat ∧ c.toNat ≤ 122) := by
  simpa [Char.isAlpha, Char.isUpper, Char.isLower, UInt32.le_iff_toNat_le] using h

/-- What is the same for all letters does not see their case. -/
theorem apply_toLower {α : Type} {f : Char → α} {a : α} (h : ∀ c : Char, c.isAlpha = true → f c = a)
    (c : Char) : f c.toLower = f c := by
  by_cases hc : c.isUpper = true
  · have halpha : c.isAlpha = true := by rw [Char.isAlpha, hc, Bool.true_or]
    have hlower : c.toLower.isAlpha = true := (Char.isAlpha_toLower_eq_isAlpha c).trans halpha
    rw [h _ hlower, h _ halpha]
  · rw [Char.toLower_eq_of_not_isUpper hc]

theorem not_isBlank_of_isAlpha {c : Char} (h : c.isAlpha = true) : isBlank c = false := by
  have hbounds := toNat_of_isAlpha h
  simp [isBlank]
  omega

theorem not_isBlank_of_isAlphanum {c : Char} (h : c.isAlphanum = true) : isBlank c = false := by
  rcases Bool.or_eq_true_iff.1 h with halpha | hdigit
  · exact not_isBlank_of_isAlpha halpha
  · have hbounds : 48 ≤ c.toNat ∧ c.toNat ≤ 57 := Char.isDigit_iff_toNat.1 hdigit
    simp [isBlank]
    omega

theorem isAlphanum_of_isAlpha {c : Char} (h : c.isAlpha = true) : c.isAlphanum = true := by
  rw [Char.isAlphanum, h, Bool.true_or]

theorem not_isDigit_of_isAlpha {c : Char} (h : c.isAlpha = true) : c.isDigit = false := by
  have hbounds := toNat_of_isAlpha h
  simp [Char.isDigit, UInt32.le_iff_toNat_le]
  omega

theorem isDigit_toLower (c : Char) : c.toLower.isDigit = c.isDigit :=
  apply_toLower (fun _ h => not_isDigit_of_isAlpha h) c

theorem isAlphanum_toLower (c : Char) : c.toLower.isAlphanum = c.isAlphanum := by
  rw [Char.isAlphanum, Char.isAlphanum, Char.isAlpha_toLower_eq_isAlpha, isDigit_toLower]

theorem isBlank_toLower (c : Char) : isBlank c.toLower = isBlank c :=
  apply_toLower (fun _ h => not_isBlank_of_isAlpha h) c

/-- The case of letters is of no account for a character that is none. -/
theorem toLower_eq_iff {c d : Char} (h : d.isAlpha = false) : c.toLower = d ↔ c = d := by
  have hne (c : Char) (hc : c.isAlpha = true) : (c = d) = False :=
    eq_false fun heq => by simp [← heq, hc] at h
  exact iff_of_eq (apply_toLower hne c)

@[simp] theorem lower_lower (text : Text) : lower (lower text) = lower text := by
  simp [lower]

@[simp] theorem length_lower (text : Text) : (lower text).length = text.length := List.length_map _

@[simp] theorem lower_upper (text : Text) : lower (upper text) = lower text := by
  simp [lower, upper]

theorem lower_append (front back : Text) : lower (front ++ back) = lower front ++ lower back :=
  List.map_append

theorem lower_take (n : Nat) (text : Text) : (lower text).take n = lower (text.take n) :=
  List.map_take.symm

theorem lower_drop (n : Nat) (text : Text) : (lower text).drop n = lower (text.drop n) :=
  List.map_drop.symm

@[simp] theorem upper_lower (text : Text) : upper (lower text) = upper text := by
  simp [lower, upper]

section

variable {p : Char → Bool} (h : ∀ c : Char, p c.toLower = p c)

include h

theorem all_lower (text : Text) : (lower text).all p = text.all p := by
  simp [lower, Function.comp_def, h]

theorem takeWhile_lower (text : Text) :
    (lower text).takeWhile p = lower (text.takeWhile p) := by
  simp [lower, List.takeWhile_map, Function.comp_def, h]

theorem dropWhile_lower (text : Text) :
    (lower text).dropWhile p = lower (text.dropWhile p) := by
  simp [lower, List.dropWhile_map, Function.comp_def, h]

theorem splitWhere_lower (text : Text) :
    splitWhere p (lower text) = (splitWhere p text).map lower := by
  induction text with
  | nil => rfl
  | cons c text ih =>
    show splitWhere p (c.toLower :: lower text) = _
    rw [splitWhere, splitWhere, h, ih]
    split
    · rfl
    · cases splitWhere p text <;> rfl

end

theorem trim_lower (text : Text) : trim (lower text) = lower (trim text) := by
  have hreverse (text : Text) : (lower text).reverse = lower text.reverse := List.map_reverse.symm
  rw [trim, trim, trimStart, trimStart, trimEnd, trimEnd, dropWhile_lower isBlank_toLower,
    hreverse, dropWhile_lower isBlank_toLower, hreverse]

/-! ### Blanks around a text -/

theorem trimEnd_append_blanks {trail : Text} (h : trail.all isBlank = true) (text : Text) :
    trimEnd (text ++ trail) = trimEnd text := by
  have hall : ∀ c ∈ trail.reverse, isBlank c = true := fun c hc =>
    List.all_eq_true.1 h c (List.mem_reverse.1 hc)
  rw [trimEnd, trimEnd, List.reverse_append, List.dropWhile_append_of_pos hall]

/-- Removing the blanks around a text removes more blanks around it, too. -/
theorem trim_append_blanks {lead trail : Text} (hlead : lead.all isBlank = true)
    (htrail : trail.all isBlank = true) (text : Text) :
    trim (lead ++ (text ++ trail)) = trim text := by
  rw [trim, trim, trimStart, trimStart,
    List.dropWhile_append_of_pos (List.all_eq_true.1 hlead), List.dropWhile_append]
  cases hstart : text.dropWhile isBlank with
  | nil =>
    -- the text holds blanks only, and so does what follows it
    rw [List.dropWhile_eq_nil_iff.2 (List.all_eq_true.1 htrail)]
    rfl
  | cons c rest => exact trimEnd_append_blanks htrail (c :: rest)

/-- A text without blanks at its ends is kept. -/
theorem trim_eq_self {text : Text} (hfirst : ∀ c ∈ text.head?, isBlank c = false)
    (hlast : ∀ c ∈ text.getLast?, isBlank c = false) : trim text = text := by
  have hkeep {text : Text} (h : ∀ c ∈ text.head?, isBlank c = false) :
      text.dropWhile isBlank = text := by
    cases text with
    | nil => rfl
    | cons c rest => simp [h c rfl]
  have hback : ∀ c ∈ text.reverse.head?, isBlank c = false := by
    rwa [List.head?_reverse]
  rw [trim, trimStart, hkeep hfirst, trimEnd, hkeep hback, List.reverse_reverse]

theorem trim_of_not_blank {text : Text} (h : ∀ c ∈ text, isBlank c = false) : trim text = text :=
  trim_eq_self (fun c hc => h c (List.mem_of_mem_head? hc))
    (fun c hc => h c (List.mem_of_mem_getLast? hc))

theorem trim_sublist (text : Text) : List.Sublist (trim text) text := by
  have hstart : List.Sublist (trimStart text) text := List.dropWhile_sublist isBlank
  have hend : List.Sublist (trimEnd (trimStart text)) (trimStart text) := by
    have hreverse := (List.dropWhile_sublist isBlank (l := (trimStart text).reverse)).reverse
    rwa [List.reverse_reverse] at hreverse
  exact hend.trans hstart

/-- Removing blanks at the end of a text does not go beyond a character that is none. -/
theorem trimEnd_append_cons {c : Char} (hc : isBlank c = false) (front rest : Text) :
    trimEnd (front ++ c :: rest) = front ++ c :: trimEnd rest := by
  have hreverse : (front ++ c :: rest).reverse = rest.reverse ++ c :: front.reverse := by simp
  have hkeep : (c :: front.reverse).dropWhile isBlank = c :: front.reverse := by simp [hc]
  rw [trimEnd, trimEnd, hreverse, List.dropWhile_append, hkeep]
  cases rest.reverse.dropWhile isBlank with
  | nil => simp
  | cons d kept => simp

end MessageCatalog.Text
