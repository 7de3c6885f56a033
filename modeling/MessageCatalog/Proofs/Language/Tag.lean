import MessageCatalog.Language.Tag
import MessageCatalog.Proofs.Outcome
import MessageCatalog.Proofs.Text.Case
import MessageCatalog.Proofs.Text.Pieces

/-!
# Canonical language tags

A tag that is read from subtags is canonical: its subtags are in their standard case, and its
variants ascend (`ofSubtags?_canonical`). Reading takes only the subtags that are there and does not
see their case (`subtags_subperm`, `ofSubtags?_map_lower`).

What a canonical tag is written as is read as that tag again, with one exception: a variant of four
letters that stands directly behind the language is taken for a script (`ofSubtags?_subtags_iff`).
-/

namespace MessageCatalog.LanguageTag

open Text

/-! ### Subtags in their standard case -/

/-- A reader of subtags to which their case does not matter, and which changes nothing else of
them. -/
structure FixesCase (read? : Text → Option Text) : Prop where
  /-- The case of a subtag does not matter. -/
  apply_lower : ∀ subtag, read? (lower subtag) = read? subtag
  /-- What is read differs from the subtag in its case only. -/
  lower_eq : ∀ {subtag value}, read? subtag = some value → lower value = lower subtag

namespace FixesCase

variable {read? : Text → Option Text} (h : FixesCase read?) {subtag value : Text}

include h

/-- What is read is in its standard case. -/
theorem apply_value (hread : read? subtag = some value) : read? value = some value := by
  rw [← h.apply_lower, h.lower_eq hread, h.apply_lower, hread]

end FixesCase

theorem isPlain_of_isAlpha {c : Char} (h : c.isAlpha = true) : isPlain c = true := by
  have hbounds := toNat_of_isAlpha h
  simp [isPlain]
  omega

theorem isPlain_toLower (c : Char) : isPlain c.toLower = isPlain c :=
  apply_toLower (fun _ h => isPlain_of_isAlpha h) c

theorem isSeparator_toLower (c : Char) : isSeparator c.toLower = isSeparator c := by
  rw [isSeparator, isSeparator, decide_eq_decide.2 (toLower_eq_iff (by decide)),
    decide_eq_decide.2 (toLower_eq_iff (by decide))]

theorem isVariantText_lower (subtag : Text) :
    isVariantText (lower subtag) = isVariantText subtag := by
  rw [isVariantText, isVariantText, length_lower, lower_take, lower_drop,
    all_lower isAlphanum_toLower, all_lower isAlphanum_toLower, all_lower isDigit_toLower]

theorem language?_fixesCase : FixesCase language? where
  apply_lower subtag := by
    simp only [language?, length_lower, all_lower Char.isAlpha_toLower_eq_isAlpha, lower_lower]
  lower_eq h := by
    obtain ⟨-, rfl⟩ := Option.ite_some_none_eq_some.1 h
    exact lower_lower _

theorem script?_fixesCase : FixesCase script? where
  apply_lower subtag := by
    simp only [script?, length_lower, all_lower Char.isAlpha_toLower_eq_isAlpha, lower_take,
      lower_drop, upper_lower, lower_lower]
  lower_eq h := by
    obtain ⟨-, rfl⟩ := Option.ite_some_none_eq_some.1 h
    rw [lower_append, lower_upper, lower_lower, ← lower_append, List.take_append_drop]

theorem region?_fixesCase : FixesCase region? where
  apply_lower subtag := by
    simp only [region?, length_lower, all_lower Char.isAlpha_toLower_eq_isAlpha,
      all_lower isDigit_toLower, upper_lower]
  lower_eq h := by
    obtain ⟨-, rfl⟩ := Option.ite_some_none_eq_some.1 h
    exact lower_upper _

theorem variant?_fixesCase : FixesCase variant? where
  apply_lower subtag := by
    simp only [variant?, all_lower isPlain_toLower, isVariantText_lower, lower_lower]
  lower_eq h := by
    obtain ⟨-, rfl⟩ := Option.ite_some_none_eq_some.1 h
    exact lower_lower _

/-! ### The order of variants -/

theorem insertVariant_subperm (variant : Text) (variants : List Text) :
    List.Subperm (insertVariant variant variants) (variant :: variants) := by
  induction variants with
  | nil => exact List.Subperm.refl _
  | cons first rest ih =>
    rw [insertVariant]
    split
    · exact List.Subperm.refl _
    · split
      · exact (List.sublist_cons_self variant (first :: rest)).subperm
      · exact ((List.subperm_cons first).2 ih).trans (List.Perm.swap variant first rest).subperm

/-- Sorting brings no variants in. -/
theorem sortVariants_subperm (variants : List Text) :
    List.Subperm (sortVariants variants) variants := by
  induction variants with
  | nil => exact List.Subperm.refl _
  | cons variant rest ih =>
    exact (insertVariant_subperm variant _).trans ((List.subperm_cons variant).2 ih)

theorem insertVariant_ascending (variant : Text) {variants : List Text}
    (h : variants.Pairwise (· < ·)) : (insertVariant variant variants).Pairwise (· < ·) := by
  induction variants with
  | nil => exact List.pairwise_singleton _ _
  | cons first rest ih =>
    obtain ⟨hfirst, hrest⟩ := List.pairwise_cons.1 h
    rw [insertVariant]
    split
    next hlt =>
      refine List.pairwise_cons.2 ⟨fun other hother => ?_, h⟩
      rcases List.mem_cons.1 hother with rfl | hother
      · exact hlt
      · exact lt_trans hlt (hfirst other hother)
    next hlt =>
      split
      next => exact h
      next hne =>
        refine List.pairwise_cons.2 ⟨fun other hother => ?_, ih hrest⟩
        rcases List.mem_cons.1 ((insertVariant_subperm variant rest).subset hother) with
          rfl | hother
        · exact lt_of_le_of_ne (not_lt.1 hlt) (Ne.symm hne)
        · exact hfirst other hother

/-- Sorted variants ascend, so that none comes twice. -/
theorem sortVariants_ascending (variants : List Text) :
    (sortVariants variants).Pairwise (· < ·) := by
  induction variants with
  | nil => exact List.Pairwise.nil
  | cons variant rest ih => exact insertVariant_ascending variant ih

/-- Ascending variants are sorted already. -/
theorem sortVariants_eq_self {variants : List Text} (h : variants.Pairwise (· < ·)) :
    sortVariants variants = variants := by
  induction variants with
  | nil => rfl
  | cons variant rest ih =>
    obtain ⟨hvariant, hrest⟩ := List.pairwise_cons.1 h
    have hsorted : sortVariants (variant :: rest) = insertVariant variant rest :=
      congrArg (insertVariant variant) (ih hrest)
    rw [hsorted]
    cases rest with
    | nil => rfl
    | cons next more => rw [insertVariant, if_pos (hvariant next List.mem_cons_self)]

/-! ### Reading subtags -/

section

variable {read? : Text → Option Text} {value : Option Text} {subtags rest : List Text}

theorem takeOptional_map_lower (h : FixesCase read?) (subtags : List Text) :
    takeOptional read? (subtags.map lower) =
      ((takeOptional read? subtags).1, (takeOptional read? subtags).2.map lower) := by
  cases subtags with
  | nil => rfl
  | cons subtag rest =>
    rw [List.map_cons, takeOptional, takeOptional, h.apply_lower]
    cases read? subtag <;> rfl

/-- Up to their case, the subtags are what is read followed by the others, and what is read is in
its standard case. -/
theorem takeOptional_spec (h : FixesCase read?)
    (hread : takeOptional read? subtags = (value, rest)) :
    (value.toList ++ rest).map lower = subtags.map lower ∧ ∀ v ∈ value, read? v = some v := by
  cases subtags with
  | nil =>
    obtain ⟨rfl, rfl⟩ := Prod.mk.inj hread
    exact ⟨rfl, by simp⟩
  | cons subtag others =>
    rw [takeOptional] at hread
    split at hread
    next v hv =>
      obtain ⟨rfl, rfl⟩ := Prod.mk.inj hread
      refine ⟨?_, by rintro _ ⟨⟩; exact h.apply_value hv⟩
      rw [Option.toList_some, List.singleton_append, List.map_cons, List.map_cons, h.lower_eq hv]
    next =>
      obtain ⟨rfl, rfl⟩ := Prod.mk.inj hread
      exact ⟨rfl, by simp⟩

/-- A subtag in its standard case is read if it is there, and none is read otherwise, as long as
what follows is of another kind. -/
theorem takeOptional_append (hvalue : ∀ v ∈ value, read? v = some v)
    (hrest : value = none → ∀ subtag ∈ rest.head?, read? subtag = none) :
    takeOptional read? (value.toList ++ rest) = (value, rest) := by
  cases value with
  | some v =>
    rw [Option.toList_some, List.singleton_append, takeOptional, hvalue v rfl]
  | none =>
    cases rest with
    | nil => rfl
    | cons subtag others =>
      rw [Option.toList_none, List.nil_append, takeOptional, hrest rfl subtag rfl]

theorem mapM_map_lower (h : FixesCase read?) (subtags : List Text) :
    (subtags.map lower).mapM read? = subtags.mapM read? := by
  rw [List.mapM_map]
  exact congrArg (subtags.mapM ·) (funext h.apply_lower)

theorem mapM_spec (h : FixesCase read?) {values : List Text}
    (hread : subtags.mapM read? = some values) :
    values.map lower = subtags.map lower ∧ ∀ v ∈ values, read? v = some v := by
  induction subtags generalizing values with
  | nil =>
    obtain rfl := Option.some.inj hread
    exact ⟨rfl, by simp⟩
  | cons subtag subtags ih =>
    rw [List.mapM_cons] at hread
    simp only [Option.bind_eq_bind, Option.bind_eq_some_iff, Option.pure_def,
      Option.some.injEq] at hread
    obtain ⟨v, hv, more, hmore, rfl⟩ := hread
    obtain ⟨hlower, hvalues⟩ := ih hmore
    refine ⟨?_, List.forall_mem_cons.2 ⟨h.apply_value hv, hvalues⟩⟩
    rw [List.map_cons, List.map_cons, h.lower_eq hv, hlower]

end

theorem ofSubtags?_eq_some_iff {first : Text} {rest : List Text} {tag : LanguageTag} :
    ofSubtags? (first :: rest) = some tag ↔ ∃ behindScript behindRegion variants,
      language? first = some tag.language ∧
      takeOptional script? rest = (tag.script, behindScript) ∧
      takeOptional region? behindScript = (tag.region, behindRegion) ∧
      behindRegion.mapM variant? = some variants ∧ sortVariants variants = tag.variants := by
  simp only [ofSubtags?, Option.bind_eq_bind, Option.bind_eq_some_iff, Option.pure_def,
    Option.some.injEq]
  constructor
  · rintro ⟨language, hlanguage, variants, hvariants, rfl⟩
    exact ⟨_, _, variants, hlanguage, rfl, rfl, hvariants, rfl⟩
  · rintro ⟨behindScript, behindRegion, variants, hlanguage, hscript, hregion, hvariants, hsorted⟩
    refine ⟨tag.language, hlanguage, variants, ?_, ?_⟩
    · rw [hscript, hregion, hvariants]
    · rw [hscript, hregion, hsorted]

/-- The case of the subtags does not matter. -/
theorem ofSubtags?_map_lower (subtags : List Text) :
    ofSubtags? (subtags.map lower) = ofSubtags? subtags := by
  cases subtags with
  | nil => rfl
  | cons first rest =>
    rw [List.map_cons, ofSubtags?, ofSubtags?, language?_fixesCase.apply_lower,
      takeOptional_map_lower script?_fixesCase]
    simp only [takeOptional_map_lower region?_fixesCase, mapM_map_lower variant?_fixesCase]

/-! ### Canonical tags -/

/-- The subtags of a tag, in the order in which they are written. -/
def subtags (tag : LanguageTag) : List Text :=
  tag.language :: (tag.script.toList ++ (tag.region.toList ++ tag.variants))

theorem render_eq (tag : LanguageTag) : tag.render = join ['-'] tag.subtags := by
  simp [render, subtags]

/-- Each subtag is in its standard case, and the variants ascend. -/
structure Canonical (tag : LanguageTag) : Prop where
  /-- The language is in its standard case. -/
  language : language? tag.language = some tag.language
  /-- The script is in its standard case. -/
  script : ∀ script ∈ tag.script, script? script = some script
  /-- The region is in its standard case. -/
  region : ∀ region ∈ tag.region, region? region = some region
  /-- The variants are in their standard case. -/
  variant : ∀ variant ∈ tag.variants, variant? variant = some variant
  /-- The variants ascend, so that none comes twice. -/
  ascending : tag.variants.Pairwise (· < ·)

/-- The first variant stands directly behind the language and could as well be a script. -/
def StartsWithScriptLikeVariant (tag : LanguageTag) : Prop :=
  tag.script = none ∧ tag.region = none ∧
    ∃ variant ∈ tag.variants.head?, (script? variant).isSome = true

variable {tag : LanguageTag} {pieces : List Text}

/-- A tag that is read from subtags is canonical. -/
theorem ofSubtags?_canonical (h : ofSubtags? pieces = some tag) : tag.Canonical := by
  cases pieces with
  | nil => cases h
  | cons first rest =>
    obtain ⟨behindScript, behindRegion, variants, hlanguage, hscript, hregion, hvariants,
      hsorted⟩ := ofSubtags?_eq_some_iff.1 h
    exact {
      language := language?_fixesCase.apply_value hlanguage
      script := (takeOptional_spec script?_fixesCase hscript).2
      region := (takeOptional_spec region?_fixesCase hregion).2
      variant := fun variant hvariant => by
        rw [← hsorted] at hvariant
        exact (mapM_spec variant?_fixesCase hvariants).2 variant
          ((sortVariants_subperm variants).subset hvariant)
      ascending := hsorted ▸ sortVariants_ascending variants }

/-- Up to their case, the subtags of a tag are among those from which it is read. -/
theorem subtags_subperm (h : ofSubtags? pieces = some tag) :
    List.Subperm (tag.subtags.map lower) (pieces.map lower) := by
  cases pieces with
  | nil => cases h
  | cons first rest =>
    obtain ⟨behindScript, behindRegion, variants, hlanguage, hscript, hregion, hvariants,
      hsorted⟩ := ofSubtags?_eq_some_iff.1 h
    have hscript := (takeOptional_spec script?_fixesCase hscript).1
    have hregion := (takeOptional_spec region?_fixesCase hregion).1
    have hread := (mapM_spec variant?_fixesCase hvariants).1
    have hsub : List.Subperm (tag.variants.map lower) (variants.map lower) := by
      obtain ⟨kept, hperm, hsub⟩ := sortVariants_subperm variants
      exact hsorted ▸ ⟨kept.map lower, hperm.map lower, hsub.map lower⟩
    rw [List.map_append] at hscript hregion
    rw [subtags, List.map_cons, List.map_cons, language?_fixesCase.lower_eq hlanguage, ← hscript,
      ← hregion, ← hread, List.map_append, List.map_append]
    exact (List.subperm_cons _).2
      ((List.subperm_append_left _).2 ((List.subperm_append_left _).2 hsub))

/-! ### Tags as texts -/

/-- No subtag holds a separator. -/
def Unseparated (subtags : List Text) : Prop :=
  ∀ subtag ∈ subtags, ∀ c ∈ subtag, isSeparator c = false

theorem unseparated_splitWhere (text : Text) : Unseparated (splitWhere isSeparator text) :=
  fun _ hsubtag => not_cut_of_mem_splitWhere hsubtag

theorem Unseparated.subtags (h : Unseparated pieces) (hread : ofSubtags? pieces = some tag) :
    Unseparated tag.subtags := by
  intro subtag hsubtag c hc
  obtain ⟨other, hother, heq⟩ :=
    List.mem_map.1 ((subtags_subperm hread).subset (List.mem_map_of_mem hsubtag))
  have hlower : c.toLower ∈ lower other := heq ▸ List.mem_map_of_mem hc
  obtain ⟨d, hd, hcd⟩ := List.mem_map.1 hlower
  rw [← isSeparator_toLower, ← hcd, isSeparator_toLower]
  exact h other hother d hd

/-- Subtags with hyphens between them are read as such. -/
theorem parse?_join (h : Unseparated pieces) (hne : pieces ≠ []) :
    parse? (join ['-'] pieces) = ofSubtags? pieces := by
  rw [parse?, splitWhere_join rfl h hne]

/-- A tag is written with at most as many characters as it was read from. -/
theorem length_render_le {text : Text} (h : parse? text = some tag) :
    tag.render.length ≤ text.length := by
  have hsub := lengthWithSeparators_le_of_subperm (subtags_subperm h)
  have hlower (texts : List Text) :
      lengthWithSeparators (texts.map lower) = lengthWithSeparators texts := by
    simp [lengthWithSeparators, Function.comp_def]
  have hlength : tag.render.length + 1 = lengthWithSeparators tag.subtags := by
    rw [render_eq]
    exact length_join '-' (List.cons_ne_nil _ _)
  rw [hlower, hlower, ← hlength, lengthWithSeparators_splitWhere] at hsub
  omega

/-! ### Reading a tag from its own subtags -/

variable {subtag value : Text}

theorem letters_of_language? (h : language? subtag = some value) :
    subtag ≠ [] ∧ ∀ c ∈ subtag, c.isAlpha = true := by
  obtain ⟨hshape, -⟩ := Option.ite_some_none_eq_some.1 h
  obtain ⟨hlength, hletters⟩ := Bool.and_eq_true_iff.1 hshape
  refine ⟨?_, List.all_eq_true.1 hletters⟩
  rintro rfl
  cases hlength

theorem length_of_script? (h : script? subtag = some value) : subtag.length = 4 := by
  obtain ⟨hshape, -⟩ := Option.ite_some_none_eq_some.1 h
  simp only [Bool.and_eq_true, decide_eq_true_eq] at hshape
  exact hshape.1

theorem length_of_region? (h : region? subtag = some value) : subtag.length < 4 := by
  obtain ⟨hshape, -⟩ := Option.ite_some_none_eq_some.1 h
  simp only [Bool.and_eq_true, Bool.or_eq_true, decide_eq_true_eq] at hshape
  omega

theorem length_of_variant? (h : variant? subtag = some value) : 4 ≤ subtag.length := by
  obtain ⟨hshape, -⟩ := Option.ite_some_none_eq_some.1 h
  simp only [isVariantText, Bool.and_eq_true, Bool.or_eq_true, decide_eq_true_eq] at hshape
  omega

theorem script?_eq_none_of_region? (h : region? subtag = some value) : script? subtag = none := by
  have hshort := length_of_region? h
  refine Option.eq_none_iff_forall_ne_some.2 fun script hread => ?_
  have hfour := length_of_script? hread
  omega

theorem region?_eq_none_of_variant? (h : variant? subtag = some value) : region? subtag = none := by
  have hlong := length_of_variant? h
  refine Option.eq_none_iff_forall_ne_some.2 fun region hread => ?_
  have hshort := length_of_region? hread
  omega

/-- A canonical tag is read from its own subtags, unless its first variant is taken for a script. -/
theorem ofSubtags?_subtags_iff (h : tag.Canonical) :
    ofSubtags? tag.subtags = some tag ↔ ¬ tag.StartsWithScriptLikeVariant := by
  rw [subtags, ofSubtags?_eq_some_iff]
  constructor
  · rintro ⟨behindScript, behindRegion, variants, -, htake, -⟩
    rintro ⟨hscript, hregion, first, hfirst, hlike⟩
    obtain ⟨script, hread⟩ := Option.isSome_iff_exists.1 hlike
    obtain ⟨rest, hvariants⟩ := List.head?_eq_some_iff.1 hfirst
    rw [hscript, hregion, hvariants, Option.toList_none, List.nil_append, List.nil_append,
      takeOptional, hread] at htake
    cases htake
  · intro hlike
    -- what stands behind the place of a missing script or region is not taken for one
    have hscript (hnone : tag.script = none) :
        ∀ subtag ∈ (tag.region.toList ++ tag.variants).head?, script? subtag = none := by
      intro subtag hhead
      cases hregion : tag.region with
      | some region =>
        rw [hregion] at hhead
        obtain rfl := Option.some.inj hhead
        exact script?_eq_none_of_region? (h.region region hregion)
      | none =>
        rw [hregion] at hhead
        exact Option.not_isSome_iff_eq_none.1 fun hread =>
          hlike ⟨hnone, hregion, subtag, hhead, hread⟩
    have hregion (_ : tag.region = none) :
        ∀ variant ∈ tag.variants.head?, region? variant = none := fun variant hhead =>
      region?_eq_none_of_variant? (h.variant variant (List.mem_of_mem_head? hhead))
    have hvariants : tag.variants.mapM variant? = some tag.variants :=
      (Outcome.mapM_eq_some h.variant).trans (congrArg some (List.map_id _))
    exact ⟨_, _, _, h.language, takeOptional_append h.script hscript,
      takeOptional_append h.region hregion, hvariants, sortVariants_eq_self h.ascending⟩

end MessageCatalog.LanguageTag
