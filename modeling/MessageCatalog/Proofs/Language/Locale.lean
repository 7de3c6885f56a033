import MessageCatalog.Language.Locale
import MessageCatalog.Proofs.Language.Tag
import MessageCatalog.Proofs.Line.Reading

/-!
# Normal forms of the values that name a language

Texts that are read as the name of a locale are exactly those that are put together from its parts
(`parse?_eq_some_iff`), so it is known which values are read as names and which as language tags. A
name stands for the tag with its subtags (`WellFormed.normalize?_written`), and letters with hyphens
behind them are a tag themselves (`normalize?_join`).

Reading a value does not see the case of letters (`normalize?_lower`), as none of the readers does
from which it is made. It gives a canonical tag. Writing that tag gives a value for the same tag,
but for two kinds of variants that the rules for subtags let in (`normalize?_render_iff`).
-/

namespace MessageCatalog.Locale

open Text Line

/-! ### Letter case -/

/-- The name with its letters in lower case. -/
def lowered (locale : Locale) : Locale where
  language := lower locale.language
  country := locale.country.map lower
  modifier := locale.modifier.map lower

theorem after?_lower {mark : Char} (h : mark.isAlpha = false) (text : Text) :
    after? mark (lower text) = (after? mark text).map lower := by
  cases text with
  | nil => rfl
  | cons c rest =>
    show (if c.toLower = mark then some (lower rest) else none) = _
    by_cases hc : c = mark
    · rw [if_pos ((toLower_eq_iff h).2 hc), after?, if_pos hc, Option.map_some]
    · rw [if_neg (mt (toLower_eq_iff h).1 hc), after?, if_neg hc, Option.map_none]

theorem takeMarked?_lower {mark : Char} {allowed : Char → Bool} (hmark : mark.isAlpha = false)
    (hallowed : ∀ c : Char, allowed c.toLower = allowed c) (text : Text) :
    takeMarked? mark allowed (lower text) =
      (takeMarked? mark allowed text).map fun (taken, rest) => (taken.map lower, lower rest) := by
  rw [takeMarked?, takeMarked?, after?_lower hmark]
  cases after? mark text with
  | none => rfl
  | some rest =>
    show (if (lower rest).takeWhile allowed = [] then none else _) = _
    rw [takeWhile_lower hallowed, dropWhile_lower hallowed]
    by_cases hnil : rest.takeWhile allowed = []
    · simp [hnil, lower]
    · simp [hnil, lower]

/-- The name with these parts, if there is a language and nothing behind the modifier. -/
theorem parse?_eq (text : Text) : parse? text =
    if text.takeWhile Char.isAlpha = [] then none
    else (takeMarked? '_' Char.isAlphanum (text.dropWhile Char.isAlpha)).bind fun (country, rest) =>
      (takeMarked? '@' Char.isAlpha rest).bind fun (modifier, rest) =>
        if rest = [] then some { language := text.takeWhile Char.isAlpha, country, modifier }
        else none := by
  rw [parse?]
  by_cases hlanguage : text.takeWhile Char.isAlpha = []
  · simp [hlanguage, guard]
  · simp only [guard, if_pos hlanguage, if_neg hlanguage, Option.bind_eq_bind, Option.pure_def,
      Option.bind_some]
    refine Option.bind_congr fun (country, rest) _ => Option.bind_congr fun (modifier, rest) _ => ?_
    show (if rest = [] then some () else none).bind _ = if rest = [] then _ else _
    split <;> rfl

/-- A name in another case is read as the same name in that case. -/
theorem parse?_lower (text : Text) : parse? (lower text) = (parse? text).map lowered := by
  have hnil (text : Text) : lower text = [] ↔ text = [] := List.map_eq_nil_iff
  rw [parse?_eq, parse?_eq, takeWhile_lower Char.isAlpha_toLower_eq_isAlpha,
    dropWhile_lower Char.isAlpha_toLower_eq_isAlpha,
    takeMarked?_lower (by decide) isAlphanum_toLower]
  by_cases hlanguage : text.takeWhile Char.isAlpha = []
  · rw [if_pos ((hnil _).2 hlanguage), if_pos hlanguage, Option.map_none]
  · rw [if_neg (mt (hnil _).1 hlanguage), if_neg hlanguage, Option.bind_map, Option.map_bind]
    refine Option.bind_congr fun (country, rest) _ => ?_
    show (takeMarked? '@' Char.isAlpha (lower rest)).bind _ =
      ((takeMarked? '@' Char.isAlpha rest).bind _).map lowered
    rw [takeMarked?_lower (by decide) Char.isAlpha_toLower_eq_isAlpha, Option.bind_map,
      Option.map_bind]
    refine Option.bind_congr fun (modifier, rest) _ => ?_
    show (if lower rest = [] then some _ else none) =
      (if rest = [] then some _ else none).map lowered
    by_cases hrest : rest = []
    · rw [if_pos ((hnil _).2 hrest), if_pos hrest]
      rfl
    · rw [if_neg (mt (hnil _).1 hrest), if_neg hrest, Option.map_none]

theorem script?_lower (modifier : Text) : script? (lower modifier) = script? modifier := by
  rw [script?, script?, lower_lower]

theorem subtags?_lowered (locale : Locale) :
    locale.lowered.subtags?.map (·.map lower) = locale.subtags?.map (·.map lower) := by
  obtain ⟨language, country, modifier⟩ := locale
  cases modifier with
  | none => cases country <;> simp [subtags?, lowered]
  | some modifier =>
    cases country <;> simp [subtags?, lowered, script?_lower, Function.comp_def]

/-- The case of letters does not matter. -/
theorem normalize?_lower (raw : Text) : normalize? (lower raw) = normalize? raw := by
  have hbind (subtags? : Option (List Text)) : subtags?.bind LanguageTag.ofSubtags? =
      (subtags?.map (·.map lower)).bind LanguageTag.ofSubtags? := by
    rw [Option.bind_map]
    exact congrArg subtags?.bind (funext fun subtags =>
      (LanguageTag.ofSubtags?_map_lower subtags).symm)
  rw [normalize?, normalize?, trim_lower, parse?_lower]
  cases parse? (trim raw) with
  | none =>
    show LanguageTag.parse? (lower (trim raw)) = LanguageTag.parse? (trim raw)
    rw [LanguageTag.parse?, LanguageTag.parse?, splitWhere_lower LanguageTag.isSeparator_toLower,
      LanguageTag.ofSubtags?_map_lower]
  | some locale =>
    show locale.lowered.subtags?.bind LanguageTag.ofSubtags? =
      locale.subtags?.bind LanguageTag.ofSubtags?
    rw [hbind, subtags?_lowered, ← hbind]

/-! ### The text of a name -/

/-- A part with its mark in front, if it is there. -/
def marked (mark : Char) : Option Text → Text
  | none => []
  | some part => mark :: part

/-- The text of a name: `ll`, `ll_CC`, `ll@modifier` or `ll_CC@modifier`. -/
def written (locale : Locale) : Text :=
  locale.language ++ (marked '_' locale.country ++ marked '@' locale.modifier)

/-- The parts of a name are not empty and hold letters, that of the country also digits. -/
structure WellFormed (locale : Locale) : Prop where
  /-- There is a language. -/
  language_ne : locale.language ≠ []
  /-- The language holds letters. -/
  language : ∀ c ∈ locale.language, c.isAlpha = true
  /-- The country, if there is one, holds letters and digits. -/
  country : ∀ country ∈ locale.country, country ≠ [] ∧ ∀ c ∈ country, c.isAlphanum = true
  /-- The modifier, if there is one, holds letters. -/
  modifier : ∀ modifier ∈ locale.modifier, modifier ≠ [] ∧ ∀ c ∈ modifier, c.isAlpha = true

section

variable {mark : Char} {allowed p : Char → Bool} {part : Option Text} {text rest : Text}

theorem noHead_marked (hmark : p mark = false) (part : Option Text) (hrest : NoHead p rest) :
    NoHead p (marked mark part ++ rest) := by
  cases part with
  | none => exact hrest
  | some taken => exact NoHead.cons hmark _

theorem of_takeMarked? (h : takeMarked? mark allowed text = some (part, rest)) :
    text = marked mark part ++ rest ∧
      ∀ taken ∈ part, taken ≠ [] ∧ ∀ c ∈ taken, allowed c = true := by
  rw [takeMarked?] at h
  cases hafter : after? mark text with
  | none =>
    rw [hafter] at h
    obtain ⟨rfl, rfl⟩ := Prod.mk.inj (Option.some.inj h)
    exact ⟨rfl, by simp⟩
  | some behind =>
    rw [hafter] at h
    obtain ⟨hne, h⟩ := Option.ite_none_left_eq_some.1 h
    obtain ⟨rfl, rfl⟩ := Prod.mk.inj (Option.some.inj h)
    refine ⟨?_, ?_⟩
    · rw [after?_eq_some.1 hafter, marked, List.cons_append, List.takeWhile_append_dropWhile]
    · rintro _ ⟨⟩
      exact ⟨hne, fun c hc => List.mem_takeWhile_imp hc⟩

/-- A part is taken as it is if neither its mark nor a character for it follows. -/
theorem takeMarked?_append (hpart : ∀ taken ∈ part, taken ≠ [] ∧ ∀ c ∈ taken, allowed c = true)
    (hmark : NoHead (· = mark) rest) (hrest : NoHead allowed rest) :
    takeMarked? mark allowed (marked mark part ++ rest) = some (part, rest) := by
  cases part with
  | none =>
    have hafter : after? mark rest = none := by
      cases rest with
      | nil => rfl
      | cons c rest =>
        have hc : c ≠ mark := by simpa using hmark c rest rfl
        rw [after?, if_neg hc]
    rw [marked, List.nil_append, takeMarked?, hafter]
  | some taken =>
    obtain ⟨hne, htaken⟩ := hpart taken rfl
    have hafter : after? mark (mark :: taken ++ rest) = some (taken ++ rest) :=
      after?_eq_some.2 rfl
    rw [marked, takeMarked?, hafter]
    show (if (taken ++ rest).takeWhile allowed = [] then none else _) = _
    rw [takeWhile_append_of_noHead htaken hrest, dropWhile_append_of_noHead htaken hrest,
      if_neg hne]

end

variable {locale : Locale} {text raw : Text}

/-- A text is read as a name exactly if it is the text of that name. -/
theorem parse?_eq_some_iff :
    parse? text = some locale ↔ locale.WellFormed ∧ text = locale.written := by
  rw [parse?_eq]
  constructor
  · intro h
    obtain ⟨hlanguage, h⟩ := Option.ite_none_left_eq_some.1 h
    obtain ⟨⟨country, rest⟩, hcountry, h⟩ := Option.bind_eq_some_iff.1 h
    obtain ⟨⟨modifier, behind⟩, hmodifier, h⟩ := Option.bind_eq_some_iff.1 h
    obtain ⟨rfl, h⟩ := Option.ite_none_right_eq_some.1 h
    obtain rfl := Option.some.inj h
    obtain ⟨htext, hcountry⟩ := of_takeMarked? hcountry
    obtain ⟨hrest, hmodifier⟩ := of_takeMarked? hmodifier
    refine ⟨⟨hlanguage, fun c hc => List.mem_takeWhile_imp hc, hcountry, hmodifier⟩, ?_⟩
    rw [written, ← List.append_nil (marked '@' modifier), ← hrest, ← htext,
      List.takeWhile_append_dropWhile]
  · rintro ⟨h, rfl⟩
    have hmodifier {p : Char → Bool} (hp : p '@' = false) :
        NoHead p (marked '@' locale.modifier) := by
      have hmarked : NoHead p (marked '@' locale.modifier ++ []) :=
        noHead_marked hp locale.modifier nofun
      rwa [List.append_nil] at hmarked
    have hparts : NoHead Char.isAlpha (marked '_' locale.country ++ marked '@' locale.modifier) :=
      noHead_marked rfl _ (hmodifier rfl)
    have htake : takeMarked? '@' Char.isAlpha (marked '@' locale.modifier) =
        some (locale.modifier, []) := by
      have happend : takeMarked? '@' Char.isAlpha (marked '@' locale.modifier ++ []) =
          some (locale.modifier, []) := takeMarked?_append h.modifier nofun nofun
      rwa [List.append_nil] at happend
    rw [written, takeWhile_append_of_noHead h.language hparts,
      dropWhile_append_of_noHead h.language hparts, if_neg h.language_ne,
      takeMarked?_append h.country (hmodifier (by decide)) (hmodifier rfl), Option.bind_some]
    show (takeMarked? '@' Char.isAlpha (marked '@' locale.modifier)).bind _ = _
    rw [htake]
    rfl

/-! ### The subtags of a name -/

theorem isAlpha_of_script? {modifier script : Text} (h : script? modifier = some script) :
    ∀ c ∈ script, c.isAlpha = true := by
  have hscripts : scripts.all (fun entry => entry.2.all Char.isAlpha) = true := rfl
  obtain ⟨front, back, hsplit, -⟩ := List.lookup_eq_some_iff.1 h
  have hmem : (lower modifier, script) ∈ scripts := by simp [hsplit]
  exact List.all_eq_true.1 (List.all_eq_true.1 hscripts _ hmem)

/-- The subtags of a name hold letters and digits only. -/
theorem WellFormed.isAlphanum_of_mem_subtags? (h : locale.WellFormed) {pieces : List Text}
    (hpieces : locale.subtags? = some pieces) :
    ∀ piece ∈ pieces, ∀ c ∈ piece, c.isAlphanum = true := by
  have hlanguage : ∀ c ∈ locale.language, c.isAlphanum = true := fun c hc =>
    isAlphanum_of_isAlpha (h.language c hc)
  have hcountry : ∀ piece ∈ locale.country.toList, ∀ c ∈ piece, c.isAlphanum = true :=
    fun country hmem => (h.country country (Option.mem_toList.1 hmem)).2
  rw [subtags?] at hpieces
  cases hmodifier : locale.modifier with
  | none =>
    rw [hmodifier] at hpieces
    obtain rfl := Option.some.inj hpieces
    exact List.forall_mem_cons.2 ⟨hlanguage, hcountry⟩
  | some modifier =>
    rw [hmodifier] at hpieces
    obtain ⟨script, hscript, rfl⟩ := Option.map_eq_some_iff.1 hpieces
    have hletters : ∀ c ∈ script, c.isAlphanum = true := fun c hc =>
      isAlphanum_of_isAlpha (isAlpha_of_script? hscript c hc)
    exact List.forall_mem_cons.2 ⟨hlanguage, List.forall_mem_cons.2 ⟨hletters, hcountry⟩⟩

/-! ### Values with hyphens -/

theorem isSeparator_of_isAlphanum {c : Char} (h : c.isAlphanum = true) :
    LanguageTag.isSeparator c = false := by
  refine Bool.eq_false_iff.2 fun hc => ?_
  rcases Bool.or_eq_true_iff.1 hc with hc | hc <;> rw [of_decide_eq_true hc] at h <;> cases h

/-- The characters of a name are letters, digits and marks. -/
theorem WellFormed.of_mem_written (h : locale.WellFormed) {c : Char} (hc : c ∈ locale.written) :
    c.isAlphanum = true ∨ c = '_' ∨ c = '@' := by
  have hmarked {mark : Char} {part : Option Text}
      (hpart : ∀ taken ∈ part, ∀ c ∈ taken, c.isAlphanum = true) (hc : c ∈ marked mark part) :
      c.isAlphanum = true ∨ c = mark := by
    cases part with
    | none => cases hc
    | some taken =>
      rcases List.mem_cons.1 hc with rfl | hc
      · exact .inr rfl
      · exact .inl (hpart taken rfl c hc)
  rw [written, List.mem_append, List.mem_append] at hc
  rcases hc with hc | hc | hc
  · exact .inl (isAlphanum_of_isAlpha (h.language c hc))
  · exact (hmarked (fun country hmem => (h.country country hmem).2) hc).imp_right .inl
  · exact (hmarked (fun modifier hmem c hc =>
      isAlphanum_of_isAlpha ((h.modifier modifier hmem).2 c hc)) hc).imp_right .inr

/-- A text with a hyphen is no name. -/
theorem parse?_eq_none_of_hyphen (h : '-' ∈ text) : parse? text = none := by
  refine Option.eq_none_iff_forall_ne_some.2 fun locale hlocale => ?_
  obtain ⟨hwell, rfl⟩ := parse?_eq_some_iff.1 hlocale
  rcases hwell.of_mem_written h with h | h | h <;> cases h

variable {first : Text} {rest : List Text}

/-- Subtags behind letters, with hyphens between them, are read as a language tag. -/
theorem normalize?_join (hne : first ≠ []) (hfirst : ∀ c ∈ first, c.isAlpha = true)
    (rest : List Text) :
    normalize? (join ['-'] (first :: rest)) =
      LanguageTag.parse? (trim (join ['-'] (first :: rest))) := by
  cases rest with
  | nil =>
    have hparse : parse? first = some { language := first } :=
      parse?_eq_some_iff.2 ⟨⟨hne, hfirst, by simp, by simp⟩, by simp [written, marked]⟩
    have hjoin : join ['-'] [first] = first := by simp [join]
    have htrim : trim first = first :=
      trim_of_not_blank fun c hc => not_isBlank_of_isAlpha (hfirst c hc)
    rw [hjoin, normalize?, htrim, hparse, LanguageTag.parse?, splitWhere_eq_singleton fun c hc =>
      isSeparator_of_isAlphanum (isAlphanum_of_isAlpha (hfirst c hc))]
    rfl
  | cons next more =>
    obtain ⟨c, letters, rfl⟩ := List.exists_cons_of_ne_nil hne
    have htrim : trim (join ['-'] ((c :: letters) :: next :: more)) =
        c :: letters ++ '-' :: trimEnd (join ['-'] (next :: more)) := by
      rw [join_cons_cons, trim, List.cons_append, trimStart_cons_of_not_blank
        (not_isBlank_of_isAlpha (hfirst c List.mem_cons_self)), ← List.cons_append,
        trimEnd_append_cons (by decide)]
    rw [normalize?, htrim, parse?_eq_none_of_hyphen (by simp)]

/-- Pieces of letters and digits need not be trimmed. -/
theorem normalize?_join_of_isAlphanum (hne : first ≠ []) (hfirst : ∀ c ∈ first, c.isAlpha = true)
    (hpieces : ∀ piece ∈ first :: rest, ∀ c ∈ piece, c.isAlphanum = true) :
    normalize? (join ['-'] (first :: rest)) = LanguageTag.ofSubtags? (first :: rest) := by
  have htrim : trim (join ['-'] (first :: rest)) = join ['-'] (first :: rest) := by
    refine trim_of_not_blank fun c hc => ?_
    rcases mem_join hc with rfl | ⟨piece, hpiece, hc⟩
    · rfl
    · exact not_isBlank_of_isAlphanum (hpieces piece hpiece c hc)
  rw [normalize?_join hne hfirst, htrim]
  exact LanguageTag.parse?_join
    (fun piece hpiece c hc => isSeparator_of_isAlphanum (hpieces piece hpiece c hc))
    (List.cons_ne_nil first rest)

/-- A name stands for the tag with its subtags. -/
theorem WellFormed.normalize?_written (h : locale.WellFormed) :
    normalize? locale.written = locale.subtags?.bind LanguageTag.ofSubtags? := by
  have htrim : trim locale.written = locale.written := by
    refine trim_of_not_blank fun c hc => ?_
    rcases h.of_mem_written hc with hc | rfl | rfl
    · exact not_isBlank_of_isAlphanum hc
    · rfl
    · rfl
  rw [normalize?, htrim, parse?_eq_some_iff.2 ⟨h, rfl⟩]

/-- A name with a modifier for a script is read as the tag with that script is. -/
theorem WellFormed.normalize?_written_eq (h : locale.WellFormed) {modifier script : Text}
    (hmodifier : locale.modifier = some modifier) (hscript : script? modifier = some script) :
    normalize? locale.written =
      normalize? (join ['-'] (locale.language :: script :: locale.country.toList)) := by
  have hsubtags : locale.subtags? = some (locale.language :: script :: locale.country.toList) := by
    rw [subtags?, hmodifier]
    exact congrArg (Option.map _) hscript
  rw [h.normalize?_written, hsubtags, Option.bind_some,
    normalize?_join_of_isAlphanum h.language_ne h.language (h.isAlphanum_of_mem_subtags? hsubtags)]

/-! ### Canonical values -/

/-- What a value stands for is a canonical tag, and its subtags hold no separators. -/
theorem canonical_of_normalize? {tag : LanguageTag} (h : normalize? raw = some tag) :
    tag.Canonical ∧ LanguageTag.Unseparated tag.subtags := by
  have hread : ∃ pieces, LanguageTag.Unseparated pieces ∧
      LanguageTag.ofSubtags? pieces = some tag := by
    rw [normalize?] at h
    split at h
    next locale hlocale =>
      obtain ⟨pieces, hpieces, hread⟩ := Option.bind_eq_some_iff.1 h
      have hwell := (parse?_eq_some_iff.1 hlocale).1
      exact ⟨pieces, fun piece hpiece c hc => isSeparator_of_isAlphanum
        (hwell.isAlphanum_of_mem_subtags? hpieces piece hpiece c hc), hread⟩
    next => exact ⟨_, LanguageTag.unseparated_splitWhere _, h⟩
  obtain ⟨pieces, hpieces, hread⟩ := hread
  exact ⟨LanguageTag.ofSubtags?_canonical hread, hpieces.subtags hread⟩

/-- What a value stands for is, once it is written, a value for the same tag, exactly if its first
variant is not taken for a script and no blank stands at the end. -/
theorem normalize?_render_iff {tag : LanguageTag} (h : normalize? raw = some tag) :
    normalize? tag.render = some tag ↔
      ¬ tag.StartsWithScriptLikeVariant ∧ trim tag.render = tag.render := by
  obtain ⟨hcanonical, hunseparated⟩ := canonical_of_normalize? h
  have hread : normalize? tag.render = LanguageTag.parse? (trim tag.render) := by
    obtain ⟨hne, hletters⟩ := LanguageTag.letters_of_language? hcanonical.language
    rw [LanguageTag.render_eq]
    exact normalize?_join hne hletters _
  have hself : LanguageTag.parse? tag.render = some tag ↔ ¬ tag.StartsWithScriptLikeVariant := by
    rw [LanguageTag.render_eq, LanguageTag.parse?_join hunseparated (List.cons_ne_nil _ _)]
    exact LanguageTag.ofSubtags?_subtags_iff hcanonical
  rw [hread]
  constructor
  · intro hparse
    -- reading does not add characters, so none was trimmed
    have htrim : trim tag.render = tag.render :=
      (trim_sublist tag.render).eq_of_length_le (LanguageTag.length_render_le hparse)
    rw [htrim] at hparse
    exact ⟨hself.1 hparse, htrim⟩
  · rintro ⟨hlike, htrim⟩
    rw [htrim]
    exact hself.2 hlike

/-- Two values for which writing what they stand for does not give a value for the same tag: the
variant `abcd`, once it is sorted to the front, is taken for a script, and the blank in the variant
`2aa `, once that is sorted to the end, is trimmed. -/
theorem normalize?_render_ne :
    (∃ tag, normalize? "en-zzzzz-abcd".toList = some tag ∧
      tag.render = "en-abcd-zzzzz".toList ∧ normalize? tag.render ≠ some tag) ∧
    (∃ tag, normalize? "de-2aa -1bbb".toList = some tag ∧
      tag.render = "de-1bbb-2aa ".toList ∧ normalize? tag.render ≠ some tag) := by
  refine ⟨⟨{ language := "en".toList, variants := ["abcd".toList, "zzzzz".toList] }, ?_, ?_, ?_⟩,
    ⟨{ language := "de".toList, variants := ["1bbb".toList, "2aa ".toList] }, ?_, ?_, ?_⟩⟩ <;>
    decide +kernel

/-- Normal forms of the values that name a language. What a value stands for is written as a value
for the same tag, exactly if no variant is taken for a script then and no blank is trimmed. Neither
the case of letters nor blanks around a value matter. And the name of a locale with a modifier for a
script stands for the tag with that script. -/
theorem normalize?_canonical :
    (∀ raw tag, normalize? raw = some tag →
      (normalize? tag.render = some tag ↔
        ¬ tag.StartsWithScriptLikeVariant ∧ trim tag.render = tag.render)) ∧
    (∀ raw other lead trail, sameLetters raw other = true → lead.all isBlank = true →
      trail.all isBlank = true → normalize? (lead ++ (other ++ trail)) = normalize? raw) ∧
    (∀ locale : Locale, locale.WellFormed → ∀ modifier script, locale.modifier = some modifier →
      script? modifier = some script →
      normalize? locale.written =
        normalize? (join ['-'] (locale.language :: script :: locale.country.toList))) := by
  refine ⟨fun raw tag => normalize?_render_iff, ?_, fun locale h modifier script =>
    h.normalize?_written_eq⟩
  intro raw other lead trail hsame hlead htrail
  have htrim : normalize? (lead ++ (other ++ trail)) = normalize? other := by
    rw [normalize?, normalize?, trim_append_blanks hlead htrail]
  rw [htrim, ← normalize?_lower other, ← of_decide_eq_true hsame, normalize?_lower]

theorem normalize?_canonical_serbian :
    normalize? "sr_RS@latin".toList = some
        { language := "sr".toList, script := some "Latn".toList, region := some "RS".toList } ∧
      normalize? "sr-Latn-RS".toList = normalize? "sr_RS@latin".toList ∧
      normalize? " SR_rs@LATIN\n".toList = normalize? "sr_RS@latin".toList ∧
      normalize? "sr-Latn-RS".toList = some
        { language := "sr".toList, script := some "Latn".toList, region := some "RS".toList } := by
  have hread : normalize? "sr_RS@latin".toList = some
      { language := "sr".toList, script := some "Latn".toList, region := some "RS".toList } := by
    decide +kernel
  have hname : parse? "sr_RS@latin".toList = some
      { language := "sr".toList, country := some "RS".toList, modifier := some "latin".toList } := by
    decide +kernel
  obtain ⟨hrender, hsame, hscript⟩ := normalize?_canonical
  refine ⟨hread, ?_, ?_, ?_⟩
  · exact (hscript _ (parse?_eq_some_iff.1 hname).1 "latin".toList "Latn".toList rfl
      (by decide +kernel)).symm
  · exact hsame "sr_RS@latin".toList "SR_rs@LATIN".toList [' '] ['\n'] (by decide +kernel) rfl rfl
  · exact (hrender _ _ hread).2 ⟨fun hlike => (by cases hlike.1), by decide +kernel⟩

end MessageCatalog.Locale
