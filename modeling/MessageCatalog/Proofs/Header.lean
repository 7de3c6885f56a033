import MessageCatalog.Header
import MessageCatalog.Proofs.Outcome
import MessageCatalog.Proofs.Text.Case
import MessageCatalog.Proofs.Text.Pieces

/-!
# Two readings of a header's language

A header names its language in a line `Language: …`. It is read from there twice: as the raw
language, for which the line has to start with the name and the colon, and as a field like all
others, for which blanks may stand around the name.

Both readings look at the same lines, although one cuts the text at line feeds only
(`exists_rows_forall₂`), and take what stands behind the first colon, without the blanks around it
(`rawLanguage?_eq`, `field?_languageKey`). So they differ only in which line they take. They agree
if the first line that names the language has no blanks around the name, and otherwise only by
chance (`readsAlike_iff_of_parse`).
-/

namespace MessageCatalog.Header

open Text

/-- The name of the field that names the language. -/
def languageKey : Text := "Language".toList

/-- What a line gives as the value of a name: what stands behind its first colon, without the blanks
around it, if what stands in front is the name. -/
def valueOf? (isName : Text → Bool) (line : Text) : Option Text :=
  (cutAt? ':' line).bind fun (name, value) => if isName name then some (trim value) else none

/-- The language that a line names, with blanks around the name or without. -/
def namedLanguage? : Text → Option Text := valueOf? fun name => sameLetters (trim name) languageKey

/-- The language that a line names without blanks around the name. -/
def exactLanguage? : Text → Option Text := valueOf? fun name => sameLetters name languageKey

/-- The two readings agree: the raw language is the value of the field for it, if that is there and
not blank. -/
structure ReadsAlike (header : Header) : Prop where
  /-- There is a raw language exactly if the field is there and not blank, and it is its value. -/
  some_iff : ∀ language, header.rawLanguage = some language ↔
    header.field? languageKey = some language ∧ language ≠ []
  /-- There is none exactly if the field is absent or blank. -/
  none_iff : header.rawLanguage = none ↔
    header.field? languageKey = none ∨ header.field? languageKey = some []

theorem readsAlike_iff {header : Header} :
    header.ReadsAlike ↔ header.rawLanguage = (header.field? languageKey).filter (· ≠ []) := by
  constructor
  · intro h
    cases hraw : header.rawLanguage with
    | none => rcases h.none_iff.1 hraw with hfield | hfield <;> rw [hfield] <;> rfl
    | some language =>
      obtain ⟨hfield, hne⟩ := (h.some_iff language).1 hraw
      simp [hfield, Option.filter, hne]
  · intro h
    refine ⟨fun language => ?_, ?_⟩
    · rw [h, Option.filter_eq_some_iff, decide_eq_true_eq]
    · rw [h, Option.filter_eq_none_iff]
      cases header.field? languageKey <;> simp

/-! ### Lines -/

theorem rows_feed (rest : Text) : rows ('\n' :: rest) = [] :: rows rest := rfl

theorem rows_cons {c : Char} {rest piece : Text} {pieces : List Text} (hc : c ≠ '\n')
    (h : rows rest = piece :: pieces) : rows (c :: rest) = (c :: piece) :: pieces :=
  splitWhere_cons (decide_eq_false hc) h

/-- The pieces of a text between line feeds are its lines, possibly with a carriage return behind
them, and possibly there is an empty piece more. -/
theorem exists_rows_forall₂ (text : Text) : ∃ pieces,
    (rows text = pieces ∨ rows text = pieces ++ [[]]) ∧
      List.Forall₂ (fun piece line => piece = line ∨ piece = line ++ ['\r']) pieces
        (lines text) := by
  induction text using lines.induct with
  | case1 => exact ⟨[], .inr rfl, .nil⟩
  | case2 rest ih =>
    obtain ⟨pieces, hrows, hpieces⟩ := ih
    refine ⟨[] :: pieces, ?_, by rw [lines]; exact .cons (.inl rfl) hpieces⟩
    rcases hrows with hrows | hrows
    · exact .inl (by rw [rows_feed, hrows])
    · exact .inr (by rw [rows_feed, hrows]; rfl)
  | case3 rest ih =>
    obtain ⟨pieces, hrows, hpieces⟩ := ih
    refine ⟨['\r'] :: pieces, ?_, by rw [lines]; exact .cons (.inr rfl) hpieces⟩
    rcases hrows with hrows | hrows
    · exact .inl (rows_cons (by decide) (by rw [rows_feed, hrows]))
    · exact .inr (rows_cons (by decide) (by rw [rows_feed, hrows]; rfl))
  | case4 c rest hfeed hreturn hnil ih =>
    rw [lines.eq_4 c rest hfeed hreturn, hnil]
    rw [hnil] at ih
    obtain ⟨pieces, hrows, hpieces⟩ := ih
    cases hpieces
    refine ⟨[[c]], .inl ?_, .cons (.inl rfl) .nil⟩
    rcases hrows with hrows | hrows
    · exact absurd hrows (splitWhere_ne_nil _ rest)
    · exact rows_cons hfeed hrows
  | case5 c rest hfeed hreturn line more hlines ih =>
    rw [lines.eq_4 c rest hfeed hreturn, hlines]
    rw [hlines] at ih
    obtain ⟨pieces, hrows, hpieces⟩ := ih
    obtain ⟨piece, others, hpiece, hothers, rfl⟩ := List.forall₂_cons_right_iff.1 hpieces
    refine ⟨(c :: piece) :: others, ?_, .cons ?_ hothers⟩
    · rcases hrows with hrows | hrows
      · exact .inl (rows_cons hfeed hrows)
      · exact .inr (rows_cons hfeed hrows)
    · rcases hpiece with rfl | rfl
      · exact .inl rfl
      · exact .inr rfl

theorem findSome?_of_forall₂ {α : Type} {f : Text → Option α} {pieces others : List Text}
    (h : List.Forall₂ (fun piece other => f piece = f other) pieces others) :
    pieces.findSome? f = others.findSome? f := by
  induction h with
  | nil => rfl
  | cons hpiece _ ih => rw [List.findSome?_cons, List.findSome?_cons, hpiece, ih]

/-- A reader to which neither empty lines nor carriage returns at their ends matter finds the same
in the pieces between line feeds as in the lines. -/
theorem findSome?_rows {α : Type} {f : Text → Option α} (hnil : f [] = none)
    (hreturn : ∀ line, f (line ++ ['\r']) = f line) (text : Text) :
    (rows text).findSome? f = (lines text).findSome? f := by
  obtain ⟨pieces, hrows, hpieces⟩ := exists_rows_forall₂ text
  have hfound : pieces.findSome? f = (lines text).findSome? f := by
    refine findSome?_of_forall₂ (hpieces.imp fun piece line hpiece => ?_)
    rcases hpiece with rfl | rfl
    · rfl
    · exact hreturn line
  rcases hrows with hrows | hrows
  · rw [hrows, hfound]
  · rw [hrows, List.findSome?_append, hfound, List.findSome?_singleton, hnil, Option.or_none]

/-! ### What a line gives -/

variable {isName : Text → Bool} {line name rest value : Text}

theorem valueOf?_of_cut (h : cutAt? ':' line = some (name, rest)) :
    valueOf? isName line = if isName name then some (trim rest) else none := by
  rw [valueOf?, h]
  rfl

theorem valueOf?_of_no_colon (h : ':' ∉ line) : valueOf? isName line = none := by
  rw [valueOf?, cutAt?_eq_none h]
  rfl

theorem valueOf?_eq_some_iff :
    valueOf? isName line = some value ↔ ∃ name rest,
      line = name ++ ':' :: rest ∧ ':' ∉ name ∧ isName name = true ∧ trim rest = value := by
  rw [valueOf?, Option.bind_eq_some_iff, Prod.exists]
  simp only [cutAt?_eq_some_iff, Option.ite_none_right_eq_some, Option.some.injEq, and_assoc]

theorem valueOf?_nil (isName : Text → Bool) : valueOf? isName [] = none := rfl

/-- A carriage return at the end is no part of the value. -/
theorem valueOf?_append_return (isName : Text → Bool) (line : Text) :
    valueOf? isName (line ++ ['\r']) = valueOf? isName line := by
  by_cases hcolon : ':' ∈ line
  · obtain ⟨name, rest, rfl, hname⟩ := List.eq_append_cons_of_mem hcolon
    have htrim : trim (rest ++ ['\r']) = trim rest :=
      trim_append_blanks (show [].all isBlank = true from rfl) rfl rest
    rw [List.append_assoc, List.cons_append, valueOf?_of_cut (cutAt?_append hname _),
      valueOf?_of_cut (cutAt?_append hname _), htrim]
  · have hreturn : ':' ∉ line ++ ['\r'] := by simp [hcolon]
    rw [valueOf?_of_no_colon hreturn, valueOf?_of_no_colon hcolon]

/-! ### The name of the language -/

theorem afterName?_eq_some_iff :
    afterName? name line = some rest ↔ ∃ front, line = front ++ rest ∧ front.map fold = name := by
  induction name generalizing line with
  | nil => simp [afterName?, eq_comm]
  | cons c name ih =>
    cases line with
    | nil => simp [afterName?]
    | cons d line =>
      rw [afterName?, Option.ite_none_right_eq_some, ih]
      constructor
      · rintro ⟨rfl, front, rfl, rfl⟩
        exact ⟨d :: front, rfl, rfl⟩
      · rintro ⟨front, hline, hfront⟩
        cases front with
        | nil => cases hfront
        | cons e front =>
          obtain ⟨rfl, rfl⟩ := List.cons.inj hline
          obtain ⟨rfl, rfl⟩ := List.cons.inj hfront
          exact ⟨rfl, front, rfl, rfl⟩

/-- The characters that fold to a letter beyond the case of ASCII letters, and these letters. -/
def foldedApart : Text := ['ſ', 's', '\u212a', 'k']

theorem fold_eq_iff {c d : Char} (h : d ∉ foldedApart) : fold c = d ↔ c.toLower = d := by
  have hne : ∀ e ∈ foldedApart, (e = d) = False := fun e he => eq_false fun heq => h (heq ▸ he)
  rw [fold]
  split
  next hs => subst hs; simp [hne 's' (by decide), show 'ſ'.toLower = 'ſ' from rfl,
      hne 'ſ' (by decide)]
  next =>
    split
    next hk => subst hk; simp [hne 'k' (by decide), show '\u212a'.toLower = '\u212a' from rfl,
        hne '\u212a' (by decide)]
    next => rfl

theorem map_fold_eq_iff {front : Text} (h : ∀ d ∈ name, d ∉ foldedApart) :
    front.map fold = name ↔ lower front = name := by
  induction front generalizing name with
  | nil => rfl
  | cons c front ih =>
    cases name with
    | nil => simp [lower]
    | cons d name =>
      obtain ⟨hd, hname⟩ := List.forall_mem_cons.1 h
      rw [List.map_cons, List.cons.injEq, fold_eq_iff hd, ih hname]
      exact (List.cons.injEq _ _ _ _).symm ▸ Iff.rfl

theorem isAlpha_of_sameLetters (h : sameLetters name languageKey = true) :
    ∀ c ∈ name, c.isAlpha = true := by
  have hkey : (lower languageKey).all Char.isAlpha = true := rfl
  intro c hc
  have hlower : c.toLower ∈ lower name := List.mem_map_of_mem hc
  rw [of_decide_eq_true h] at hlower
  rw [← Char.isAlpha_toLower_eq_isAlpha]
  exact List.all_eq_true.1 hkey _ hlower

theorem map_trim_afterName? (line : Text) :
    (afterName? languageName line).map trim = exactLanguage? line := by
  have hkey : languageName = lower languageKey ++ [':'] := rfl
  have hfold : ∀ d ∈ languageName, d ∉ foldedApart := fun d hd => of_decide_eq_true <|
    List.all_eq_true.1 (rfl : languageName.all (fun d => d ∉ foldedApart) = true) d hd
  refine Option.ext fun value => ?_
  rw [exactLanguage?, valueOf?_eq_some_iff, Option.map_eq_some_iff]
  constructor
  · rintro ⟨rest, hafter, hvalue⟩
    obtain ⟨front, rfl, hfront⟩ := afterName?_eq_some_iff.1 hafter
    rw [map_fold_eq_iff hfold, hkey, lower, List.map_eq_append_iff] at hfront
    obtain ⟨name, colon, rfl, hname, hcolon⟩ := hfront
    obtain ⟨c, rfl, hc⟩ := List.map_eq_singleton_iff.1 hcolon
    obtain rfl := (toLower_eq_iff (by decide)).1 hc
    have hsame : sameLetters name languageKey = true := decide_eq_true hname
    refine ⟨name, rest, by simp, fun hmem => ?_, hsame, hvalue⟩
    cases isAlpha_of_sameLetters hsame _ hmem
  · rintro ⟨name, rest, rfl, -, hname, hvalue⟩
    refine ⟨rest, afterName?_eq_some_iff.2 ⟨name ++ [':'], by simp, ?_⟩, hvalue⟩
    rw [map_fold_eq_iff hfold, hkey, ← of_decide_eq_true hname]
    simp [lower, show ':'.toLower = ':' from rfl]

/-- A line that names the language without blanks around the name names it. -/
theorem namedLanguage?_of_exactLanguage? (h : exactLanguage? line = some value) :
    namedLanguage? line = some value := by
  obtain ⟨name, rest, rfl, hcolon, hname, hvalue⟩ := valueOf?_eq_some_iff.1 h
  have hletters := isAlpha_of_sameLetters hname
  have htrim : trim name = name := trim_eq_self
    (fun c hc => not_isBlank_of_isAlpha (hletters c (List.mem_of_mem_head? hc)))
    (fun c hc => not_isBlank_of_isAlpha (hletters c (List.mem_of_mem_getLast? hc)))
  exact valueOf?_eq_some_iff.2 ⟨name, rest, rfl, hcolon, by rw [htrim]; exact hname, hvalue⟩

/-! ### The two readings -/

/-- The raw language is what the first line gives that names the language without blanks around the
name, unless that is blank. -/
theorem rawLanguage?_eq (text : Text) :
    rawLanguage? text = ((lines text).findSome? exactLanguage?).filter (· ≠ []) := by
  have hread : Option.map trim ∘ afterName? languageName = exactLanguage? :=
    funext map_trim_afterName?
  have hrows : (rows text).findSome? exactLanguage? = (lines text).findSome? exactLanguage? :=
    findSome?_rows (valueOf?_nil _) (valueOf?_append_return _) text
  rw [rawLanguage?, List.map_findSome?, hread, hrows]

/-- The field is what the first line gives that names the language. -/
theorem field?_languageKey {header : Header} {text : Text} (h : header.fields = fieldsOf text) :
    header.field? languageKey = (lines text).findSome? namedLanguage? := by
  -- no name that is left out because it is blank is the name of the language
  have hkept : ∀ field : Text × Text,
      decide (decide (field.1 ≠ []) = true ∧ sameLetters field.1 languageKey = true) =
        sameLetters field.1 languageKey := by
    rintro ⟨name, value⟩
    cases name with
    | nil => rfl
    | cons c name => simp
  rw [field?, h, fieldsOf, List.find?_filter]
  simp only [hkept]
  induction lines text with
  | nil => rfl
  | cons line lines ih =>
    cases hcut : cutAt? ':' line with
    | none =>
      have hline : namedLanguage? line = none := by rw [namedLanguage?, valueOf?, hcut]; rfl
      rw [List.filterMap_cons_none hcut, List.findSome?_cons, hline, ih]
    | some parts =>
      obtain ⟨name, rest⟩ := parts
      have hline : namedLanguage? line =
          if sameLetters (trim name) languageKey then some (trim rest) else none :=
        valueOf?_of_cut hcut
      rw [List.filterMap_cons_some hcut, List.map_cons, List.find?_cons, List.findSome?_cons, hline]
      cases sameLetters (trim name) languageKey with
      | true => rfl
      | false => exact ih

/-! ### When they agree -/

/-- Of two readers of which the first one is stricter, what each finds first in a list is the same
up to the values to be left out, exactly if the stricter one reads the first element that the other
one reads, or what it finds behind that element happens to be the same. -/
theorem filter_findSome?_eq_iff {α β : Type} {strict lenient : α → Option β}
    (h : ∀ {a b}, strict a = some b → lenient a = some b) (keep : β → Bool) (list : List α) :
    (list.findSome? strict).filter keep = (list.findSome? lenient).filter keep ↔
      ∀ front a back b, list = front ++ a :: back → (∀ c ∈ front, lenient c = none) →
        lenient a = some b → strict a = none →
        (back.findSome? strict).filter keep = (some b).filter keep := by
  have hnone {c : α} (hc : lenient c = none) : strict c = none :=
    Option.eq_none_iff_forall_ne_some.2 fun b hb => by cases hc.symm.trans (h hb)
  have hfirst {f : α → Option β} {front back : List α} {a : α} (hfront : ∀ c ∈ front, f c = none) :
      (front ++ a :: back).findSome? f = (f a).or (back.findSome? f) := by
    rw [List.findSome?_append, List.findSome?_eq_none_iff.2 hfront, Option.none_or,
      List.findSome?_cons]
    cases f a <;> rfl
  constructor
  · rintro heq front a back b rfl hfront ha hstrict
    rw [hfirst hfront, hfirst fun c hc => hnone (hfront c hc), ha, hstrict] at heq
    exact heq
  · intro hall
    cases hfound : list.findSome? lenient with
    | none =>
      rw [List.findSome?_eq_none_iff.2 fun c hc => hnone (List.findSome?_eq_none_iff.1 hfound c hc)]
    | some b =>
      obtain ⟨front, a, back, rfl, ha, hfront⟩ := List.findSome?_eq_some_iff.1 hfound
      rw [hfirst fun c hc => hnone (hfront c hc)]
      cases hstrict : strict a with
      | none => exact hall front a back b rfl hfront ha hstrict
      | some v => rw [Option.some_or, Option.some.inj (ha.symm.trans (h hstrict))]

theorem rawLanguage_and_fields_of_parse {options : ReadOptions} {text : Text} {header : Header}
    (h : parse options text = .ok header) :
    header.rawLanguage = rawLanguage? text ∧ header.fields = fieldsOf text := by
  rw [parse] at h
  cases hraw : (rawLanguage? text).or options.languageHint with
  | none =>
    rw [hraw] at h
    cases h
  | some raw =>
    simp only [hraw, Outcome.bind_eq_ok_iff] at h
    obtain ⟨language, -, rules, -, hheader⟩ := h
    obtain rfl := Except.ok.inj hheader
    exact ⟨rfl, rfl⟩

/-- The two readings of a header agree exactly if the first line that names the language has no
blanks around the name, or if what the first such line behind it gives happens to be the same. -/
theorem readsAlike_iff_of_parse {options : ReadOptions} {text : Text} {header : Header}
    (h : parse options text = .ok header) :
    header.ReadsAlike ↔
      ∀ front line back language, lines text = front ++ line :: back →
        (∀ other ∈ front, namedLanguage? other = none) →
        namedLanguage? line = some language → exactLanguage? line = none →
        (back.findSome? exactLanguage?).filter (· ≠ []) = (some language).filter (· ≠ []) := by
  obtain ⟨hraw, hfields⟩ := rawLanguage_and_fields_of_parse h
  rw [readsAlike_iff, hraw, rawLanguage?_eq, field?_languageKey hfields]
  exact filter_findSome?_eq_iff namedLanguage?_of_exactLanguage? _ _

/-- Blanks around the name do not matter behind a line without them. -/
theorem readsAlike_iff_of_parse_repeatedName : ∃ header,
    parse {} "LANGUAGE: ja \r\nLanguage : fr\n".toList = .ok header ∧ header.ReadsAlike := by
  have hparse : (parse {} "LANGUAGE: ja \r\nLanguage : fr\n".toList).toOption.map
      Header.rawLanguage = some (some "ja".toList) := by decide +kernel
  obtain ⟨header, hheader, -⟩ := Outcome.exists_ok_of_map_toOption hparse
  refine ⟨header, hheader, (readsAlike_iff_of_parse hheader).2 ?_⟩
  intro front line back language hlines hfront _ hline
  have hexact : exactLanguage? "LANGUAGE: ja ".toList = some "ja".toList := by decide +kernel
  have hfirst : lines "LANGUAGE: ja \r\nLanguage : fr\n".toList =
      ["LANGUAGE: ja ".toList, "Language : fr".toList] := by decide +kernel
  rw [hfirst] at hlines
  cases front with
  | nil =>
    obtain ⟨rfl, -⟩ := List.cons.inj hlines
    cases hexact.symm.trans hline
  | cons other front =>
    obtain ⟨rfl, -⟩ := List.cons.inj hlines
    cases (namedLanguage?_of_exactLanguage? hexact).symm.trans (hfront _ List.mem_cons_self)

/-- A line with a blank behind the name gives the field for the language, but not the raw
language. -/
theorem not_readsAlike_blankBehindName : ∃ header,
    parse { languageHint := some "en".toList } "Language : fr\n".toList = .ok header ∧
      header.rawLanguage = none ∧ header.field? languageKey = some "fr".toList ∧
      ¬ header.ReadsAlike := by
  have hparse : ((parse { languageHint := some "en".toList } "Language : fr\n".toList).toOption.map
      fun header => (header.rawLanguage, header.field? languageKey)) =
        some (none, some "fr".toList) := by decide +kernel
  obtain ⟨header, hheader, hread⟩ := Outcome.exists_ok_of_map_toOption hparse
  obtain ⟨hraw, hfield⟩ := Prod.mk.inj hread
  refine ⟨header, hheader, hraw, hfield, fun halike => ?_⟩
  have hnone := halike.none_iff.1 hraw
  rw [hfield] at hnone
  revert hnone
  decide

end MessageCatalog.Header
