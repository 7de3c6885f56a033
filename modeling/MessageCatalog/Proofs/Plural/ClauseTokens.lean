import Mathlib.Data.List.TakeWhile
import MessageCatalog.Plural.Sample
import MessageCatalog.Proofs.Outcome

/-!
# The tokens of a sample clause

What the tokens of a clause are when its text is put together from parts. A part in front of a text
that no token can be continued by is read as if it stood alone (`ofSamplesFrom_append`), and behind
a token that is not a number reading starts afresh (`ofSamplesFrom_append_read`). So the tokens of
two texts with a comma or a mark between them are those of the one, the separator, and those of the
other (`ofSamples_append_separator`). A numeral is one token if neither a digit nor a point follows
it (`ofSamplesFrom_numeral`).
-/

namespace MessageCatalog.Token

open Text

/-! ### Reading step by step -/

theorem ofSamplesFrom_nil (read : List Token) : ofSamplesFrom read [] = .ok read.reverse := by
  rw [ofSamplesFrom.eq_def]

theorem ofSamplesFrom_blank {c : Char} (h : isBlank c = true) (read : List Token) (rest : Text) :
    ofSamplesFrom read (c :: rest) = ofSamplesFrom read rest := by
  rw [ofSamplesFrom.eq_def]
  exact if_pos h

theorem ofSamplesFrom_exponent {c : Char} (hblank : isBlank c = false)
    (h : isExponentLetter c = true) (read : List Token) (rest : Text) :
    ofSamplesFrom read (c :: rest) = match dropBase? read rest with
      | none => .error (.misplacedExponent c)
      | some earlier => ofSamplesFrom earlier (splitNumber rest).2 := by
  rw [ofSamplesFrom.eq_def]
  refine (if_neg (by simp [hblank])).trans ((if_pos h).trans ?_)
  cases dropBase? read rest <;> rfl

theorem ofSamplesFrom_token {c : Char} (hblank : isBlank c = false)
    (hletter : isExponentLetter c = false) (read : List Token) (rest : Text) :
    ofSamplesFrom read (c :: rest)
      = sampleToken c rest >>= fun (token, after) => ofSamplesFrom (token :: read) after := by
  rw [ofSamplesFrom.eq_def]
  refine (if_neg (by simp [hblank])).trans ((if_neg (by simp [hletter])).trans ?_)
  split
  next fault hread => rw [hread]; rfl
  next token after hread => rw [hread]; rfl

/-! ### Single tokens -/

/-- The tokens of a clause that are always written alike: all but the numbers. -/
def signs : List Token :=
  [{ kind := .range, text := ['~'] }, { kind := .comma, text := [','] },
    { kind := .ellipsis, text := ['…'] }, { kind := .ellipsis, text := ['.', '.', '.'] },
    { kind := .integerMark, text := ['@', 'i', 'n', 't', 'e', 'g', 'e', 'r'] },
    { kind := .decimalMark, text := ['@', 'd', 'e', 'c', 'i', 'm', 'a', 'l'] }]

theorem sampleToken_of_isDigit {c : Char} (h : c.isDigit = true) (rest : Text) :
    sampleToken c rest = .ok
      ({ kind := .number, text := (splitNumber (c :: rest)).1 }, (splitNumber (c :: rest)).2) := by
  unfold sampleToken
  rw [if_pos h]

theorem sampleToken_of_mem_signs {token : Token} (h : token ∈ signs) {c : Char} {text rest : Text}
    (htext : c :: text = token.text ++ rest) : sampleToken c text = .ok (token, rest) := by
  simp only [signs, List.mem_cons, List.not_mem_nil, or_false] at h
  rcases h with rfl | rfl | rfl | rfl | rfl | rfl <;>
    · obtain ⟨rfl, rfl⟩ := List.cons.inj htext
      rfl

theorem mem_signs_of_sampleToken {c : Char} (hdigit : c.isDigit = false) {text rest : Text}
    {token : Token} (h : sampleToken c text = .ok (token, rest)) : token ∈ signs := by
  unfold sampleToken at h
  rw [if_neg (by simp [hdigit])] at h
  split at h <;> cases h <;> simp [signs]

/-- The fault of a character that starts no token. -/
def signFault (c : Char) : RuleFault := if c = '@' then .unknownMark else .unexpectedCharacter c

theorem eq_signFault_of_sampleToken {c : Char} {text : Text} {fault : RuleFault}
    (h : sampleToken c text = .error fault) : fault = signFault c := by
  unfold sampleToken at h
  split at h
  · cases h
  · split at h <;> cases h
    · rfl
    next hat _ _ _ => exact (if_neg hat).symm

/-! ### Where a token ends -/

/-- Whether a character can stand in a token behind the first one. -/
def continues (c : Char) : Bool :=
  c.isDigit || c ∈ ['.', 'i', 'n', 't', 'e', 'g', 'r', 'd', 'c', 'm', 'a', 'l']

/-- A text that continues no token that stands in front of it. -/
def Delimited (text : Text) : Prop := ∀ c ∈ text.head?, continues c = false

instance : (text : Text) → Decidable (Delimited text)
  | [] => isTrue (by simp [Delimited])
  | c :: _ => decidable_of_iff (continues c = false) (by simp [Delimited])

theorem Delimited.cons {c : Char} (h : continues c = false) (text : Text) :
    Delimited (c :: text) := by
  simpa [Delimited] using h

theorem Delimited.append {front : Text} (h : Delimited front) (hne : front ≠ []) (back : Text) :
    Delimited (front ++ back) := by
  cases front with
  | nil => exact absurd rfl hne
  | cons c front => exact Delimited.cons (h c rfl) (front ++ back)

theorem Delimited.not_isDigit {text : Text} (h : Delimited text) :
    ∀ c ∈ text.head?, c.isDigit = false := by
  intro c hc
  have hcontinues := h c hc
  simp only [continues, Bool.or_eq_false_iff] at hcontinues
  exact hcontinues.1

theorem Delimited.ne_point {text : Text} (h : Delimited text) : ∀ c ∈ text.head?, c ≠ '.' := by
  rintro c hc rfl
  cases h '.' hc

variable {text rest : Text}

/-- A text does not start with a longer piece of a token than the part of it in front of a
delimiter. -/
theorem Delimited.exists_append (h : Delimited rest) {word tail : Text}
    (hword : ∀ c ∈ word, continues c = true) (heq : text ++ rest = word ++ tail) :
    ∃ more, text = word ++ more := by
  rcases List.append_eq_append_iff.1 heq with ⟨last, hlast, hrest⟩ | ⟨more, htext, -⟩
  · cases last with
    | nil => exact ⟨[], by simpa using hlast.symm⟩
    | cons c last =>
      have hc : continues c = true := hword c (by rw [hlast]; simp)
      have hstop := h c (by rw [hrest]; rfl)
      rw [hc] at hstop
      cases hstop
  · exact ⟨more, htext⟩

theorem takeWhile_append_of_head {p : Char → Bool} (h : ∀ c ∈ rest.head?, p c = false)
    (text : Text) :
    (text ++ rest).takeWhile p = text.takeWhile p ∧
      (text ++ rest).dropWhile p = text.dropWhile p ++ rest := by
  induction text with
  | nil =>
    cases rest with
    | nil => exact ⟨rfl, rfl⟩
    | cons c rest =>
      have hc : p c = false := h c rfl
      simp [hc]
  | cons c text ih =>
    by_cases hc : p c = true
    · simp [hc, ih]
    · simp [hc]

theorem splitNumber_append_of_delimited (h : Delimited rest) (text : Text) :
    splitNumber (text ++ rest) = ((splitNumber text).1, (splitNumber text).2 ++ rest) := by
  obtain ⟨htake, hdrop⟩ := takeWhile_append_of_head h.not_isDigit text
  unfold splitNumber
  rw [htake, hdrop]
  rcases text.dropWhile Char.isDigit with _ | ⟨point, _ | ⟨digit, more⟩⟩
  · -- the number is all of the text
    cases rest with
    | nil => rfl
    | cons c rest =>
      simp [h.ne_point c rfl]
  · -- a point behind which the text ends belongs to no number
    cases rest with
    | nil => simp
    | cons c rest =>
      have hc := h.not_isDigit c rfl
      by_cases hpoint : point = '.' <;> simp [hpoint, hc]
  · by_cases hpoint : point = '.'
    · obtain ⟨htake', hdrop'⟩ := takeWhile_append_of_head h.not_isDigit (digit :: more)
      simp only [List.cons_append] at htake' hdrop' ⊢
      simp only [hpoint, htake', hdrop']
      split <;> rfl
    · simp [hpoint]

/-! ### Texts in front of a delimiter -/

theorem continues_of_mem_tail_signs {token : Token} (h : token ∈ signs) :
    ∀ c ∈ token.text.tail, continues c = true := by
  have hall : ∀ token ∈ signs, token.text.tail.all continues = true := by decide
  exact List.all_eq_true.1 (hall token h)

theorem sampleToken_append_of_delimited (h : Delimited rest) (c : Char) :
    sampleToken c (text ++ rest)
      = (sampleToken c text).map fun (token, after) => (token, after ++ rest) := by
  by_cases hdigit : c.isDigit = true
  · rw [sampleToken_of_isDigit hdigit, sampleToken_of_isDigit hdigit]
    have hsplit := splitNumber_append_of_delimited h (c :: text)
    rw [List.cons_append] at hsplit
    rw [hsplit]
    rfl
  have hdigit : c.isDigit = false := Bool.eq_false_iff.2 hdigit
  cases hread : sampleToken c text with
  | ok found =>
    obtain ⟨token, after⟩ := found
    have htext := (sampleToken_append hread).1
    refine sampleToken_of_mem_signs (mem_signs_of_sampleToken hdigit hread) ?_
    rw [← List.append_assoc, htext, List.cons_append]
  | error fault =>
    obtain rfl := eq_signFault_of_sampleToken hread
    cases hlonger : sampleToken c (text ++ rest) with
    | error fault => rw [eq_signFault_of_sampleToken hlonger]; rfl
    | ok found =>
      obtain ⟨token, after⟩ := found
      have hsign := mem_signs_of_sampleToken hdigit hlonger
      obtain ⟨htext, hne⟩ := sampleToken_append hlonger
      obtain ⟨d, word, hword⟩ := List.exists_cons_of_ne_nil hne
      rw [hword] at htext
      obtain ⟨rfl, htail⟩ := List.cons.inj htext
      have hcontinues := continues_of_mem_tail_signs hsign
      rw [hword, List.tail_cons] at hcontinues
      obtain ⟨more, rfl⟩ := h.exists_append hcontinues htail.symm
      have hshort : sampleToken d (word ++ more) = .ok (token, more) :=
        sampleToken_of_mem_signs hsign (by rw [hword]; rfl)
      rw [hshort] at hread
      cases hread

theorem dropBase?_append_of_delimited (h : Delimited rest) (read : List Token) :
    dropBase? read (text ++ rest) = dropBase? read text := by
  cases text with
  | cons c text => cases read <;> rfl
  | nil =>
    cases rest with
    | nil => rfl
    | cons c rest =>
      have hc := h.not_isDigit c rfl
      cases read <;> simp [dropBase?, hc]

/-- Reading a text in front of a delimiter and then what follows it. -/
theorem ofSamplesFrom_append (h : Delimited rest) (read : List Token) :
    ofSamplesFrom read (text ++ rest)
      = ofSamplesFrom read text >>= fun tokens => ofSamplesFrom tokens.reverse rest := by
  fun_induction ofSamplesFrom read text with
  | case1 read =>
    show ofSamplesFrom read rest = ofSamplesFrom read.reverse.reverse rest
    rw [List.reverse_reverse]
  | case2 read c text hblank ih => rw [List.cons_append, ofSamplesFrom_blank hblank, ih]
  | case3 read c text hblank hletter hbase =>
    rw [List.cons_append, ofSamplesFrom_exponent (by simpa using hblank) hletter,
      dropBase?_append_of_delimited h, hbase]
    rfl
  | case4 read c text hblank hletter earlier hbase ih =>
    rw [List.cons_append, ofSamplesFrom_exponent (by simpa using hblank) hletter,
      dropBase?_append_of_delimited h, hbase, splitNumber_append_of_delimited h]
    exact ih
  | case5 read c text hblank hletter fault hread =>
    rw [List.cons_append, ofSamplesFrom_token (by simpa using hblank) (by simpa using hletter),
      sampleToken_append_of_delimited h, hread]
    rfl
  | case6 read c text hblank hletter token after hread ih =>
    rw [List.cons_append, ofSamplesFrom_token (by simpa using hblank) (by simpa using hletter),
      sampleToken_append_of_delimited h, hread]
    exact ih

/-! ### Behind a separator -/

/-- Tokens of which the latest is not a number are of no account for what follows. -/
theorem dropBase?_append_read {read : List Token} (h : ∀ token ∈ read.head?, token.kind ≠ .number)
    (recent : List Token) (text : Text) :
    dropBase? (recent ++ read) text = (dropBase? recent text).map (· ++ read) := by
  cases recent with
  | nil =>
    cases read with
    | nil => cases text <;> rfl
    | cons token read =>
      have hkind := h token rfl
      cases text <;> simp [dropBase?, hkind]
  | cons token recent =>
    cases text with
    | nil => rfl
    | cons digit text =>
      simp only [dropBase?, List.cons_append]
      split <;> rfl

/-- Behind a token that is not a number reading starts afresh. -/
theorem ofSamplesFrom_append_read {read : List Token}
    (h : ∀ token ∈ read.head?, token.kind ≠ .number) (recent : List Token) (text : Text) :
    ofSamplesFrom (recent ++ read) text
      = (ofSamplesFrom recent text).map (read.reverse ++ ·) := by
  fun_induction ofSamplesFrom recent text with
  | case1 recent =>
    rw [ofSamplesFrom_nil, List.reverse_append]
    rfl
  | case2 recent c text hblank ih => rw [ofSamplesFrom_blank hblank, ih]
  | case3 recent c text hblank hletter hbase =>
    rw [ofSamplesFrom_exponent (by simpa using hblank) hletter, dropBase?_append_read h, hbase]
    rfl
  | case4 recent c text hblank hletter earlier hbase ih =>
    rw [ofSamplesFrom_exponent (by simpa using hblank) hletter, dropBase?_append_read h, hbase]
    exact ih
  | case5 recent c text hblank hletter fault hread =>
    rw [ofSamplesFrom_token (by simpa using hblank) (by simpa using hletter), hread]
    rfl
  | case6 recent c text hblank hletter token after hread ih =>
    rw [ofSamplesFrom_token (by simpa using hblank) (by simpa using hletter), hread]
    exact ih

/-- The tokens of a text that starts with a sign. -/
theorem ofSamplesFrom_sign {sign : Token} (h : sign ∈ signs) (read : List Token) (text : Text) :
    ofSamplesFrom read (sign.text ++ text) = ofSamplesFrom (sign :: read) text := by
  have hstart : ∀ sign ∈ signs,
      sign.text.head?.all (fun c => !isBlank c && !isExponentLetter c) = true := by
    decide
  have hne : ∀ sign ∈ signs, sign.text ≠ [] := by decide
  obtain ⟨c, word, hword⟩ := List.exists_cons_of_ne_nil (hne sign h)
  obtain ⟨hblank, hletter⟩ : isBlank c = false ∧ isExponentLetter c = false := by
    simpa [hword] using hstart sign h
  have hread : sampleToken c (word ++ text) = .ok (sign, text) :=
    sampleToken_of_mem_signs h (by rw [hword]; rfl)
  rw [hword, List.cons_append, ofSamplesFrom_token hblank hletter, hread]
  rfl

/-- The tokens between which a clause lists its samples: commas and marks. -/
def separators : List Token :=
  signs.filter fun token => token.kind ≠ .range ∧ token.kind ≠ .ellipsis

theorem delimited_separator {separator : Token} (h : separator ∈ separators) (text : Text) :
    Delimited (separator.text ++ text) := by
  have hall : ∀ separator ∈ separators, Delimited separator.text ∧ separator.text ≠ [] := by
    decide
  exact (hall separator h).1.append (hall separator h).2 text

/-- The tokens of two texts with a separator between them. -/
theorem ofSamples_append_separator {separator : Token} (h : separator ∈ separators)
    (front back : Text) :
    ofSamples (front ++ (separator.text ++ back)) = do
      let tokens ← ofSamples front
      let more ← ofSamples back
      return tokens ++ separator :: more := by
  have hkind : ∀ separator ∈ separators, separator ∈ signs ∧ separator.kind ≠ .number := by decide
  obtain ⟨hsign, hnumber⟩ := hkind separator h
  rw [ofSamples, ofSamplesFrom_append (delimited_separator h back)]
  show ofSamples front >>= _ = ofSamples front >>= _
  congr 1
  funext tokens
  have hread : ∀ token ∈ (separator :: tokens.reverse).head?, token.kind ≠ .number := by
    simpa using hnumber
  rw [ofSamplesFrom_sign hsign, ← List.nil_append (separator :: tokens.reverse),
    ofSamplesFrom_append_read hread]
  show (ofSamples back).map _ = ofSamples back >>= _
  cases ofSamples back with
  | error fault => rfl
  | ok more =>
    simp [Except.map, bind, Except.bind, pure, Except.pure]

/-! ### Blanks and numerals -/

/-- The text of a number: digits, and possibly a point with digits behind it. -/
inductive IsNumeral : Text → Prop where
  /-- Digits. -/
  | whole {digits : Text} (hne : digits ≠ []) (h : allDigits digits = true) : IsNumeral digits
  /-- Digits on both sides of a point. -/
  | decimal {digits fraction : Text} (hne : digits ≠ []) (h : allDigits digits = true)
    (hfraction : fraction ≠ []) (hplaces : allDigits fraction = true) :
    IsNumeral (digits ++ '.' :: fraction)

theorem toNat_of_isDigit {c : Char} (h : c.isDigit = true) : 48 ≤ c.toNat ∧ c.toNat ≤ 57 :=
  Char.isDigit_iff_toNat.1 h

theorem not_isBlank_of_isDigit {c : Char} (h : c.isDigit = true) : isBlank c = false := by
  have hbounds := toNat_of_isDigit h
  simp [isBlank]
  omega

theorem not_isExponentLetter_of_isDigit {c : Char} (h : c.isDigit = true) :
    isExponentLetter c = false := by
  simp only [isExponentLetter, Bool.or_eq_false_iff, decide_eq_false_iff_not]
  constructor
  · rintro rfl
    cases h
  · rintro rfl
    cases h

/-- Blanks delimit tokens. -/
theorem not_continues_of_isBlank {c : Char} (h : isBlank c = true) : continues c = false := by
  have hletters : ['.', 'i', 'n', 't', 'e', 'g', 'r', 'd', 'c', 'm', 'a', 'l'].all
      (fun c => !isBlank c) = true := by
    decide
  rw [← Bool.not_eq_true]
  intro hcontinues
  rw [continues, Bool.or_eq_true, decide_eq_true_eq] at hcontinues
  rcases hcontinues with hdigit | hletter
  · cases h.symm.trans (not_isBlank_of_isDigit hdigit)
  · have hc := List.all_eq_true.1 hletters c hletter
    rw [h] at hc
    cases hc

theorem delimited_of_blanks {gap : Text} (h : gap.all isBlank = true) : Delimited gap := by
  cases gap with
  | nil => simp [Delimited]
  | cons c gap =>
    exact Delimited.cons (not_continues_of_isBlank (Bool.and_eq_true_iff.1 h).1) gap

theorem IsNumeral.exists_cons (h : IsNumeral text) :
    ∃ c more, text = c :: more ∧ c.isDigit = true := by
  cases h with
  | whole hne hdigits | decimal hne hdigits =>
    obtain ⟨c, more, rfl⟩ := List.exists_cons_of_ne_nil hne
    exact ⟨c, _, rfl, List.all_eq_true.1 hdigits c List.mem_cons_self⟩

theorem takeWhile_append_of_allDigits {digits : Text} (h : allDigits digits = true)
    (hrest : ∀ c ∈ rest.head?, c.isDigit = false) :
    (digits ++ rest).takeWhile Char.isDigit = digits ∧
      (digits ++ rest).dropWhile Char.isDigit = rest := by
  have hall := List.all_eq_true.1 h
  obtain ⟨htake, hdrop⟩ := takeWhile_append_of_head hrest digits
  rw [htake, hdrop, List.takeWhile_eq_self_iff.2 hall, List.dropWhile_eq_nil_iff.2 hall]
  exact ⟨rfl, rfl⟩

/-- A numeral is split off whole if neither a digit nor a point follows. -/
theorem splitNumber_append_of_isNumeral (h : IsNumeral text)
    (hrest : ∀ c ∈ rest.head?, c.isDigit = false ∧ c ≠ '.') :
    splitNumber (text ++ rest) = (text, rest) := by
  have hstop : ∀ c ∈ rest.head?, c.isDigit = false := fun c hc => (hrest c hc).1
  cases h with
  | whole hne hdigits =>
    obtain ⟨htake, hdrop⟩ := takeWhile_append_of_allDigits hdigits hstop
    unfold splitNumber
    rw [htake, hdrop]
    cases rest with
    | nil => rfl
    | cons c rest => simp [(hrest c rfl).2]
  | @decimal digits fraction hne hdigits hfraction hplaces =>
    have hpoint : ∀ c ∈ ('.' :: (fraction ++ rest)).head?, c.isDigit = false := by
      simp
    obtain ⟨htake, hdrop⟩ := takeWhile_append_of_allDigits hdigits hpoint
    obtain ⟨hplaces', hbehind⟩ := takeWhile_append_of_allDigits hplaces hstop
    obtain ⟨c, more, rfl⟩ := List.exists_cons_of_ne_nil hfraction
    have hc : c.isDigit = true := List.all_eq_true.1 hplaces c List.mem_cons_self
    rw [List.append_assoc, List.cons_append]
    unfold splitNumber
    rw [htake, hdrop]
    simp only [List.cons_append] at hplaces' hbehind ⊢
    simp only [hc, if_true, hplaces', hbehind]

theorem ofSamplesFrom_blanks {gap : Text} (h : gap.all isBlank = true) (read : List Token)
    (rest : Text) : ofSamplesFrom read (gap ++ rest) = ofSamplesFrom read rest := by
  induction gap with
  | nil => rfl
  | cons c gap ih =>
    obtain ⟨hc, hgap⟩ := Bool.and_eq_true_iff.1 h
    rw [List.cons_append, ofSamplesFrom_blank hc, ih hgap]

/-- The tokens of a text that starts with a numeral. -/
theorem ofSamplesFrom_numeral (h : IsNumeral text)
    (hrest : ∀ c ∈ rest.head?, c.isDigit = false ∧ c ≠ '.') (read : List Token) :
    ofSamplesFrom read (text ++ rest) = ofSamplesFrom ({ kind := .number, text } :: read) rest := by
  have hsplit := splitNumber_append_of_isNumeral h hrest
  obtain ⟨c, more, rfl, hc⟩ := h.exists_cons
  rw [List.cons_append] at hsplit ⊢
  rw [ofSamplesFrom_token (not_isBlank_of_isDigit hc) (not_isExponentLetter_of_isDigit hc),
    sampleToken_of_isDigit hc, hsplit]
  rfl

theorem splitNumber_of_isNumeral (h : IsNumeral text) : splitNumber text = (text, []) := by
  have hend : ∀ c ∈ ([] : Text).head?, c.isDigit = false ∧ c ≠ '.' := by simp
  rw [← splitNumber_append_of_isNumeral h hend, List.append_nil]

/-- The tokens of a text that ends with a numeral. -/
theorem ofSamplesFrom_of_isNumeral (h : IsNumeral text) (read : List Token) :
    ofSamplesFrom read text = .ok (read.reverse ++ [{ kind := .number, text }]) := by
  have hend : ∀ c ∈ ([] : Text).head?, c.isDigit = false ∧ c ≠ '.' := by simp
  have hread := ofSamplesFrom_numeral h hend read
  rwa [List.append_nil, ofSamplesFrom_nil, List.reverse_cons] at hread

end MessageCatalog.Token
