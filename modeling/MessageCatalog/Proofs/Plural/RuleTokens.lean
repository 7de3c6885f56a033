import MessageCatalog.Proofs.Plural.ClauseTokens
import MessageCatalog.Proofs.Plural.Conformance
import MessageCatalog.Proofs.Text.Pieces

/-!
# The tokens of a rule hold its text

Reading the tokens of a rule loses nothing but blanks: the texts of the tokens, one after another,
are the part of the rule in front of its sample clause without the blanks in it. And it splits the
text as finely as it can: with a space between neighbours the texts are read as the same tokens
again (`ofRule_spaced`).

A token that is read is a numeral, one of a few words or one of a few signs (`IsRuleToken`). Each of
them is read whole if a space follows it or nothing does (`ruleToken_append_of_isRuleToken`), and
none holds a blank.
-/

namespace MessageCatalog.Token

open Text

/-! ### What is a token of a rule -/

/-- The words that a rule may hold. -/
def ruleWords : List Text :=
  ['a', 'n', 'd'] :: ['o', 'r'] :: Operand.all.map fun operand => [operand.letter]

/-- The tokens of a rule that are neither numbers nor words. -/
def ruleSigns : List Token :=
  [{ kind := .modulus, text := ['%'] }, { kind := .comma, text := [','] },
    { kind := .equals, text := ['='] }, { kind := .notEquals, text := ['!', '='] },
    { kind := .range, text := ['.', '.'] }]

/-- The token is one that can be read from a rule. -/
inductive IsRuleToken : Token → Prop where
  /-- A numeral is a number. -/
  | number {text : Text} (h : IsNumeral text) : IsRuleToken { kind := .number, text }
  /-- A word has the kind that belongs to it. -/
  | word {text : Text} {kind : TokenKind} (h : wordKind? text = some kind) :
    IsRuleToken { kind, text }
  /-- The others are always written alike. -/
  | sign {token : Token} (h : token ∈ ruleSigns) : IsRuleToken token

theorem mem_ruleWords_of_wordKind? {word : Text} {kind : TokenKind}
    (h : wordKind? word = some kind) : word ∈ ruleWords := by
  unfold wordKind? at h
  split at h
  next hand => simp [ruleWords, hand]
  next =>
    split at h
    next hor => simp [ruleWords, hor]
    next =>
      split at h
      next hoperand =>
        obtain ⟨operand, hoperand⟩ := Option.isSome_iff_exists.1 hoperand
        have hletter : [operand.letter] = word := by
          simpa [Operand.parse?] using List.find?_some hoperand
        have hmem : operand ∈ Operand.all := List.mem_of_find?_eq_some hoperand
        exact List.mem_cons_of_mem _ (List.mem_cons_of_mem _
          (List.mem_map.2 ⟨operand, hmem, hletter⟩))
      next => cases h

theorem isNumeral_splitNumber {c : Char} (hc : c.isDigit = true) (rest : Text) :
    IsNumeral (splitNumber (c :: rest)).1 := by
  have hdigits (text : Text) : allDigits (text.takeWhile Char.isDigit) = true :=
    List.all_eq_true.2 fun _ hmem => List.mem_takeWhile_imp hmem
  have hne : (c :: rest).takeWhile Char.isDigit ≠ [] := by simp [hc]
  unfold splitNumber
  split
  next digit more _ =>
    split
    next hdigit => exact .decimal hne (hdigits _) (by simp [hdigit]) (hdigits _)
    next => exact .whole hne (hdigits _)
  next => exact .whole hne (hdigits _)

/-- Only such tokens are read. -/
theorem isRuleToken_of_ruleToken {c : Char} {rest after : Text} {token : Token}
    (h : ruleToken c rest = .ok (token, after)) : IsRuleToken token := by
  unfold ruleToken at h
  split at h
  next hdigit =>
    obtain ⟨rfl, -⟩ := Prod.mk.inj (Except.ok.inj h)
    exact .number (isNumeral_splitNumber hdigit rest)
  next =>
    split at h
    next =>
      simp only [splitWord] at h
      split at h
      next kind hkind =>
        obtain ⟨rfl, -⟩ := Prod.mk.inj (Except.ok.inj h)
        exact .word hkind
      next => cases h
    next => split at h <;> cases h <;> exact .sign (by simp [ruleSigns])

/-! ### What the text of a token holds -/

theorem isDigit_or_point_of_isNumeral {text : Text} (h : IsNumeral text) :
    ∀ c ∈ text, c.isDigit = true ∨ c = '.' := by
  intro c hc
  cases h with
  | whole _ hdigits => exact .inl (List.all_eq_true.1 hdigits c hc)
  | decimal _ hdigits _ hplaces =>
    rcases List.mem_append.1 hc with hc | hc
    · exact .inl (List.all_eq_true.1 hdigits c hc)
    · rcases List.mem_cons.1 hc with hc | hc
      · exact .inr hc
      · exact .inl (List.all_eq_true.1 hplaces c hc)

/-- The words of a rule hold letters only. -/
theorem letters_of_mem_ruleWords {word : Text} (h : word ∈ ruleWords) : word ≠ [] ∧
    ∀ c ∈ word, isLetter c = true ∧ c.isDigit = false ∧ isBlank c = false ∧ c ≠ '@' := by
  have hwords : ruleWords.all (fun word => word ≠ [] && word.all fun c =>
      isLetter c && (!c.isDigit && (!isBlank c && c ≠ '@'))) = true := by decide
  simpa using List.all_eq_true.1 hwords word h

/-- No token of a rule holds a blank. -/
theorem not_isBlank_of_isRuleToken {token : Token} (h : IsRuleToken token) :
    ∀ c ∈ token.text, isBlank c = false := by
  have hsigns : ruleSigns.all (fun sign => sign.text.all fun c => !isBlank c) = true := by decide
  cases h with
  | number h =>
    intro c hc
    rcases isDigit_or_point_of_isNumeral h c hc with hdigit | rfl
    · exact not_isBlank_of_isDigit hdigit
    · rfl
  | word h =>
    intro c hc
    obtain ⟨-, -, hblank, -⟩ := (letters_of_mem_ruleWords (mem_ruleWords_of_wordKind? h)).2 c hc
    exact hblank
  | sign h => simpa using List.all_eq_true.1 hsigns _ h

/-! ### Reading a token -/

theorem ofRule_nil : ofRule [] = .ok ([], []) := by rw [ofRule.eq_def]

theorem ofRule_blank {c : Char} (h : isBlank c = true) (rest : Text) :
    ofRule (c :: rest) = ofRule rest := by
  rw [ofRule.eq_def]
  exact if_pos h

theorem ofRule_token {c : Char} (hblank : isBlank c = false) (hat : c ≠ '@') {rest after : Text}
    {token : Token} (h : ruleToken c rest = .ok (token, after)) :
    ofRule (c :: rest) = (ofRule after).map fun (tokens, clause) => (token :: tokens, clause) := by
  rw [ofRule.eq_def]
  refine (if_neg (by simp [hblank])).trans ((if_neg hat).trans ?_)
  split
  next fault hread => cases hread.symm.trans h
  next found left hread =>
    obtain ⟨rfl, rfl⟩ := Prod.mk.inj (Except.ok.inj (hread.symm.trans h))
    rfl

theorem ruleToken_of_isDigit {c : Char} (h : c.isDigit = true) (rest : Text) :
    ruleToken c rest = .ok
      ({ kind := .number, text := (splitNumber (c :: rest)).1 }, (splitNumber (c :: rest)).2) := by
  unfold ruleToken
  rw [if_pos h]

theorem ruleToken_of_isLetter {c : Char} (hdigit : c.isDigit = false) (h : isLetter c = true)
    (rest : Text) : ruleToken c rest = splitWord (c :: rest) := by
  unfold ruleToken
  rw [if_neg (by simp [hdigit]), if_pos h]

theorem splitWord_append {word rest : Text} {kind : TokenKind} (h : wordKind? word = some kind)
    (hletters : ∀ c ∈ word, isLetter c = true) (hrest : ∀ c ∈ rest.head?, c = ' ') :
    splitWord (word ++ rest) = .ok ({ kind, text := word }, rest) := by
  have hstop : ∀ c ∈ rest.head?, isLetter c = false := fun c hc => by
    rw [hrest c hc]
    decide
  obtain ⟨htake, hdrop⟩ := takeWhile_append_of_head hstop word
  simp only [splitWord, htake, hdrop, List.takeWhile_eq_self_iff.2 hletters,
    List.dropWhile_eq_nil_iff.2 hletters, h, List.nil_append]

/-- In front of a space a token is read whole. -/
theorem ruleToken_append_of_isRuleToken {token : Token} (h : IsRuleToken token) {rest : Text}
    (hrest : ∀ c ∈ rest.head?, c = ' ') :
    ∃ c text, token.text = c :: text ∧ isBlank c = false ∧ c ≠ '@' ∧
      ruleToken c (text ++ rest) = .ok (token, rest) := by
  cases h with
  | number h =>
    have hstop : ∀ c ∈ rest.head?, c.isDigit = false ∧ c ≠ '.' := fun c hc => by
      rw [hrest c hc]
      decide
    have hsplit := splitNumber_append_of_isNumeral h hstop
    obtain ⟨c, more, rfl, hc⟩ := h.exists_cons
    have hat : c ≠ '@' := by
      rintro rfl
      cases hc
    refine ⟨c, more, rfl, not_isBlank_of_isDigit hc, hat, ?_⟩
    rw [List.cons_append] at hsplit
    rw [ruleToken_of_isDigit hc, hsplit]
  | @word word kind h =>
    obtain ⟨hne, hword⟩ := letters_of_mem_ruleWords (mem_ruleWords_of_wordKind? h)
    obtain ⟨c, text, rfl⟩ := List.exists_cons_of_ne_nil hne
    obtain ⟨hletter, hdigit, hblank, hat⟩ := hword c List.mem_cons_self
    refine ⟨c, text, rfl, hblank, hat, ?_⟩
    rw [ruleToken_of_isLetter hdigit hletter]
    exact splitWord_append h (fun d hd => (hword d hd).1) hrest
  | sign h =>
    simp only [ruleSigns, List.mem_cons, List.not_mem_nil, or_false] at h
    rcases h with rfl | rfl | rfl | rfl | rfl <;>
      exact ⟨_, _, rfl, by decide, by decide, rfl⟩

theorem ofRule_append_of_isRuleToken {token : Token} (h : IsRuleToken token) {rest : Text}
    (hrest : ∀ c ∈ rest.head?, c = ' ') :
    ofRule (token.text ++ rest)
      = (ofRule rest).map fun (tokens, clause) => (token :: tokens, clause) := by
  obtain ⟨c, text, htext, hblank, hat, hread⟩ := ruleToken_append_of_isRuleToken h hrest
  rw [htext, List.cons_append, ofRule_token hblank hat hread]

/-! ### Reading a rule -/

/-- The tokens that are read hold all of the text that is no blank. -/
theorem filter_eq_of_ofRule {text clause : Text} {tokens : List Token}
    (h : ofRule text = .ok (tokens, clause)) :
    (∀ token ∈ tokens, IsRuleToken token) ∧
      text.filter (fun c => !isBlank c)
        = (tokens.map Token.text).flatten ++ clause.filter fun c => !isBlank c := by
  fun_induction ofRule text generalizing tokens with
  | case1 =>
    obtain ⟨rfl, rfl⟩ := Prod.mk.inj (Except.ok.inj h)
    simp
  | case2 c rest hblank ih =>
    obtain ⟨htokens, hfilter⟩ := ih h
    exact ⟨htokens, by simp [hblank, hfilter]⟩
  | case3 rest =>
    obtain ⟨rfl, rfl⟩ := Prod.mk.inj (Except.ok.inj h)
    simp
  | case4 => cases h
  | case5 c rest _ _ token after hread ih =>
    obtain ⟨⟨more, left⟩, hmore, heq⟩ := Outcome.map_eq_ok_iff.1 h
    obtain ⟨rfl, rfl⟩ := Prod.mk.inj heq
    obtain ⟨htokens, hfilter⟩ := ih hmore
    have htoken := isRuleToken_of_ruleToken hread
    have hkept : token.text.filter (fun c => !isBlank c) = token.text :=
      List.filter_eq_self.2 fun d hd => by simp [not_isBlank_of_isRuleToken htoken d hd]
    refine ⟨List.forall_mem_cons.2 ⟨htoken, htokens⟩, ?_⟩
    rw [← (ruleToken_append hread).1, List.filter_append, hkept, hfilter, List.map_cons,
      List.flatten_cons, List.append_assoc]

/-- Tokens with a space between neighbours are read as these tokens. -/
theorem ofRule_join {tokens : List Token} (h : ∀ token ∈ tokens, IsRuleToken token) :
    ofRule (join [' '] (tokens.map Token.text)) = .ok (tokens, []) := by
  induction tokens with
  | nil => exact ofRule_nil
  | cons token tokens ih =>
    obtain ⟨htoken, htokens⟩ := List.forall_mem_cons.1 h
    cases tokens with
    | nil =>
      have hread : ofRule (token.text ++ []) = .ok ([token], []) :=
        (ofRule_append_of_isRuleToken htoken (by simp)).trans (congrArg (Except.map _) ofRule_nil)
      rw [List.append_nil] at hread
      simpa [join, List.intercalate] using hread
    | cons next more =>
      rw [List.map_cons] at ih
      rw [List.map_cons, List.map_cons, join_cons_cons,
        ofRule_append_of_isRuleToken htoken (by simp), ofRule_blank (by decide), ih htokens]
      rfl

/-- **Reading the tokens of a rule loses nothing.** The rule is what the tokens were read from,
which holds no `@`, and the sample clause behind it, which starts with one if it is not empty. The
texts of the tokens are the former without its blanks. With a space between neighbours they are read
as the same tokens, and nothing is left. -/
theorem ofRule_spaced {text clause : Text} {tokens : List Token}
    (h : ofRule text = .ok (tokens, clause)) :
    (∃ front, text = front ++ clause ∧ '@' ∉ front ∧
      (clause = [] ∨ ∃ samples, clause = '@' :: samples) ∧
      (tokens.map Token.text).flatten = front.filter fun c => !isBlank c) ∧
    ofRule (join [' '] (tokens.map Token.text)) = .ok (tokens, []) := by
  obtain ⟨htokens, hfilter⟩ := filter_eq_of_ofRule h
  obtain ⟨front, rfl, hfront, hclause⟩ := split_of_ofRule h
  refine ⟨⟨front, rfl, hfront, ?_, ?_⟩, ofRule_join htokens⟩
  · cases clause with
    | nil => exact .inl rfl
    | cons c samples => exact .inr ⟨samples, by rw [hclause c rfl]⟩
  · rw [List.filter_append] at hfilter
    exact (List.append_cancel_right hfilter).symm

/-- A rule in which hardly any tokens are set apart, and some by other blanks than spaces. -/
def crowdedRule : Text := "n%10=2..4or\tw!=0,1.5\u00a0@integer 2".toList

/-- The tokens of `crowdedRule`. -/
def crowdedTokens : List Token :=
  [⟨.operand, ['n']⟩, ⟨.modulus, ['%']⟩, ⟨.number, ['1', '0']⟩, ⟨.equals, ['=']⟩,
    ⟨.number, ['2']⟩, ⟨.range, ['.', '.']⟩, ⟨.number, ['4']⟩, ⟨.or, ['o', 'r']⟩,
    ⟨.operand, ['w']⟩, ⟨.notEquals, ['!', '=']⟩, ⟨.number, ['0']⟩, ⟨.comma, [',']⟩,
    ⟨.number, ['1', '.', '5']⟩]

theorem ofRule_spaced_crowdedRule :
    ofRule crowdedRule = .ok (crowdedTokens, "@integer 2".toList) ∧
      ofRule "n % 10 = 2 .. 4 or w != 0 , 1.5".toList = .ok (crowdedTokens, []) := by
  have hread : ofRule crowdedRule = .ok (crowdedTokens, "@integer 2".toList) := by
    decide +kernel
  have hjoin : join [' '] (crowdedTokens.map Token.text)
      = "n % 10 = 2 .. 4 or w != 0 , 1.5".toList := by
    decide
  obtain ⟨-, hspaced⟩ := ofRule_spaced hread
  rw [hjoin] at hspaced
  exact ⟨hread, hspaced⟩

end MessageCatalog.Token
