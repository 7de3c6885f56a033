import MessageCatalog.Plural.Grammar
import MessageCatalog.Proofs.Outcome
import MessageCatalog.Proofs.Plural.Value

/-!
# What the readers of plural rules accept

The grammar of plural rules is stated here as relations between tokens and what they stand for, one
for each line of the grammar (`IsNumber` to `IsRule`), and it is proved that reading a rule accepts
the tokens that the grammar derives and no others (`Condition.ofTokens_eq_ok_iff`).

A reader takes as much as it can, so what it takes depends on the token behind it. `Recognizes` says
that a reader takes phrases only, and takes a phrase if no token of the kinds that could continue it
follows. Each way of putting readers together keeps this, with the kinds that can continue the whole
computed from those of the parts; a line of the grammar is put together from the lines below it, and
no line has to be read token by token. Behind the last token nothing follows, so for a whole rule
the kinds do not matter.
-/

namespace MessageCatalog

/-! ### The grammar -/

namespace Grammar

/-- Tokens that are a number. -/
inductive IsNumber : List Token → Decimal → Prop where
  /-- One token whose text is a number. -/
  | token {text : Text} {x : Decimal} (h : Decimal.parse? text = some x) :
    IsNumber [{ kind := .number, text }] x

/-- Tokens that are a range. -/
inductive IsRange : List Token → Bounds → Prop where
  /-- A single number. -/
  | single {tokens : List Token} {x : Decimal} (h : IsNumber tokens x) :
    IsRange tokens { low := x, high := x }
  /-- Two numbers with the sign of a range between them. -/
  | pair {front back : List Token} {low high : Decimal} (text : Text) (hlow : IsNumber front low)
    (hhigh : IsNumber back high) : IsRange (front ++ { kind := .range, text } :: back) { low, high }

/-- Tokens that are items with separators of a kind between them. -/
inductive Separated {α : Type} (separator : TokenKind) (item : List Token → α → Prop) :
    List Token → List α → Prop where
  /-- A single item. -/
  | single {tokens : List Token} {a : α} (h : item tokens a) : Separated separator item tokens [a]
  /-- An item, a separator, and more items. -/
  | cons {front back : List Token} {a : α} {as : List α} (text : Text) (h : item front a)
    (hmore : Separated separator item back as) :
    Separated separator item (front ++ { kind := separator, text } :: back) (a :: as)

/-- Tokens that are an operand, possibly reduced by a modulus. -/
inductive IsSubject : List Token → Operand → Option Nat → Prop where
  /-- The letter of an operand. -/
  | plain (operand : Operand) :
    IsSubject [{ kind := .operand, text := [operand.letter] }] operand none
  /-- The letter of an operand, the sign of a modulus, and a number without fraction digits that is
  not zero. -/
  | reduced (operand : Operand) (text : Text) {back : List Token} {m : Decimal}
    (h : IsNumber back m) (hdigits : m.digits = 0) (hzero : m.toRat ≠ 0) :
    IsSubject ({ kind := .operand, text := [operand.letter] } :: { kind := .modulus, text } :: back)
      operand (some m.integer)

/-- A token that is the sign of a comparison. -/
inductive IsSign : Token → Comparison → Prop where
  /-- The sign for lying within a range. -/
  | equal (text : Text) : IsSign { kind := .equals, text } .equal
  /-- The sign for lying outside of a range. -/
  | notEqual (text : Text) : IsSign { kind := .notEquals, text } .notEqual

/-- Tokens that are a relation. -/
inductive IsRelation : List Token → Relation → Prop where
  /-- An operand, the sign of a comparison, and ranges with commas between them. -/
  | compare {front back : List Token} {operand : Operand} {modulus : Option Nat} {sign : Token}
    {comparison : Comparison} {bounds : List Bounds} (hsubject : IsSubject front operand modulus)
    (hsign : IsSign sign comparison) (hbounds : Separated .comma IsRange back bounds) :
    IsRelation (front ++ sign :: back) { operand, modulus, comparison, bounds }

/-- Tokens that are relations joined by `and`. -/
def IsChain : List Token → List Relation → Prop := Separated .and IsRelation

/-- Tokens that are a rule: chains joined by `or`. -/
def IsRule : List Token → List (List Relation) → Prop := Separated .or IsChain

/-- What holds of every item holds of all that stand between the separators. -/
theorem Separated.forall_mem {α : Type} {separator : TokenKind} {item : List Token → α → Prop}
    {good : α → Prop} (hgood : ∀ front a, item front a → good a) {tokens : List Token}
    {as : List α} (h : Separated separator item tokens as) : ∀ a ∈ as, good a := by
  induction h with
  | single hitem => simpa using hgood _ _ hitem
  | cons _ hitem _ ih =>
    intro a hmem
    rcases List.mem_cons.1 hmem with rfl | hmem
    · exact hgood _ _ hitem
    · exact ih a hmem

/-- Items that are made of other ones are separated as these are. -/
theorem Separated.map_iff {α β : Type} {separator : TokenKind} {item : List Token → α → Prop}
    {f : α → β} {tokens : List Token} {bs : List β} :
    Separated separator (fun front b => ∃ a, item front a ∧ b = f a) tokens bs ↔
      ∃ as, Separated separator item tokens as ∧ bs = as.map f := by
  constructor
  · intro h
    induction h with
    | single hitem =>
      obtain ⟨a, ha, rfl⟩ := hitem
      exact ⟨[a], .single ha, rfl⟩
    | cons text hitem _ ih =>
      obtain ⟨a, ha, rfl⟩ := hitem
      obtain ⟨as, has, rfl⟩ := ih
      exact ⟨a :: as, .cons text ha has, rfl⟩
  · rintro ⟨as, h, rfl⟩
    induction h with
    | single hitem => exact .single ⟨_, hitem, rfl⟩
    | cons text hitem _ ih => exact .cons text ⟨_, hitem, rfl⟩ ih

end Grammar

/-! ### Readers and phrases -/

namespace Reader

open Grammar

/-- The next token, if there is one, is of none of these kinds. -/
def Stops (kinds : List TokenKind) (tokens : List Token) : Prop :=
  ∀ token ∈ tokens.head?, token.kind ∉ kinds

theorem stops_nil (kinds : List TokenKind) : Stops kinds [] := by simp [Stops]

theorem stops_cons {kinds : List TokenKind} {token : Token} {tokens : List Token} :
    Stops kinds (token :: tokens) ↔ token.kind ∉ kinds := by
  simp [Stops]

theorem Stops.mono {some all : List TokenKind} {tokens : List Token} (h : Stops all tokens)
    (hsubset : some ⊆ all) : Stops some tokens :=
  fun token hmem hkind => h token hmem (hsubset hkind)

theorem accept?_eq_some_iff {kind : TokenKind} {tokens rest : List Token} :
    accept? kind tokens = some rest ↔ ∃ text, tokens = { kind, text } :: rest := by
  cases tokens with
  | nil => simp [accept?]
  | cons token tokens =>
    obtain ⟨found, text⟩ := token
    by_cases h : found = kind <;> simp [accept?, h]

theorem accept?_eq_none_iff {kind : TokenKind} {tokens : List Token} :
    accept? kind tokens = none ↔ Stops [kind] tokens := by
  cases tokens with
  | nil => simp [accept?, Stops]
  | cons token tokens => simp [accept?, Stops]

/-- A reader takes phrases only, and takes a phrase if no token follows of a kind that could
continue it. -/
structure Recognizes {α : Type} (reader : Reader α) (phrase : List Token → α → Prop)
    (more : List TokenKind) : Prop where
  /-- What is read is a phrase. -/
  sound : ∀ {tokens rest : List Token} {a : α}, reader.read tokens = .ok (a, rest) →
    ∃ front, tokens = front ++ rest ∧ phrase front a
  /-- A phrase is read if nothing continues it. -/
  complete : ∀ {front : List Token} {a : α}, phrase front a → ∀ {rest : List Token},
    Stops more rest → reader.read (front ++ rest) = .ok (a, rest)

variable {α β : Type} {reader first : Reader α} {phrase : List Token → α → Prop}
  {more continued : List TokenKind}

theorem Recognizes.congr (h : reader.Recognizes phrase more) {same : List Token → α → Prop}
    (hsame : ∀ front a, phrase front a ↔ same front a) : reader.Recognizes same more where
  sound hread := by
    obtain ⟨front, hsplit, hphrase⟩ := h.sound hread
    exact ⟨front, hsplit, (hsame _ _).1 hphrase⟩
  complete hphrase _ hstops := h.complete ((hsame _ _).2 hphrase) hstops

/-- No phrase is empty, because reading takes a token. -/
theorem Recognizes.ne_nil (h : reader.Recognizes phrase more) {front : List Token} {a : α}
    (hphrase : phrase front a) : front ≠ [] := by
  rintro rfl
  exact absurd (reader.shrinks (h.complete hphrase (stops_nil more))) (by simp)

theorem recognizes_expect (kinds : List TokenKind) :
    (expect kinds).Recognizes (fun front token => front = [token] ∧ token.kind ∈ kinds) [] where
  sound {tokens rest token} hread := by
    cases tokens with
    | nil => simp [expect] at hread
    | cons found tokens =>
      by_cases hkind : found.kind ∈ kinds
      · simp only [expect, hkind, if_true, Except.ok.injEq, Prod.mk.injEq] at hread
        obtain ⟨rfl, rfl⟩ := hread
        exact ⟨[found], rfl, rfl, hkind⟩
      · simp [expect, hkind] at hread
  complete := by
    rintro _ token ⟨rfl, hkind⟩ rest -
    simp [expect, hkind]

theorem Recognizes.check (h : reader.Recognizes phrase more) (convert : α → Except RuleFault β) :
    (reader.check convert).Recognizes
      (fun front b => ∃ a, phrase front a ∧ convert a = .ok b) more where
  sound hread := by
    obtain ⟨⟨a, left⟩, hfirst, hchecked⟩ := Outcome.bind_eq_ok_iff.1 hread
    obtain ⟨b, hconvert, hresult⟩ := Outcome.bind_eq_ok_iff.1 hchecked
    obtain ⟨rfl, rfl⟩ := Prod.mk.inj (Except.ok.inj hresult)
    obtain ⟨front, hsplit, hphrase⟩ := h.sound hfirst
    exact ⟨front, hsplit, a, hphrase, hconvert⟩
  complete := by
    rintro front b ⟨a, hphrase, hconvert⟩ rest hstops
    refine Outcome.bind_eq_ok_iff.2 ⟨(a, rest), h.complete hphrase hstops, ?_⟩
    exact Outcome.bind_eq_ok_iff.2 ⟨b, hconvert, rfl⟩

/-- The second phrase must not look like a continuation of the first one. -/
theorem Recognizes.andThen (h : first.Recognizes phrase more) {second : α → Reader β}
    {next : α → List Token → β → Prop} (hsecond : ∀ a, (second a).Recognizes (next a) continued)
    (hstops : ∀ {a front b}, next a front b → ∀ rest, Stops more (front ++ rest)) :
    (first.andThen second).Recognizes
      (fun tokens b => ∃ front back a, tokens = front ++ back ∧ phrase front a ∧ next a back b)
      continued where
  sound hread := by
    obtain ⟨⟨a, left⟩, hfirst, hbehind⟩ := Outcome.bind_eq_ok_iff.1 hread
    obtain ⟨front, rfl, hphrase⟩ := h.sound hfirst
    obtain ⟨back, rfl, hnext⟩ := (hsecond a).sound hbehind
    exact ⟨front ++ back, (List.append_assoc ..).symm, front, back, a, rfl, hphrase, hnext⟩
  complete := by
    rintro _ b ⟨front, back, a, rfl, hphrase, hnext⟩ rest hrest
    rw [List.append_assoc]
    exact Outcome.bind_eq_ok_iff.2
      ⟨(a, back ++ rest), h.complete hphrase (hstops hnext rest), (hsecond a).complete hnext hrest⟩

/-- Tokens that are a phrase, or a phrase, a token of the given kind, and another phrase. -/
inductive Maybe (phrase : List Token → α → Prop) (kind : TokenKind)
    (next : List Token → β → Prop) : List Token → α × Option β → Prop where
  /-- The first phrase alone. -/
  | alone {tokens : List Token} {a : α} (h : phrase tokens a) :
    Maybe phrase kind next tokens (a, none)
  /-- Both phrases. -/
  | both {front back : List Token} {a : α} {b : β} (text : Text) (h : phrase front a)
    (hnext : next back b) : Maybe phrase kind next (front ++ { kind, text } :: back) (a, some b)

theorem Recognizes.andMaybe (h : first.Recognizes phrase more) {second : Reader β}
    {next : List Token → β → Prop} (hsecond : second.Recognizes next continued) {kind : TokenKind}
    (hkind : kind ∉ more) :
    (first.andMaybe kind second).Recognizes (Maybe phrase kind next)
      (kind :: (more ++ continued)) where
  sound hread := by
    obtain ⟨⟨a, left⟩, hfirst, hmaybe⟩ := Outcome.bind_eq_ok_iff.1 hread
    obtain ⟨front, rfl, hphrase⟩ := h.sound hfirst
    cases haccept : accept? kind left with
    | none =>
      simp only [haccept] at hmaybe
      obtain ⟨rfl, rfl⟩ := Prod.mk.inj (Except.ok.inj hmaybe)
      exact ⟨front, rfl, .alone hphrase⟩
    | some behind =>
      simp only [haccept] at hmaybe
      obtain ⟨⟨b, rest⟩, hbehind, hresult⟩ := Outcome.bind_eq_ok_iff.1 hmaybe
      obtain ⟨rfl, rfl⟩ := Prod.mk.inj (Except.ok.inj hresult)
      obtain ⟨text, rfl⟩ := accept?_eq_some_iff.1 haccept
      obtain ⟨back, rfl, hnext⟩ := hsecond.sound hbehind
      exact ⟨front ++ { kind, text } :: back, by simp, .both text hphrase hnext⟩
  complete := by
    rintro _ _ (hphrase | ⟨text, hphrase, hnext⟩) rest hstops
    · have haccept : accept? kind rest = none := accept?_eq_none_iff.2 (hstops.mono (by simp))
      refine Outcome.bind_eq_ok_iff.2 ⟨(_, rest), h.complete hphrase (hstops.mono (by simp)), ?_⟩
      simp only [haccept]
      rfl
    · rw [List.append_assoc, List.cons_append]
      refine Outcome.bind_eq_ok_iff.2 ⟨(_, _), h.complete hphrase (stops_cons.2 hkind), ?_⟩
      simp only [accept?, if_true]
      exact Outcome.bind_eq_ok_iff.2
        ⟨(_, rest), hsecond.complete hnext (hstops.mono (by simp)), rfl⟩

theorem itemsFrom_last {separator : TokenKind} {tokens rest : List Token} {a : α}
    (hitem : reader.read tokens = .ok (a, rest)) (haccept : accept? separator rest = none) :
    itemsFrom separator reader tokens = .ok ([a], rest) := by
  rw [itemsFrom]
  split
  next hfault => simp [hfault] at hitem
  next found left hfound =>
    obtain ⟨rfl, rfl⟩ := Prod.mk.inj (Except.ok.inj (hfound.symm.trans hitem))
    split
    next => rfl
    next hsome => simp [hsome] at haccept

theorem itemsFrom_more {separator : TokenKind} {tokens rest behind : List Token} {a : α}
    (hitem : reader.read tokens = .ok (a, rest)) (haccept : accept? separator rest = some behind) :
    itemsFrom separator reader tokens
      = (itemsFrom separator reader behind).map fun (as, left) => (a :: as, left) := by
  rw [itemsFrom]
  split
  next hfault => simp [hfault] at hitem
  next found left hfound =>
    obtain ⟨rfl, rfl⟩ := Prod.mk.inj (Except.ok.inj (hfound.symm.trans hitem))
    split
    next hnone => simp [hnone] at haccept
    next more hsome =>
      obtain rfl := Option.some.inj (hsome.symm.trans haccept)
      rfl

/-- What the loop takes are items with separators between them. -/
theorem separated_of_itemsFrom {separator : TokenKind} (h : reader.Recognizes phrase more)
    {tokens rest : List Token} {as : List α}
    (hread : itemsFrom separator reader tokens = .ok (as, rest)) :
    ∃ front, tokens = front ++ rest ∧ Separated separator phrase front as := by
  fun_induction itemsFrom separator reader tokens generalizing as rest with
  | case1 => cases hread
  | case2 tokens a left hitem haccept =>
    obtain ⟨rfl, rfl⟩ := Prod.mk.inj (Except.ok.inj hread)
    obtain ⟨front, hsplit, hphrase⟩ := h.sound hitem
    exact ⟨front, hsplit, .single hphrase⟩
  | case3 tokens a left hitem behind haccept ih =>
    obtain ⟨⟨bs, end_⟩, hmore, heq⟩ := Outcome.map_eq_ok_iff.1 hread
    obtain ⟨rfl, rfl⟩ := Prod.mk.inj heq
    obtain ⟨front, rfl, hphrase⟩ := h.sound hitem
    obtain ⟨text, rfl⟩ := accept?_eq_some_iff.1 haccept
    obtain ⟨back, rfl, hback⟩ := ih hmore
    exact ⟨front ++ { kind := separator, text } :: back, by simp, .cons text hphrase hback⟩

/-- The loop takes items with separators between them up to the last one. -/
theorem itemsFrom_of_separated {separator : TokenKind} (h : reader.Recognizes phrase more)
    (hseparator : separator ∉ more) {front rest : List Token} {as : List α}
    (hfront : Separated separator phrase front as) (hstops : Stops (separator :: more) rest) :
    itemsFrom separator reader (front ++ rest) = .ok (as, rest) := by
  induction hfront with
  | single hphrase =>
    have haccept : accept? separator rest = none := accept?_eq_none_iff.2 (hstops.mono (by simp))
    exact itemsFrom_last (h.complete hphrase (hstops.mono (by simp))) haccept
  | @cons front back a as text hphrase _ ih =>
    rw [List.append_assoc, List.cons_append,
      itemsFrom_more (h.complete hphrase (stops_cons.2 hseparator))
        (accept?_eq_some_iff.2 ⟨text, rfl⟩), ih]
    rfl

theorem Recognizes.items (h : reader.Recognizes phrase more) {separator : TokenKind}
    (hseparator : separator ∉ more) :
    (items separator reader).Recognizes (Separated separator phrase) (separator :: more) where
  sound := separated_of_itemsFrom h
  complete hfront _ hstops := itemsFrom_of_separated h hseparator hfront hstops

/-! ### The lines of the grammar -/

theorem recognizes_number : number.Recognizes IsNumber [] := by
  refine ((recognizes_expect [.number]).check _).congr fun front x => ?_
  constructor
  · rintro ⟨⟨kind, text⟩, ⟨rfl, hkind⟩, hparse⟩
    obtain rfl := List.mem_singleton.1 hkind
    cases hx : Decimal.parse? text with
    | none => simp [hx] at hparse
    | some y =>
      simp only [hx, Except.ok.injEq] at hparse
      exact .token (hparse ▸ hx)
  · rintro ⟨hx⟩
    exact ⟨_, ⟨rfl, List.mem_singleton.2 rfl⟩, by simp [hx]⟩

theorem parse?_letter_iff {text : Text} {operand : Operand} :
    Operand.parse? text = some operand ↔ text = [operand.letter] := by
  constructor
  · intro h
    have := List.find?_some h
    simpa [eq_comm] using this
  · rintro rfl
    cases operand <;> rfl

theorem recognizes_operand :
    Reader.operand.Recognizes
      (fun front operand => front = [{ kind := .operand, text := [operand.letter] }]) [] := by
  refine ((recognizes_expect [.operand]).check _).congr fun front operand => ?_
  constructor
  · rintro ⟨⟨kind, text⟩, ⟨rfl, hkind⟩, hparse⟩
    obtain rfl := List.mem_singleton.1 hkind
    cases hoperand : Operand.parse? text with
    | none => simp [hoperand] at hparse
    | some found =>
      simp only [hoperand, Except.ok.injEq] at hparse
      rw [← hparse, parse?_letter_iff.1 hoperand]
  · rintro rfl
    exact ⟨_, ⟨rfl, List.mem_singleton.2 rfl⟩, by simp [parse?_letter_iff.2 rfl]⟩

theorem recognizes_modulus :
    modulus.Recognizes
      (fun front m => ∃ x, IsNumber front x ∧ x.digits = 0 ∧ x.toRat ≠ 0 ∧ m = x.integer) [] := by
  refine (recognizes_number.check _).congr fun front m => exists_congr fun x => ?_
  refine and_congr_right fun _ => ?_
  rw [ne_eq, Decimal.toRat_eq_zero_iff]
  by_cases hdigits : x.digits = 0
  · cases hzero : x.isZero <;> simp [hdigits, eq_comm]
  · simp [hdigits, Nat.pos_of_ne_zero hdigits]

theorem recognizes_comparison :
    comparison.Recognizes (fun front c => ∃ sign, front = [sign] ∧ IsSign sign c) [] := by
  refine ((recognizes_expect [.equals, .notEquals]).check _).congr fun front c => ?_
  constructor
  · rintro ⟨⟨kind, text⟩, ⟨rfl, hkind⟩, hsign⟩
    refine ⟨_, rfl, ?_⟩
    obtain rfl := Except.ok.inj hsign
    rcases List.mem_pair.1 hkind with rfl | rfl
    · exact .equal text
    · exact .notEqual text
  · rintro ⟨_, rfl, ⟨text⟩ | ⟨text⟩⟩
    · exact ⟨_, ⟨rfl, by simp⟩, rfl⟩
    · exact ⟨_, ⟨rfl, by simp⟩, rfl⟩

theorem recognizes_bounds : bounds.Recognizes IsRange [.range] := by
  refine ((recognizes_number.andMaybe recognizes_number (by simp)).check _).congr
    fun front b => ?_
  constructor
  · rintro ⟨_, hlow | ⟨text, hlow, hhigh⟩, hb⟩
    · obtain rfl := Except.ok.inj hb
      exact .single hlow
    · obtain rfl := Except.ok.inj hb
      exact .pair text hlow hhigh
  · rintro (hlow | ⟨text, hlow, hhigh⟩)
    · exact ⟨_, .alone hlow, rfl⟩
    · exact ⟨_, .both text hlow hhigh, rfl⟩

theorem recognizes_subject :
    (Reader.operand.andMaybe .modulus modulus).Recognizes
      (fun front subject => IsSubject front subject.1 subject.2) [.modulus] := by
  refine (recognizes_operand.andMaybe recognizes_modulus (by simp)).congr fun front subject => ?_
  constructor
  · rintro (rfl | ⟨text, rfl, ⟨x, hx, hdigits, hzero, rfl⟩⟩)
    · exact .plain _
    · exact .reduced _ text hx hdigits hzero
  · obtain ⟨operand, modulus⟩ := subject
    intro h
    cases h with
    | plain => exact .alone rfl
    | reduced _ text hx hdigits hzero =>
      rw [← List.singleton_append]
      exact .both text rfl ⟨_, hx, hdigits, hzero, rfl⟩

theorem recognizes_relation : relation.Recognizes IsRelation [.comma, .range] := by
  have hback (subject : Operand × Option Nat) := recognizes_comparison.andThen
    (fun comparison => (recognizes_bounds.items (by simp : TokenKind.comma ∉ _)).check
      fun bounds => .ok (Relation.mk subject.1 subject.2 comparison bounds))
    (fun _ _ _ => by simp)
  refine (recognizes_subject.andThen hback ?_).congr fun tokens r => ?_
  · rintro _ _ _ ⟨_, _, _, rfl, ⟨sign, rfl, hsign⟩, -⟩ rest
    cases hsign <;> simp [Stops]
  constructor
  · rintro ⟨front, _, subject, rfl, hsubject, _, back, _, rfl, ⟨sign, rfl, hsign⟩, bounds,
      hbounds, hr⟩
    obtain rfl := Except.ok.inj hr
    exact .compare hsubject hsign hbounds
  · rintro ⟨hsubject, hsign, hbounds⟩
    exact ⟨_, _, (_, _), rfl, hsubject, [_], _, _, rfl, ⟨_, rfl, hsign⟩, _, hbounds, rfl⟩

theorem recognizes_chain :
    chain.Recognizes
      (fun front condition => ∃ relations, IsChain front relations ∧
        condition = Condition.both (relations.map Condition.relation)) [.and, .comma, .range] := by
  refine ((recognizes_relation.items (by simp)).check _).congr fun front condition => ?_
  simp only [Except.ok.injEq, eq_comm (a := condition)]
  rfl

end Reader

/-- The condition that one of the chains holds, and of that all relations. -/
def Condition.ofChains (chains : List (List Relation)) : Condition :=
  either (chains.map fun relations => both (relations.map relation))

namespace Reader

open Grammar

theorem recognizes_rule :
    rule.Recognizes (fun front condition => ∃ chains, IsRule front chains ∧
      condition = Condition.ofChains chains) [.or, .and, .comma, .range] := by
  refine ((recognizes_chain.items (by simp)).check _).congr fun front condition => ?_
  simp only [Separated.map_iff, Except.ok.injEq]
  constructor
  · rintro ⟨_, ⟨chains, hchains, rfl⟩, rfl⟩
    exact ⟨chains, hchains, rfl⟩
  · rintro ⟨chains, hchains, rfl⟩
    exact ⟨_, ⟨chains, hchains, rfl⟩, rfl⟩

end Reader

namespace Condition

open Grammar

/-- **The compiler accepts exactly the grammar.** Tokens state a condition exactly if there are none
or they are a rule, and then it is the one of the rule's chains. -/
theorem ofTokens_eq_ok_iff {tokens : List Token} {condition : Condition} :
    ofTokens tokens = .ok condition ↔
      tokens = [] ∧ condition = .always ∨
        ∃ chains, IsRule tokens chains ∧ condition = ofChains chains := by
  cases tokens with
  | nil =>
    have hnone : ∀ chains, ¬IsRule [] chains := fun chains h =>
      Reader.recognizes_rule.ne_nil ⟨chains, h, rfl⟩ rfl
    simp [ofTokens, hnone, eq_comm]
  | cons token tokens =>
    have hread : ofTokens (token :: tokens) = .ok condition ↔
        Reader.rule.read (token :: tokens) = .ok (condition, []) := by
      rw [ofTokens]
      · rcases Reader.rule.read (token :: tokens) with _ | ⟨found, _ | ⟨left, rest⟩⟩ <;> simp
      · simp
    rw [hread]
    constructor
    · intro h
      obtain ⟨front, hsplit, hfront⟩ := Reader.recognizes_rule.sound h
      rw [List.append_nil] at hsplit
      exact .inr (hsplit ▸ hfront)
    · rintro (⟨hnil, -⟩ | h)
      · cases hnil
      · simpa using Reader.recognizes_rule.complete h (Reader.stops_nil _)

end Condition

end MessageCatalog
