import MessageCatalog.Proofs.Document.Refinement

/-!
# The states of the pass and how it ends

`Body.Reached seen body` says that the pass over the lines of a catalog is in the state `body` when
it has taken the lines `seen`, the first of which with content opens the header. What holds in the
state behind that line and is kept by every step holds in every state that is reached.

The pass ends in one of two ways in such a state, unless the header or a malformed line stops it
(`Assembly.exists_reached`): there are no more lines, or the next line is refused. If an entry is
the reason for that, no context waits for its id, and the lines of that entry are the current ones
with those held back that still belong to them (`Body.Closes`).
-/

namespace MessageCatalog

open Division

/-! ### Errors about entries -/

/-- The number of a line that an error about an entry gives. -/
def CatalogError.entryLine? : CatalogError → Option Nat
  | entryStructure number _ => some number
  | documentStructure number (.duplicateEntry _) => some number
  | _ => none

/-- The error that a run of lines, the first of which has the given number, gives behind the earlier
entries: the lines are no entry, or an earlier entry has the same key. -/
inductive Entry.Refused (earlier : List Entry) (number : Nat) (run : List Line) :
    CatalogError → Prop where
  /-- The lines are no entry. -/
  | noEntry {issue : EntryIssue} : ofLines run = .error issue →
      Refused earlier number run (.entryStructure number issue)
  /-- The lines are an entry, and an earlier one has the same key. -/
  | sameKey {entry : Entry} : ofLines run = .ok entry → entry.key ∈ earlier.map key →
      Refused earlier number run (.documentStructure number (.duplicateEntry entry.key))

/-- Such an error gives the number of the run's first line. -/
theorem Entry.Refused.entryLine? {earlier : List Entry} {number : Nat} {run : List Line}
    {error : CatalogError} (h : Refused earlier number run error) :
    error.entryLine? = some number := by
  cases h with
  | noEntry _ => rfl
  | sameKey _ _ => rfl

/-- A result that is no error but one about an entry. -/
def AboutEntries {α : Type} (result : Except CatalogError α) : Prop :=
  ∀ error, result = .error error → error.entryLine?.isSome = true

theorem AboutEntries.ok {α : Type} (a : α) : AboutEntries (.ok a) := fun _ h => by cases h

theorem AboutEntries.error {α : Type} {error : CatalogError} {number : Nat}
    (h : error.entryLine? = some number) :
    AboutEntries (.error error : Except CatalogError α) := by
  intro other heq
  cases heq
  rw [h]
  rfl

namespace Body

variable {body next : Body} {number : Nat} {line : Line} {seen : List Line} {error : CatalogError}

/-! ### States that are reached -/

/-- The pass has taken the lines `seen` and is in the given state. -/
inductive Reached : List Line → Body → Prop where
  /-- The first line with content opens the header. -/
  | header {lead : List Line} {first : Line} : IsGap lead → OpensHeader first →
      Reached (lead ++ [first]) { current := lead ++ [first] }
  /-- The next line is taken. -/
  | push {seen : List Line} {body next : Body} {line : Line} : Reached seen body →
      body.push (seen.length + 1) line = .ok next → Reached (seen ++ [line]) next

theorem Inv.header {lead : List Line} {first : Line} (hfirst : OpensHeader first) :
    Inv { current := lead ++ [first] } :=
  ⟨EndsInContent.concat _ (Line.hasContent_of_isId hfirst.isId), IsGap.nil, List.nodup_nil⟩

theorem Reached.inv (h : Reached seen body) : body.Inv := by
  induction h with
  | header _ hfirst => exact Inv.header hfirst
  | push _ hpush ih => exact ih.push hpush

/-- What a step that succeeds does: it holds the line back, it adds the id that a context waits for,
it adds a line that continues the current entry, or it completes that entry and opens the next. -/
theorem push_cases (h : body.push number line = .ok next) :
    (line.hasContent = false ∧ next = { body with pending := body.pending ++ [line] }) ∨
    (line.isId = true ∧ body.waiting = true ∧
      next = { body.append line with openContext := none }) ∨
    (line.hasContent = true ∧ line.isContext = false ∧ line.isId = false ∧
      next = body.flush.append line) ∨
    ((line.isContext = true ∨ line.isId = true) ∧ body.waiting = false ∧
      ∃ entry, Entry.ofLines (body.current ++ body.pending.takeWhile isText) = .ok entry ∧
        entry.key ∉ body.finished.map Entry.key ∧ next = body.opened number line entry) := by
  cases hcontent : line.hasContent with
  | false =>
    rw [push_gap hcontent] at h
    exact .inl ⟨rfl, (Except.ok.inj h).symm⟩
  | true =>
    by_cases hline : line.isContext = true ∨ line.isId = true
    · cases hw : body.waiting with
      | false => exact .inr (.inr (.inr ⟨hline, rfl, (push_opening_eq_ok_iff hw hline).1 h⟩))
      | true =>
        rcases hline with hline | hline
        · rw [push_context_waiting hline hw] at h
          cases h
        · rw [push_answer hline hw] at h
          exact .inr (.inl ⟨hline, rfl, (Except.ok.inj h).symm⟩)
    · rw [not_or, Bool.not_eq_true, Bool.not_eq_true] at hline
      rw [push_other hcontent hline.1 hline.2] at h
      exact .inr (.inr (.inl ⟨rfl, hline.1, hline.2, (Except.ok.inj h).symm⟩))

/-! ### Entries that are refused -/

theorem finishEntry_eq_error_iff :
    body.finishEntry = .error error ↔
      Entry.Refused body.finished body.firstLine body.current error := by
  rw [finishEntry]
  constructor
  · intro h
    split at h
    next issue hissue =>
      cases h
      exact .noEntry hissue
    next entry hentry =>
      split at h
      next hkey =>
        cases h
        exact .sameKey hentry hkey
      next => cases h
  · intro h
    cases h with
    | noEntry hissue => rw [hissue]
    | sameKey hentry hkey => simp only [hentry, hkey, if_true]

/-- The run that the current entry ends up with, if these lines follow: with all lines held back at
the end of the catalog, and with those up to the first blank one before a line that opens an
entry. -/
inductive Closes (body : Body) : List Line → List Line → Prop where
  /-- No line follows. -/
  | atEnd : Closes body [] (body.current ++ body.pending)
  /-- A line follows that opens an entry. -/
  | before {line : Line} : line.isContext = true ∨ line.isId = true →
      Closes body [line] (body.current ++ body.pending.takeWhile isText)

theorem push_eq_error (h : body.push number line = .error error)
    (hentry : error.entryLine?.isSome = true) :
    body.waiting = false ∧ ∃ run, body.Closes [line] run ∧
      Entry.Refused body.finished body.firstLine run error := by
  cases hcontent : line.hasContent with
  | false =>
    rw [push_gap hcontent] at h
    cases h
  | true =>
    by_cases hline : line.isContext = true ∨ line.isId = true
    · cases hw : body.waiting with
      | false =>
        refine ⟨rfl, _, .before hline, ?_⟩
        have hnone : body.openContext = none := by simpa [waiting] using hw
        have hstart : body.startEntry = .error error := by
          cases hc : line.isContext with
          | true => simpa [push, hcontent, hc, hnone, Outcome.map_eq_error_iff] using h
          | false =>
            have hi : line.isId = true := by simpa [hc] using hline
            simpa [push, hcontent, hc, hi, hnone, Outcome.map_eq_error_iff] using h
        exact finishEntry_eq_error_iff.1 (Outcome.map_eq_error_iff.1 hstart)
      | true =>
        rcases hline with hline | hline
        · rw [push_context_waiting hline hw] at h
          cases h
          cases hentry
        · rw [push_answer hline hw] at h
          cases h
    · rw [not_or, Bool.not_eq_true, Bool.not_eq_true] at hline
      rw [push_other hcontent hline.1 hline.2] at h
      cases h

theorem finish_eq_error (h : body.finish = .error error)
    (hentry : error.entryLine?.isSome = true) :
    body.waiting = false ∧ ∃ run, body.Closes [] run ∧
      Entry.Refused body.finished body.firstLine run error := by
  rw [finish] at h
  cases hopen : body.openContext with
  | some number =>
    rw [hopen] at h
    cases h
    cases hentry
  | none =>
    rw [hopen] at h
    exact ⟨by simp [waiting, hopen], _, .atEnd,
      finishEntry_eq_error_iff.1 (Outcome.map_eq_error_iff.1 h)⟩

theorem finish_eq_ok {entries : List Entry} (h : body.finish = .ok entries) :
    body.waiting = false ∧ ∃ run entry, body.Closes [] run ∧ Entry.ofLines run = .ok entry ∧
      entries = body.finished ++ [entry] := by
  rw [finish] at h
  cases hopen : body.openContext with
  | some number =>
    rw [hopen] at h
    cases h
  | none =>
    rw [hopen] at h
    obtain ⟨next, hnext, rfl⟩ := Outcome.map_eq_ok_iff.1 h
    obtain ⟨entry, hentry, -, rfl⟩ := finishEntry_eq_ok_iff.1 hnext
    exact ⟨by simp [waiting, hopen], _, entry, .atEnd, hentry, rfl⟩

end Body

/-! ### How the pass ends -/

namespace Assembly

variable {texts before : List Text} {seen rest : List Line} {state : Body}
  {result : Except CatalogError (List Entry)}

/-- The pass ends with the given result in a state behind the lines `seen`: no line is left, or the
one line of `rest` comes next and is refused. -/
inductive Ends (texts : List Text) (seen : List Line) (state : Body) :
    List Line → Except CatalogError (List Entry) → Prop where
  /-- All lines have been taken. -/
  | finish : Line.ParsedAs texts seen → Ends texts seen state [] state.finish
  /-- The next line is refused. -/
  | refuse {read unread : List Text} {line : Line} {error : CatalogError} :
      texts = read ++ unread → Line.ParsedAs read (seen ++ [line]) →
      state.push (seen.length + 1) line = .error error → Ends texts seen state [line] (.error error)

theorem parsedAs_concat {text : Text} {line : Line} (hread : Line.ParsedAs before seen)
    (hline : Line.parse text = .ok line) : Line.ParsedAs (before ++ [text]) (seen ++ [line]) :=
  List.rel_append hread (List.Forall₂.cons hline List.Forall₂.nil)

/-- Behind the header, the pass ends in a state that is reached. -/
theorem run_body_ends (hread : Line.ParsedAs before seen) (hstate : state.Reached seen)
    (h : (body state).run seen.length texts = result) (hresult : AboutEntries result) :
    ∃ (seen : List Line) (state : Body) (rest : List Line), state.Reached seen ∧
      Ends (before ++ texts) seen state rest result := by
  induction texts generalizing before seen state with
  | nil =>
    subst h
    exact ⟨seen, state, [], hstate, .finish (by rwa [List.append_nil])⟩
  | cons text texts ih =>
    rw [run] at h
    cases hline : Line.parse text with
    | error error =>
      rw [hline] at h
      cases hresult _ h.symm
    | ok line =>
      have hreads := parsedAs_concat hread hline
      rw [List.append_cons]
      simp only [hline, push] at h
      cases hpush : state.push (seen.length + 1) line with
      | error error =>
        rw [hpush] at h
        subst h
        exact ⟨seen, state, [line], hstate, .refuse rfl hreads hpush⟩
      | ok next =>
        rw [hpush] at h
        refine ih hreads (hstate.push hpush) ?_
        rw [List.length_append]
        exact h

/-- An error before the header is not about an entry. -/
theorem not_entryLine?_of_headerIssue? {line : Line} {issue : DocumentIssue} {number : Nat}
    (h : headerIssue? line = some issue) :
    (CatalogError.documentStructure number issue).entryLine? = none := by
  rw [headerIssue?] at h
  split_ifs at h <;> cases h <;> rfl

/-- The whole pass ends in a state that is reached, unless a line is malformed or the header is
missing. -/
theorem run_preamble_ends {lead : List Line} (hlead : IsGap lead)
    (hread : Line.ParsedAs before lead) (h : (preamble lead).run lead.length texts = result)
    (hresult : AboutEntries result) :
    ∃ (seen : List Line) (state : Body) (rest : List Line), state.Reached seen ∧
      Ends (before ++ texts) seen state rest result := by
  induction texts generalizing before lead with
  | nil => cases hresult _ h.symm
  | cons text texts ih =>
    rw [run] at h
    cases hline : Line.parse text with
    | error error =>
      rw [hline] at h
      cases hresult _ h.symm
    | ok line =>
      have hreads := parsedAs_concat hread hline
      rw [List.append_cons]
      simp only [hline, push] at h
      cases hcontent : line.hasContent with
      | false =>
        simp only [hcontent, Bool.not_false, if_true] at h
        refine ih (hlead.append (IsGap.singleton hcontent)) hreads ?_
        rw [List.length_append]
        exact h
      | true =>
        cases hissue : headerIssue? line with
        | some issue =>
          simp only [hcontent, hissue, Bool.not_true, Bool.false_eq_true, if_false] at h
          have hsome := hresult _ h.symm
          rw [not_entryLine?_of_headerIssue? hissue] at hsome
          cases hsome
        | none =>
          simp only [hcontent, hissue, Bool.not_true, Bool.false_eq_true, if_false] at h
          refine run_body_ends hreads (.header hlead (headerIssue?_eq_none_iff.1 hissue)) ?_ hresult
          rw [List.length_append]
          exact h

theorem exists_reached (h : Assembly.entries texts = result) (hresult : AboutEntries result) :
    ∃ (seen : List Line) (state : Body) (rest : List Line), state.Reached seen ∧
      Ends texts seen state rest result :=
  run_preamble_ends IsGap.nil List.Forall₂.nil h hresult

/-- **When the pass succeeds**, it has completed the last entry with all lines held back. -/
theorem exists_closes_of_ok {entries : List Entry} (h : Assembly.entries texts = .ok entries) :
    ∃ (seen : List Line) (state : Body) (run : List Line) (entry : Entry),
      state.Reached seen ∧ state.waiting = false ∧ state.Closes [] run ∧
      Entry.ofLines run = .ok entry ∧ entries = state.finished ++ [entry] := by
  obtain ⟨seen, state, rest, hstate, hends⟩ := exists_reached h (AboutEntries.ok entries)
  generalize hresult : Except.ok entries = result at hends
  cases hends with
  | finish _ =>
    obtain ⟨hwaiting, run, entry, hcloses, hentry⟩ := Body.finish_eq_ok hresult.symm
    exact ⟨seen, state, run, entry, hstate, hwaiting, hcloses, hentry⟩
  | refuse _ _ _ => cases hresult

/-- **When an entry makes the pass fail**, the lines that have been taken are all lines of the
catalog, or those up to a line that opens the next entry, and the run that they complete is
refused. -/
theorem exists_closes_of_error {error : CatalogError} {number : Nat}
    (h : Assembly.entries texts = .error error) (hnumber : error.entryLine? = some number) :
    ∃ (seen : List Line) (state : Body) (rest run : List Line) (read : List Text),
      state.Reached seen ∧ state.waiting = false ∧ state.Closes rest run ∧
      Entry.Refused state.finished state.firstLine run error ∧
      Line.ParsedAs read (seen ++ rest) ∧ read <+: texts ∧ (rest = [] → read = texts) := by
  have hsome : error.entryLine?.isSome = true := by rw [hnumber]; rfl
  obtain ⟨seen, state, rest, hstate, hends⟩ := exists_reached h (AboutEntries.error hnumber)
  generalize hresult : Except.error error = result at hends
  cases hends with
  | finish hread =>
    obtain ⟨hwaiting, run, hcloses, hrefused⟩ := Body.finish_eq_error hresult.symm hsome
    refine ⟨seen, state, [], run, texts, hstate, hwaiting, hcloses, hrefused, ?_,
      List.prefix_refl _, fun _ => rfl⟩
    rwa [List.append_nil]
  | @refuse read unread line _ htexts hread hpush =>
    cases hresult
    obtain ⟨hwaiting, run, hcloses, hrefused⟩ := Body.push_eq_error hpush hsome
    exact ⟨seen, state, [line], run, read, hstate, hwaiting, hcloses, hrefused, hread,
      ⟨unread, htexts.symm⟩, fun hnil => by cases hnil⟩

end Assembly

/-! ### Errors of the header -/

/-- What is wrong with a header's text is not about an entry. -/
theorem Header.entryLine?_of_parse {options : ReadOptions} {text : Text} {error : CatalogError}
    (h : Header.parse options text = .error error) : error.entryLine? = none := by
  rw [Header.parse] at h
  split at h
  next raw _ =>
    rcases Outcome.bind_eq_error_iff.1 h with hlanguage | ⟨language, -, h⟩
    · rw [languageOf] at hlanguage
      split at hlanguage
      · cases hlanguage
      · cases hlanguage
        rfl
    · rcases Outcome.bind_eq_error_iff.1 h with hrules | ⟨rules, -, h⟩
      · obtain ⟨fault, -, rfl⟩ := Outcome.mapError_eq_error_iff.1 hrules
        rfl
      · cases h
  next =>
    rcases Outcome.bind_eq_error_iff.1 h with hlanguage | ⟨language, hlanguage, -⟩
    · cases hlanguage
      rfl
    · cases hlanguage

/-- An error about an entry comes from dividing the lines. -/
theorem Document.entries_eq_error_of_parse {options : ReadOptions} {text : Text}
    {error : CatalogError} {number : Nat} (h : parse options text = .error error)
    (hnumber : error.entryLine? = some number) :
    Assembly.entries (lineTexts text) = .error error := by
  rcases Outcome.bind_eq_error_iff.1 h with hentries | ⟨entries, -, hdocument⟩
  · exact hentries
  · have hnone : error.entryLine? = none := by
      cases entries with
      | nil =>
        cases hdocument
        rfl
      | cons first messages =>
        rw [ofEntries] at hdocument
        split at hdocument
        · exact Header.entryLine?_of_parse (Outcome.map_eq_error_iff.1 hdocument)
        · cases hdocument
          rfl
    cases hnone.symm.trans hnumber

end MessageCatalog
