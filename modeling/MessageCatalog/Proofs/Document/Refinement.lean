import MessageCatalog.Proofs.Document.Division
import MessageCatalog.Proofs.Outcome

/-!
# The pass over the lines computes the division

`Division.runs` says what the entries of a catalog are made of, in terms of all its lines. Here it
is proved that the pass of `Assembly`, which sees one line at a time, comes to the same.

The argument is a simulation. `Body.runs` says, in terms of a state of the pass and the lines that
it has not seen, which runs are still to be completed, and `Body.Completes` which entries the pass
will end with. One step keeps both, whatever the line is (`Body.completes_cons_iff`), so a whole run
does (`Assembly.run_body_eq_ok_iff`).
-/

namespace MessageCatalog

open Division

/-- The lines that the texts hold, one for each. -/
def Line.ParsedAs (texts : List Text) (lines : List Line) : Prop :=
  List.Forall₂ (fun text line => Line.parse text = .ok line) texts lines

/-- The entries that runs of lines hold, one for each. -/
def Entry.BuiltFrom (runs : List (List Line)) (entries : List Entry) : Prop :=
  List.Forall₂ (fun run entry => Entry.ofLines run = .ok entry) runs entries

namespace Body

/-! ### The steps of the pass -/

theorem finishEntry_eq_ok_iff {body next : Body} :
    body.finishEntry = .ok next ↔
      ∃ entry, Entry.ofLines body.current = .ok entry ∧
        entry.key ∉ body.finished.map Entry.key ∧
        next = { body with
          finished := body.finished ++ [entry]
          firstLine := body.firstLine + body.current.length
          current := [] } := by
  rw [finishEntry]
  cases Entry.ofLines body.current with
  | error issue => simp
  | ok entry =>
    by_cases hkey : entry.key ∈ body.finished.map Entry.key
    · simp only [hkey, if_true, reduceCtorEq, Except.ok.injEq, false_iff]
      rintro ⟨_, rfl, hfresh, -⟩
      exact hfresh hkey
    · simp only [hkey, if_false, Except.ok.injEq]
      constructor
      · rintro rfl
        exact ⟨entry, rfl, hkey, rfl⟩
      · rintro ⟨_, rfl, -, rfl⟩
        rfl

theorem startEntry_eq_ok_iff {body next : Body} :
    body.startEntry = .ok next ↔
      ∃ entry, Entry.ofLines (body.current ++ body.pending.takeWhile isText) = .ok entry ∧
        entry.key ∉ body.finished.map Entry.key ∧
        next = { body with
          finished := body.finished ++ [entry]
          firstLine := body.firstLine + (body.current ++ body.pending.takeWhile isText).length
          current := body.pending.dropWhile isText
          pending := [] } := by
  refine Outcome.map_eq_ok_iff.trans ⟨?_, ?_⟩
  · rintro ⟨ended, hended, rfl⟩
    obtain ⟨entry, hentry, hkey, rfl⟩ := finishEntry_eq_ok_iff.1 hended
    exact ⟨entry, hentry, hkey, rfl⟩
  · rintro ⟨entry, hentry, hkey, rfl⟩
    exact ⟨_, finishEntry_eq_ok_iff.2 ⟨entry, hentry, hkey, rfl⟩, rfl⟩

/-- Whether a context waits for its id. -/
def waiting (body : Body) : Bool := body.openContext.isSome

variable {body next : Body} {number : Nat} {line : Line} {lines : List Line} {entries : List Entry}

theorem push_gap (h : line.hasContent = false) :
    body.push number line = .ok { body with pending := body.pending ++ [line] } := by
  simp [push, h]

/-- A context while another one waits for its id is refused. -/
theorem push_context_waiting (hline : line.isContext = true) (h : body.waiting = true) :
    body.push number line = .error (.documentStructure number .consecutiveContexts) := by
  have hcontent := Line.hasContent_of_isContext hline
  obtain ⟨opened, hopened⟩ := Option.isSome_iff_exists.1 h
  simp [push, hcontent, hline, hopened]

/-- The id that a context waits for is added directly, and what is held back stays so. -/
theorem push_answer (hline : line.isId = true) (h : body.waiting = true) :
    body.push number line = .ok { body.append line with openContext := none } := by
  have hcontent := Line.hasContent_of_isId hline
  obtain ⟨opened, hopened⟩ := Option.isSome_iff_exists.1 h
  simp [push, hcontent, hline, Line.isContext_of_isId hline, hopened]

theorem push_other (hcontent : line.hasContent = true) (hc : line.isContext = false)
    (hi : line.isId = false) : body.push number line = .ok (body.flush.append line) := by
  simp [push, hcontent, hc, hi]

/-- The state behind a line that opens an entry, when the entry before it is complete. -/
def opened (body : Body) (number : Nat) (line : Line) (entry : Entry) : Body where
  finished := body.finished ++ [entry]
  firstLine := body.firstLine + (body.current ++ body.pending.takeWhile isText).length
  current := body.pending.dropWhile isText ++ [line]
  pending := []
  openContext := if line.isContext then some number else none

theorem waiting_opened (body : Body) (number : Nat) (line : Line) (entry : Entry) :
    (body.opened number line entry).waiting = awaits false line := by
  cases hc : line.isContext <;> simp [opened, waiting, awaits, hc]

theorem push_opening_eq_ok_iff (h : body.waiting = false)
    (hline : line.isContext = true ∨ line.isId = true) :
    body.push number line = .ok next ↔
      ∃ entry, Entry.ofLines (body.current ++ body.pending.takeWhile isText) = .ok entry ∧
        entry.key ∉ body.finished.map Entry.key ∧ next = body.opened number line entry := by
  have hnone : body.openContext = none := by simpa [waiting] using h
  have hcontent := hline.elim Line.hasContent_of_isContext Line.hasContent_of_isId
  have hpush : body.push number line = body.startEntry.map fun started =>
      if line.isContext then { started.append line with openContext := some number }
      else started.append line := by
    cases hc : line.isContext with
    | true => simp [push, hcontent, hc, hnone]
    | false =>
      have hi : line.isId = true := by simpa [hc] using hline
      simp [push, hcontent, hc, hi, hnone]
  rw [hpush, Outcome.map_eq_ok_iff]
  constructor
  · rintro ⟨started, hstarted, rfl⟩
    obtain ⟨entry, hentry, hkey, rfl⟩ := startEntry_eq_ok_iff.1 hstarted
    refine ⟨entry, hentry, hkey, ?_⟩
    cases hc : line.isContext <;> simp [opened, append, hnone, hc]
  · rintro ⟨entry, hentry, hkey, rfl⟩
    refine ⟨_, startEntry_eq_ok_iff.2 ⟨entry, hentry, hkey, rfl⟩, ?_⟩
    cases hc : line.isContext <;> simp [opened, append, hnone, hc]

/-! ### What the rest of the pass does -/

/-- The runs that are still to be completed, given the lines that are still to come. -/
def runs (body : Body) (lines : List Line) : List (List Line) :=
  let (first, more) := pieces body.waiting (settle body.waiting (body.pending ++ lines))
  handOver (body.current ++ first) more

/-- What holds of every state: the current entry ends in a line with content, no line that is held
back has content, and the complete entries have different keys. -/
structure Inv (body : Body) : Prop where
  /-- The current entry ends in a line with content. -/
  current : EndsInContent body.current
  /-- No line that is held back has content. -/
  pending : IsGap body.pending
  /-- The complete entries have different keys. -/
  keys : (body.finished.map Entry.key).Nodup

/-- The entries that the pass ends with, given the lines that are still to come. -/
structure Completes (body : Body) (lines : List Line) (entries : List Entry) : Prop where
  /-- Every context is answered, also the one that waits. -/
  contexts : answered body.waiting lines = true
  /-- To the entries that are complete come those of the other runs. -/
  built : ∃ rest, Entry.BuiltFrom (body.runs lines) rest ∧ entries = body.finished ++ rest
  /-- All entries have different keys. -/
  keys : (entries.map Entry.key).Nodup

theorem runs_nil (h : body.waiting = false) (hinv : body.Inv) :
    body.runs [] = [body.current ++ body.pending] := by
  have hp := pieces_inner_append hinv.pending.isInner false []
  rw [List.append_nil] at hp
  rw [runs, h, settle_gap_append hinv.pending, settle, List.append_nil, hp]
  simp [pieces, handOver]

theorem runs_gap (line : Line) (lines : List Line) :
    body.runs (line :: lines) = runs { body with pending := body.pending ++ [line] } lines := by
  simp [runs, waiting]

theorem runs_answer (h : body.waiting = true) (hinv : body.Inv) (hline : line.isId = true)
    (lines : List Line) :
    body.runs (line :: lines) = runs { body.append line with openContext := none } lines := by
  have hopens : opens true line = false := by simp [opens, Line.isContext_of_isId hline]
  rw [runs, h, settle_gap_id hinv.pending hline, pieces_of_not_opens hopens, awaits_of_isId hline,
    ← settle_gap_append hinv.pending]
  simp [runs, waiting, append]

theorem runs_other (hinv : body.Inv) (hcontent : line.hasContent = true)
    (hc : line.isContext = false) (hi : line.isId = false) (lines : List Line) :
    body.runs (line :: lines) = (body.flush.append line).runs lines := by
  have hopens : opens body.waiting line = false := by simp [opens, hc, hi]
  rw [runs, settle_gap_other hinv.pending hcontent hi, pieces_inner_append hinv.pending.isInner,
    pieces_of_not_opens hopens, awaits_inner hc hi]
  simp [runs, waiting, append, flush]

/-- A line that opens an entry ends the current run at the first blank line that is held back. -/
theorem runs_opening (h : body.waiting = false) (hinv : body.Inv)
    (hline : line.isContext = true ∨ line.isId = true) (number : Nat) (entry : Entry)
    (lines : List Line) :
    body.runs (line :: lines) =
      (body.current ++ body.pending.takeWhile isText)
        :: (body.opened number line entry).runs lines := by
  have hcontent := hline.elim Line.hasContent_of_isContext Line.hasContent_of_isId
  have hopens : opens false line = true := by
    rcases hline with hline | hline <;> simp [opens, hline]
  rw [runs, h, settle_gap_append hinv.pending, settle_content hcontent,
    pieces_inner_append hinv.pending.isInner, pieces_of_opens hopens]
  simp only [List.append_nil, handOver]
  rw [kept_append hinv.current hinv.pending, passed_append hinv.current hinv.pending, runs,
    waiting_opened]
  simp [opened]

/-! ### One step -/

theorem nodup_keys_concat {finished : List Entry} {entry : Entry}
    (h : (finished.map Entry.key).Nodup) (hkey : entry.key ∉ finished.map Entry.key) :
    ((finished ++ [entry]).map Entry.key).Nodup := by
  rw [List.map_append]
  exact List.nodup_append.2 ⟨h, by simp, by simpa using hkey⟩

theorem key_fresh {finished rest : List Entry} {entry : Entry}
    (h : ((finished ++ entry :: rest).map Entry.key).Nodup) :
    entry.key ∉ finished.map Entry.key := by
  rw [List.map_append, List.nodup_append] at h
  intro hmem
  exact h.2.2 _ hmem _ (by simp) rfl

theorem Inv.push (hinv : body.Inv) (h : body.push number line = .ok next) : next.Inv := by
  cases hcontent : line.hasContent with
  | false =>
    rw [push_gap hcontent] at h
    obtain rfl := Except.ok.inj h
    exact ⟨hinv.current, hinv.pending.append (IsGap.singleton hcontent), hinv.keys⟩
  | true =>
    by_cases hline : line.isContext = true ∨ line.isId = true
    · cases hw : body.waiting with
      | false =>
        obtain ⟨entry, -, hkey, rfl⟩ := (push_opening_eq_ok_iff hw hline).1 h
        exact ⟨EndsInContent.concat _ hcontent, IsGap.nil, nodup_keys_concat hinv.keys hkey⟩
      | true =>
        rcases hline with hline | hline
        · rw [push_context_waiting hline hw] at h
          exact absurd h (by simp)
        · rw [push_answer hline hw] at h
          obtain rfl := Except.ok.inj h
          exact ⟨EndsInContent.concat _ hcontent, hinv.pending, hinv.keys⟩
    · rw [not_or, Bool.not_eq_true, Bool.not_eq_true] at hline
      rw [push_other hcontent hline.1 hline.2] at h
      obtain rfl := Except.ok.inj h
      exact ⟨EndsInContent.concat _ hcontent, IsGap.nil, hinv.keys⟩

/-- A step that only moves lines between the buffers changes nothing in what the pass ends with. -/
theorem completes_congr
    (hanswered : answered body.waiting (line :: lines) = answered next.waiting lines)
    (hruns : body.runs (line :: lines) = next.runs lines)
    (hfinished : body.finished = next.finished) :
    body.Completes (line :: lines) entries ↔ next.Completes lines entries := by
  constructor
  · rintro ⟨hcontexts, hbuilt, hkeys⟩
    exact ⟨hanswered ▸ hcontexts, hfinished ▸ hruns ▸ hbuilt, hkeys⟩
  · rintro ⟨hcontexts, hbuilt, hkeys⟩
    exact ⟨hanswered ▸ hcontexts, hfinished ▸ hruns ▸ hbuilt, hkeys⟩

theorem completes_opening_iff (h : body.waiting = false) (hinv : body.Inv)
    (hline : line.isContext = true ∨ line.isId = true) (number : Nat) :
    body.Completes (line :: lines) entries ↔
      ∃ entry, Entry.ofLines (body.current ++ body.pending.takeWhile isText) = .ok entry ∧
        entry.key ∉ body.finished.map Entry.key ∧
        (body.opened number line entry).Completes lines entries := by
  have hanswered (entry : Entry) : answered body.waiting (line :: lines)
      = answered (body.opened number line entry).waiting lines := by
    rw [answered, h]
    cases hc : line.isContext <;> simp [opened, waiting, awaits, hc]
  constructor
  · rintro ⟨hcontexts, ⟨rest, hbuilt, rfl⟩, hkeys⟩
    -- the runs do not depend on the entry that the ended one holds
    rw [runs_opening h hinv hline number (Entry.content []), Entry.BuiltFrom,
      List.forall₂_cons_left_iff] at hbuilt
    obtain ⟨entry, rest, hentry, hbuilt, rfl⟩ := hbuilt
    refine ⟨entry, hentry, key_fresh hkeys, hanswered entry ▸ hcontexts, ⟨rest, hbuilt, ?_⟩, hkeys⟩
    simp [opened]
  · rintro ⟨entry, hentry, -, hcontexts, ⟨rest, hbuilt, rfl⟩, hkeys⟩
    refine ⟨hanswered entry ▸ hcontexts, ⟨entry :: rest, ?_, by simp [opened]⟩, hkeys⟩
    rw [runs_opening h hinv hline number entry]
    exact List.Forall₂.cons hentry hbuilt

/-- **One step**: what the pass ends with is what it ends with after the next line. -/
theorem completes_cons_iff (hinv : body.Inv) (number : Nat) :
    body.Completes (line :: lines) entries ↔
      ∃ next, body.push number line = .ok next ∧ next.Completes lines entries := by
  cases hcontent : line.hasContent with
  | false =>
    have hc := Line.isContext_of_not_hasContent hcontent
    rw [push_gap hcontent, completes_congr _ (runs_gap line lines) rfl]
    · simp
    · rw [answered, awaits_gap hcontent, hc]
      simp [waiting]
  | true =>
    by_cases hline : line.isContext = true ∨ line.isId = true
    · cases hw : body.waiting with
      | false =>
        rw [completes_opening_iff hw hinv hline number]
        constructor
        · rintro ⟨entry, hentry, hkey, hnext⟩
          exact ⟨_, (push_opening_eq_ok_iff hw hline).2 ⟨entry, hentry, hkey, rfl⟩, hnext⟩
        · rintro ⟨next, hpush, hnext⟩
          obtain ⟨entry, hentry, hkey, rfl⟩ := (push_opening_eq_ok_iff hw hline).1 hpush
          exact ⟨entry, hentry, hkey, hnext⟩
      | true =>
        rcases hline with hline | hline
        · rw [push_context_waiting hline hw]
          constructor
          · intro h
            have := h.contexts
            simp [answered, hw, hline] at this
          · simp
        · rw [push_answer hline hw, completes_congr _ (runs_answer hw hinv hline lines) rfl]
          · simp
          · rw [answered, awaits_of_isId hline, Line.isContext_of_isId hline]
            simp [waiting]
    · rw [not_or, Bool.not_eq_true, Bool.not_eq_true] at hline
      obtain ⟨hc, hi⟩ := hline
      rw [push_other hcontent hc hi, completes_congr _ (runs_other hinv hcontent hc hi lines) rfl]
      · simp
      · simp [answered, awaits, hc, hi, waiting, append, flush]

theorem completes_nil_iff (hinv : body.Inv) :
    body.Completes [] entries ↔ body.finish = .ok entries := by
  cases hopen : body.openContext with
  | some number =>
    have hw : body.waiting = true := by simp [waiting, hopen]
    rw [finish, hopen]
    constructor
    · intro h
      have := h.contexts
      simp [answered, hw] at this
    · simp
  | none =>
    have hw : body.waiting = false := by simp [waiting, hopen]
    rw [finish, hopen]
    refine Iff.trans ?_ Outcome.map_eq_ok_iff.symm
    constructor
    · rintro ⟨-, ⟨rest, hbuilt, rfl⟩, hkeys⟩
      rw [runs_nil hw hinv, Entry.BuiltFrom, List.forall₂_cons_left_iff] at hbuilt
      obtain ⟨entry, rest, hentry, hrest, rfl⟩ := hbuilt
      rw [List.forall₂_nil_left_iff] at hrest
      subst hrest
      exact ⟨_, finishEntry_eq_ok_iff.2 ⟨entry, hentry, key_fresh hkeys, rfl⟩, rfl⟩
    · rintro ⟨next, hnext, rfl⟩
      obtain ⟨entry, hentry, hkey, rfl⟩ := finishEntry_eq_ok_iff.1 hnext
      refine ⟨by simp [answered, hw], ⟨[entry], ?_, rfl⟩, ?_⟩
      · rw [runs_nil hw hinv]
        exact List.Forall₂.cons hentry List.Forall₂.nil
      · exact nodup_keys_concat hinv.keys hkey

end Body

/-! ### The whole pass -/

namespace Division

/-- What the first line with content has to be: an id that is not obsolete, without a string or with
an empty one. -/
structure OpensHeader (line : Line) : Prop where
  /-- The line is not obsolete. -/
  active : line.isObsolete = false
  /-- It introduces an id. -/
  isId : line.isId = true
  /-- Between the quotes, if there are any, stands nothing. -/
  blank : ∀ payload ∈ line.logical.value, payload.raw = []

/-- The entries that the lines of a catalog are divided into. -/
structure Divides (lines : List Line) (entries : List Entry) : Prop where
  /-- The first line with content opens a header. -/
  header : ∃ first, lines.find? Line.hasContent = some first ∧ OpensHeader first
  /-- Every context has its id. -/
  contexts : ContextsAnswered lines
  /-- Each run of lines is an entry. -/
  built : Entry.BuiltFrom (runs lines) entries
  /-- The entries have different keys. -/
  keys : (entries.map Entry.key).Nodup

theorem headerIssue?_eq_none_iff {line : Line} :
    Assembly.headerIssue? line = none ↔ OpensHeader line := by
  rw [Assembly.headerIssue?]
  constructor
  · intro h
    split_ifs at h with hc hi ho hv
    refine ⟨by simpa using ho, by simpa using hi, fun payload hmem => ?_⟩
    simpa [Option.mem_def.1 hmem] using hv
  · rintro ⟨hactive, hid, hblank⟩
    have hc := Line.isContext_of_isId hid
    cases hvalue : line.logical.value with
    | none => simp [hactive, hid, hc]
    | some payload => simp [hactive, hid, hc, hblank payload (Option.mem_def.2 hvalue)]

variable {lead lines : List Line} {first : Line} {entries : List Entry}

theorem find?_gap_append (h : IsGap lead) (hfirst : first.hasContent = true) :
    (lead ++ first :: lines).find? Line.hasContent = some first := by
  rw [List.find?_append, List.find?_eq_none.2 fun line hmem => by simp [h line hmem]]
  simp [hfirst]

/-- Behind the line that opens the header, the runs are those that the pass completes. -/
theorem runs_behind_header (h : IsGap lead) (hfirst : first.isId = true) :
    runs (lead ++ first :: lines) = Body.runs { current := lead ++ [first] } lines := by
  have hopens : opens false first = true := by simp [opens, hfirst]
  rw [runs, settle_gap_append h, settle_of_isId hfirst, pieces_inner_append h.isInner,
    pieces_of_opens hopens, awaits_of_isId hfirst]
  simp [Body.runs, Body.waiting]

/-- Behind the line that opens the header, the division is what the pass completes. -/
theorem divides_iff_completes (h : IsGap lead) (hfirst : OpensHeader first) :
    Divides (lead ++ first :: lines) entries ↔
      Body.Completes { current := lead ++ [first] } lines entries := by
  have hcontent := Line.hasContent_of_isId hfirst.isId
  have hfind : (lead ++ first :: lines).find? Line.hasContent = some first :=
    find?_gap_append h hcontent
  have hanswered : answered false (lead ++ first :: lines) = answered false lines := by
    rw [← answered_filter, ← answered_filter false lines, List.filter_append,
      List.filter_eq_nil_iff.2 fun line hmem => by simp [h line hmem], List.nil_append,
      List.filter_cons_of_pos hcontent, answered, awaits_of_isId hfirst.isId]
    simp
  have hruns : runs (lead ++ first :: lines) = Body.runs { current := lead ++ [first] } lines :=
    runs_behind_header h hfirst.isId
  constructor
  · rintro ⟨-, hcontexts, hbuilt, hkeys⟩
    refine ⟨?_, ⟨entries, hruns ▸ hbuilt, rfl⟩, hkeys⟩
    exact hanswered ▸ (answered_iff _).2 hcontexts
  · rintro ⟨hcontexts, ⟨rest, hbuilt, hentries⟩, hkeys⟩
    obtain rfl : entries = rest := hentries
    refine ⟨⟨first, hfind, hfirst⟩, ?_, hruns ▸ hbuilt, hkeys⟩
    rw [← answered_iff, hanswered]
    exact hcontexts

end Division

namespace Assembly

variable {entries : List Entry} {texts : List Text} {done : Nat}

theorem run_cons_eq_ok_iff {assembly : Assembly} {text : Text} :
    assembly.run done (text :: texts) = .ok entries ↔
      ∃ line next, Line.parse text = .ok line ∧ assembly.push (done + 1) line = .ok next ∧
        next.run (done + 1) texts = .ok entries := by
  rw [run]
  cases Line.parse text with
  | error error => simp
  | ok line =>
    cases hpush : assembly.push (done + 1) line with
    | error error => simp [hpush]
    | ok next => simp [hpush]

/-- **The pass behind the header**: it succeeds exactly if every text is a line and the lines
complete the state. -/
theorem run_body_eq_ok_iff {state : Body} (hinv : state.Inv) :
    (body state).run done texts = .ok entries ↔
      ∃ lines, Line.ParsedAs texts lines ∧ state.Completes lines entries := by
  induction texts generalizing state done with
  | nil =>
    rw [run, finish, ← Body.completes_nil_iff hinv]
    simp [Line.ParsedAs]
  | cons text texts ih =>
    rw [run_cons_eq_ok_iff]
    constructor
    · rintro ⟨line, assembly, hline, hpush, hrun⟩
      obtain ⟨next, hnext, rfl⟩ := Outcome.map_eq_ok_iff.1 hpush
      obtain ⟨lines, hlines, hcompletes⟩ := (ih (hinv.push hnext)).1 hrun
      exact ⟨line :: lines, List.Forall₂.cons hline hlines,
        (Body.completes_cons_iff hinv _).2 ⟨next, hnext, hcompletes⟩⟩
    · rintro ⟨lines, hlines, hcompletes⟩
      cases hlines with
      | @cons _ line _ lines hline hlines =>
        obtain ⟨next, hnext, hcompletes⟩ := (Body.completes_cons_iff hinv (done + 1)).1 hcompletes
        exact ⟨line, body next, hline, Outcome.map_eq_ok_iff.2 ⟨next, hnext, rfl⟩,
          (ih (hinv.push hnext)).2 ⟨lines, hlines, hcompletes⟩⟩

/-- The pass before the header: it waits for a line with content, which has to open the header. -/
theorem run_preamble_eq_ok_iff {lead : List Line} (h : IsGap lead) :
    (preamble lead).run done texts = .ok entries ↔
      ∃ lines, Line.ParsedAs texts lines ∧ Divides (lead ++ lines) entries := by
  induction texts generalizing lead done with
  | nil =>
    rw [run, finish]
    constructor
    · simp
    · rintro ⟨lines, hlines, ⟨first, hfind, -⟩, -⟩
      obtain rfl := List.forall₂_nil_left_iff.1 hlines
      rw [List.append_nil] at hfind
      have := h first (List.mem_of_find?_eq_some hfind)
      rw [List.find?_some hfind] at this
      exact absurd this (by simp)
  | cons text texts ih =>
    rw [run_cons_eq_ok_iff]
    constructor
    · rintro ⟨line, assembly, hline, hpush, hrun⟩
      rw [push] at hpush
      cases hcontent : line.hasContent with
      | false =>
        simp only [hcontent, Bool.not_false, if_true, Except.ok.injEq] at hpush
        subst hpush
        obtain ⟨lines, hlines, hdivides⟩ := (ih (h.append (IsGap.singleton hcontent))).1 hrun
        exact ⟨line :: lines, List.Forall₂.cons hline hlines, by simpa using hdivides⟩
      | true =>
        cases hissue : headerIssue? line with
        | some issue => simp [hcontent, hissue] at hpush
        | none =>
          simp only [hcontent, hissue, Bool.not_true, Bool.false_eq_true, if_false,
            Except.ok.injEq] at hpush
          subst hpush
          have hfirst := headerIssue?_eq_none_iff.1 hissue
          have hinv : Body.Inv { current := lead ++ [line] } :=
            ⟨EndsInContent.concat _ hcontent, IsGap.nil, List.nodup_nil⟩
          obtain ⟨lines, hlines, hcompletes⟩ := (run_body_eq_ok_iff hinv).1 hrun
          exact ⟨line :: lines, List.Forall₂.cons hline hlines,
            (divides_iff_completes h hfirst).2 hcompletes⟩
    · rintro ⟨lines, hlines, hdivides⟩
      cases hlines with
      | @cons _ line _ lines hline hlines =>
        cases hcontent : line.hasContent with
        | false =>
          refine ⟨line, preamble (lead ++ [line]), hline, by simp [push, hcontent], ?_⟩
          refine (ih (h.append (IsGap.singleton hcontent))).2 ⟨lines, hlines, ?_⟩
          simpa using hdivides
        | true =>
          obtain ⟨first, hfind, hfirst⟩ := hdivides.header
          obtain rfl : line = first := by
            rw [find?_gap_append h hcontent] at hfind
            exact Option.some.inj hfind
          have hinv : Body.Inv { current := lead ++ [line] } :=
            ⟨EndsInContent.concat _ hcontent, IsGap.nil, List.nodup_nil⟩
          refine ⟨line, body { current := lead ++ [line] }, hline, ?_, ?_⟩
          · simp [push, hcontent, headerIssue?_eq_none_iff.2 hfirst]
          · exact (run_body_eq_ok_iff hinv).2
              ⟨lines, hlines, (divides_iff_completes h hfirst).1 hdivides⟩

/-- **The pass computes the division.** -/
theorem entries_eq_ok_iff :
    Assembly.entries texts = .ok entries ↔
      ∃ lines, Line.ParsedAs texts lines ∧ Divides lines entries :=
  run_preamble_eq_ok_iff IsGap.nil

end Assembly

namespace Document

theorem ofEntries_eq_ok_iff {options : ReadOptions} {entries : List Entry} {document : Document} :
    ofEntries options entries = .ok document ↔
      entries = document.entries ∧ document.headerEntry.isHeader = true ∧
        Header.parse options document.headerEntry.value = .ok document.header := by
  cases entries with
  | nil => simp [ofEntries, Document.entries]
  | cons first messages =>
    rw [ofEntries]
    cases hfirst : first.isHeader with
    | false =>
      simp only [Bool.false_eq_true, if_false, reduceCtorEq, Document.entries, List.cons.injEq,
        false_iff]
      rintro ⟨⟨rfl, -⟩, hheader, -⟩
      exact absurd hheader (by simp [hfirst])
    | true =>
      simp only [if_true]
      refine Outcome.map_eq_ok_iff.trans ⟨?_, ?_⟩
      · rintro ⟨header, hparse, rfl⟩
        exact ⟨rfl, hfirst, hparse⟩
      · rintro ⟨hentries, -, hparse⟩
        obtain ⟨rfl, rfl⟩ := List.cons.inj hentries
        exact ⟨document.header, hparse, rfl⟩

theorem parse_eq_ok_iff {options : ReadOptions} {text : Text} {document : Document} :
    parse options text = .ok document ↔
      Assembly.entries (lineTexts text) = .ok document.entries ∧
        document.headerEntry.isHeader = true ∧
        Header.parse options document.headerEntry.value = .ok document.header := by
  rw [parse, Outcome.bind_eq_ok_iff]
  constructor
  · rintro ⟨entries, hentries, hdocument⟩
    obtain ⟨rfl, hheader⟩ := ofEntries_eq_ok_iff.1 hdocument
    exact ⟨hentries, hheader⟩
  · rintro ⟨hentries, hheader⟩
    exact ⟨document.entries, hentries, ofEntries_eq_ok_iff.2 ⟨rfl, hheader⟩⟩

/-- **Reading a catalog, in terms of its whole text.** Reading succeeds with a document exactly if
every line of the text is a line of a catalog, the first one with content opens a header, every
context has its id, the runs of the lines are entries with different keys, namely those of the
document, and the first of them is a header that can be read. -/
theorem parse_eq_ok_iff_divides (options : ReadOptions) (text : Text) (document : Document) :
    parse options text = .ok document ↔
      ∃ lines, Line.ParsedAs (lineTexts text) lines ∧ Divides lines document.entries ∧
        document.headerEntry.isHeader = true ∧
        Header.parse options document.headerEntry.value = .ok document.header := by
  rw [parse_eq_ok_iff, Assembly.entries_eq_ok_iff]
  constructor
  · rintro ⟨⟨lines, hlines, hdivides⟩, hheader⟩
    exact ⟨lines, hlines, hdivides, hheader⟩
  · rintro ⟨lines, hlines, hdivides, hheader⟩
    exact ⟨⟨lines, hlines, hdivides⟩, hheader⟩

end Document

end MessageCatalog
