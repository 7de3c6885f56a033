import MessageCatalog.Proofs.Document.Fidelity
import MessageCatalog.Proofs.Document.Reachability

/-!
# The line that an error about an entry names

An error about an entry gives a line number, which is meant to be that of the entry's first line in
the catalog. The pass does not keep numbers with the lines. It counts the lines of the entries
before and adds one, so the number is right if these are the lines that stand before the entry's
first line.

They are in all layouts but one (`Document.line_of_entryError`). Lines between a context and its id
go behind the id, and if a blank one is among them and an entry is opened right behind, the blank
line becomes the first line of that entry. It stands before the id of the entry before it, so the
count is one too many (`Document.entryError_misses_first_line`).

`Division.Starts` says where the first line of a run stands in the catalog. To know this of a run,
one has to know where the lines held back stand when the run is opened: behind all others, or around
the id that a context waited for (`Body.Layout`). Every step of the pass keeps that.
-/

namespace MessageCatalog

open Division

/-! ### Settling a part of the lines -/

namespace Division

variable {front gap lines : List Line}

theorem waits_append_gap (lines : List Line) (hgap : IsGap gap) :
    waits (lines ++ gap) = waits lines := by
  rw [waits, marks_append, hgap.isInner.marks_eq_nil, List.append_nil, waits]

theorem waits_behind_id {id : Line} (lines : List Line) (hid : id.isId = true) (hgap : IsGap gap) :
    waits (lines ++ id :: gap) = false := by
  rw [List.append_cons, waits_append_gap _ hgap, waits_concat, awaits_of_isId hid]

/-- Lines without content are settled. -/
theorem settle_gap (hgap : IsGap gap) : settle false gap = gap := by
  have := settle_gap_append hgap []
  rwa [List.append_nil, settle, List.append_nil] at this

theorem sink_append {line : Line} (hlines : lines ≠ []) (more : List Line) :
    sink line (lines ++ more) = sink line lines ++ more := by
  cases lines with
  | nil => exact absurd rfl hlines
  | cons next lines => cases hid : next.isId <;> simp [sink, hid]

theorem settle_ne_nil (waiting : Bool) (hlines : lines ≠ []) : settle waiting lines ≠ [] := by
  intro hnil
  have hperm := settle_perm waiting lines
  rw [hnil] at hperm
  exact hlines hperm.nil_eq.symm

/-- Lines can be settled in two parts, unless a line without content stands at the end of the first
part while a context waits. -/
theorem settle_waits_append (seen : List Line) (front lines : List Line)
    (hcut : waits (seen ++ front) = true → ∀ line ∈ front.getLast?, line.hasContent = true) :
    settle (waits seen) (front ++ lines)
      = settle (waits seen) front ++ settle (waits (seen ++ front)) lines := by
  induction front generalizing seen with
  | nil => simp [settle]
  | cons line front ih =>
    have hsplit : seen ++ line :: front = (seen ++ [line]) ++ front := by simp
    have ih' : settle (waits (seen ++ [line])) (front ++ lines)
        = settle (waits (seen ++ [line])) front
          ++ settle (waits (seen ++ line :: front)) lines := by
      rw [hsplit] at hcut ⊢
      refine ih (seen ++ [line]) fun hwaits last hlast => hcut hwaits last ?_
      cases front with
      | nil => cases hlast
      | cons next front => rwa [List.getLast?_cons_cons]
    rw [List.cons_append, settle, settle, ← waits_concat, ih']
    split
    next hmoves =>
      obtain ⟨hwaits, hline⟩ : waits seen = true ∧ line.hasContent = false := by simpa using hmoves
      refine sink_append (settle_ne_nil _ ?_) _
      rintro rfl
      have := hcut (by rw [waits_append_gap seen (IsGap.singleton hline), hwaits]) line rfl
      rw [hline] at this
      cases this
    next => rfl

/-- Lines that end in one with content can be settled apart from those behind them. -/
theorem settle_append_of_endsInContent (h : EndsInContent front) (lines : List Line) :
    settle false (front ++ lines) = settle false front ++ settle (waits front) lines := by
  refine settle_waits_append [] front lines fun _ line hlast => ?_
  obtain ⟨before, last, rfl, hcontent⟩ := h
  rw [List.getLast?_concat, Option.mem_some_iff] at hlast
  rwa [← hlast]

/-! ### Where a run starts -/

/-- The first line of a run stands in the catalog behind the lines `front`. These are the lines of
the earlier runs, or these without an id that stands further behind. -/
inductive Starts (earlier run lines front : List Line) : Prop where
  /-- The earlier runs hold the lines before it. -/
  | inPlace {first : Line} {tail rest : List Line} : run = first :: tail →
      lines = front ++ first :: rest → waits front = false → settle false front = earlier →
      Starts earlier run lines front
  /-- It stands between a context and its id, and the earlier runs hold also that id. -/
  | moved {first id : Line} {tail gap rest : List Line} : run = first :: tail →
      lines = front ++ first :: (gap ++ id :: rest) → waits front = true → IsGap (first :: gap) →
      id.isId = true → settle false (front ++ [id]) = earlier → Starts earlier run lines front

/-- A run that opens with the lines `rest` and a line behind them starts behind what stands before
`rest`. -/
theorem Starts.of_concat {earlier : List Line} (hwaits : waits front = false)
    (hearlier : settle false front = earlier) (rest : List Line) (line : Line) :
    Starts earlier (rest ++ [line]) (front ++ (rest ++ [line])) front := by
  cases rest with
  | nil => exact .inPlace rfl rfl hwaits hearlier
  | cons first rest => exact .inPlace rfl rfl hwaits hearlier

theorem Starts.append {earlier run : List Line} (h : Starts earlier run lines front)
    (tail rest : List Line) : Starts earlier (run ++ tail) (lines ++ rest) front := by
  cases h with
  | inPlace hrun hlines hwaits hearlier =>
    exact .inPlace (by rw [hrun]; rfl) (by rw [hlines, List.append_assoc]; rfl) hwaits hearlier
  | @moved first id _ gap behind hrun hlines hwaits hgap hid hearlier =>
    have hlines' : lines ++ rest = front ++ first :: (gap ++ id :: (behind ++ rest)) := by
      rw [hlines]
      simp
    exact .moved (by rw [hrun]; rfl) hlines' hwaits hgap hid hearlier

/-- The lines of the earlier runs are one more than those before the first line if that stands
between a context and its id. -/
theorem Starts.length_eq {earlier run : List Line} (h : Starts earlier run lines front) :
    (waits front = false → earlier.length = front.length) ∧
      (waits front = true → earlier.length = front.length + 1) := by
  cases h with
  | inPlace _ _ hwaits hearlier =>
    rw [← hearlier, (settle_perm false front).length_eq, hwaits]
    simp
  | moved _ _ hwaits _ _ hearlier =>
    rw [← hearlier, (settle_perm false _).length_eq, hwaits]
    simp

/-- The lines in front are the first of the lines. -/
theorem Starts.isPrefix {earlier run : List Line} (h : Starts earlier run lines front) :
    front <+: lines := by
  cases h with
  | inPlace _ hlines => exact ⟨_, hlines.symm⟩
  | moved _ hlines => exact ⟨_, hlines.symm⟩

section AroundId

variable {behind : List Line} {id : Line}

/-- If no blank line stands between a context and its id, the next entry starts behind the id. -/
theorem starts_behind_id (hends : EndsInContent front) (hwaits : waits front = true)
    (hid : id.isId = true) (hgap : IsGap gap) (hbehind : IsGap behind)
    (hall : ∀ line ∈ gap, isText line = true) (line : Line) :
    Starts (settle false front ++ [id] ++ (gap ++ behind).takeWhile isText)
      ((gap ++ behind).dropWhile isText ++ [line]) (front ++ (gap ++ id :: behind) ++ [line])
      (front ++ (gap ++ id :: behind.takeWhile isText)) := by
  have htexts : IsGap (behind.takeWhile isText) := hbehind.mono (List.takeWhile_prefix _).subset
  have hlines : front ++ (gap ++ id :: behind) ++ [line]
      = (front ++ (gap ++ id :: behind.takeWhile isText))
        ++ (behind.dropWhile isText ++ [line]) := by
    have hcut : behind ++ [line]
        = behind.takeWhile isText ++ (behind.dropWhile isText ++ [line]) := by
      rw [← List.append_assoc, List.takeWhile_append_dropWhile]
    simp only [List.append_assoc, List.cons_append, hcut]
  rw [List.takeWhile_append_of_pos hall, List.dropWhile_append_of_pos hall, hlines]
  refine .of_concat ?_ ?_ _ line
  · rw [← List.append_assoc, waits_behind_id _ hid htexts]
  · rw [settle_append_of_endsInContent hends, hwaits, settle_gap_id hgap hid, settle_gap htexts]
    simp

/-- If a blank line stands between a context and its id, the next entry starts with it, and the id
belongs to the entry before. -/
theorem starts_before_id {first : Line} {rest : List Line} (hends : EndsInContent front)
    (hwaits : waits front = true) (hid : id.isId = true) (hgap : IsGap gap)
    (hblank : gap.dropWhile isText = first :: rest) (behind : List Line) (line : Line) :
    Starts (settle false front ++ [id] ++ (gap ++ behind).takeWhile isText)
      ((gap ++ behind).dropWhile isText ++ [line]) (front ++ (gap ++ id :: behind) ++ [line])
      (front ++ gap.takeWhile isText) := by
  have hsplit : gap = gap.takeWhile isText ++ first :: rest := by
    rw [← hblank, List.takeWhile_append_dropWhile]
  have hshort : (gap.takeWhile isText).length ≠ gap.length := by
    intro hlength
    have := congrArg List.length hsplit
    rw [List.length_append, List.length_cons, hlength] at this
    omega
  have htexts : IsGap (gap.takeWhile isText) := hgap.mono (List.takeWhile_prefix _).subset
  have hrest : IsGap (first :: rest) := by
    rw [← hblank]
    exact hgap.mono (List.dropWhile_suffix _).subset
  have hrun : (gap ++ behind).dropWhile isText ++ [line]
      = first :: (rest ++ behind ++ [line]) := by
    rw [List.dropWhile_append, hblank]
    simp
  have hlines : front ++ (gap ++ id :: behind) ++ [line]
      = (front ++ gap.takeWhile isText) ++ first :: (rest ++ id :: (behind ++ [line])) := by
    conv_lhs => rw [hsplit]
    simp
  refine .moved hrun hlines ?_ hrest hid ?_
  · rw [waits_append_gap front htexts, hwaits]
  · rw [List.append_assoc, settle_append_of_endsInContent hends, hwaits,
      settle_gap_id htexts hid, settle, List.append_nil, List.takeWhile_append, if_neg hshort]
    simp

end AroundId

end Division

/-! ### Where the lines held back stand -/

namespace Body

variable {body next : Body} {line : Line} {seen : List Line}

/-- The lines of the entries that are complete. -/
def held (body : Body) : List Line := body.finished.flatMap Entry.lines

/-- The lines held back stand at the end of the lines that have been taken, or around the id that a
context waited for; the lines before them are those of the complete entries and the current one. -/
inductive Layout (body : Body) (seen : List Line) : Prop where
  /-- They stand at the end. -/
  | atEnd {front : List Line} : seen = front ++ body.pending → EndsInContent front →
      waits front = body.waiting → settle false front = body.held ++ body.current →
      Layout body seen
  /-- They stand around the id. -/
  | around {front gap behind : List Line} {id : Line} : seen = front ++ (gap ++ id :: behind) →
      body.pending = gap ++ behind → EndsInContent front → waits front = true → id.isId = true →
      body.waiting = false → settle false front ++ [id] = body.held ++ body.current →
      Layout body seen

/-- Behind a line with content, the lines are settled in the order in which the buffers hold them,
unless a context waited for the line. -/
theorem Layout.settle_concat (h : body.Layout seen) (hinv : body.Inv)
    (hcontent : line.hasContent = true) (hanswer : line.isId = false ∨ body.waiting = false) :
    settle false (seen ++ [line]) = body.held ++ body.current ++ (body.pending ++ [line]) := by
  cases h with
  | @atEnd front hseen hends hwaits hfront =>
    have hrest : settle (waits front) (body.pending ++ [line]) = body.pending ++ [line] := by
      rcases hanswer with hid | hwaiting
      · rw [settle_gap_other hinv.pending hcontent hid]
        rfl
      · rw [hwaits, hwaiting, settle_gap_append hinv.pending, settle_content hcontent]
        rfl
    rw [hseen, List.append_assoc, settle_append_of_endsInContent hends, hfront, hrest]
  | @around front gap behind id hseen hpending hends hwaits hid hwaiting hfront =>
    have hgaps := hinv.pending
    rw [hpending] at hgaps
    have hgap : IsGap gap := hgaps.mono (List.subset_append_left _ _)
    have hbehind : IsGap behind := hgaps.mono (List.subset_append_right _ _)
    calc settle false (seen ++ [line])
        = settle false (front ++ (gap ++ id :: (behind ++ [line]))) := by rw [hseen]; simp
      _ = settle false front ++ (id :: (gap ++ settle false (behind ++ [line]))) := by
          rw [settle_append_of_endsInContent hends, hwaits, settle_gap_id hgap hid]
      _ = settle false front ++ (id :: (gap ++ (behind ++ [line]))) := by
          rw [settle_gap_append hbehind, settle_content hcontent]
          rfl
      _ = body.held ++ body.current ++ (body.pending ++ [line]) := by
          rw [← hfront, hpending]
          simp

/-- What is complete or current behind a line that opens an entry. -/
theorem held_opened {number : Nat} {entry : Entry}
    (h : Entry.ofLines (body.current ++ body.pending.takeWhile isText) = .ok entry) :
    (body.opened number line entry).held
      = body.held ++ body.current ++ body.pending.takeWhile isText := by
  unfold held opened
  rw [List.flatMap_append, List.flatMap_singleton, Entry.lines_of_ofLines h, List.append_assoc]

/-- A step tells whether a context waits behind the line. -/
theorem waiting_of_push {number : Nat} (h : body.push number line = .ok next) :
    next.waiting = awaits body.waiting line := by
  obtain ⟨hline, rfl⟩ | ⟨hid, -, rfl⟩ | ⟨-, hcontext, hid, rfl⟩ |
    ⟨hline, hwaiting, entry, -, -, rfl⟩ := push_cases h
  · exact (awaits_gap hline _).symm
  · exact (awaits_of_isId hid _).symm
  · exact (awaits_inner hcontext hid _).symm
  · rw [hwaiting, waiting_opened]

theorem Reached.waits_eq (h : Reached seen body) : waits seen = body.waiting := by
  induction h with
  | header _ hfirst =>
    rw [waits_concat, awaits_of_isId hfirst.isId]
    rfl
  | push _ hpush ih => rw [waits_concat, ih, waiting_of_push hpush]

/-- If nothing is held back, the lines stand in the order in which they are settled. -/
theorem Layout.of_settle (h : Reached seen body) (hpending : body.pending = [])
    (hends : EndsInContent seen) (hsettle : settle false seen = body.held ++ body.current) :
    body.Layout seen := by
  have hseen : seen = seen ++ body.pending := by rw [hpending, List.append_nil]
  exact .atEnd hseen hends h.waits_eq hsettle

/-- **What every step keeps**: the lines held back stand at the end or around an id. -/
theorem Reached.layout (h : Reached seen body) : body.Layout seen := by
  induction h with
  | @header lead first hlead hfirst =>
    have hcontent := Line.hasContent_of_isId hfirst.isId
    refine .of_settle (.header hlead hfirst) rfl (.concat _ hcontent) ?_
    rw [settle_gap_append hlead, settle_content hcontent]
    rfl
  | @push seen body next line hreached hpush ih =>
    have hinv := hreached.inv
    have hnext := hreached.push hpush
    obtain ⟨-, rfl⟩ | ⟨hid, hwaiting, rfl⟩ | ⟨hcontent, -, hid, rfl⟩ |
      ⟨hline, hwaiting, entry, hentry, -, rfl⟩ := push_cases hpush
    · cases ih with
      | atEnd hseen hends hwaits hfront =>
        exact .atEnd (by rw [hseen, List.append_assoc]) hends hwaits hfront
      | @around front gap behind id hseen hpending hends hwaits hid hwaiting hfront =>
        have hseen' : seen ++ [line] = front ++ (gap ++ id :: (behind ++ [line])) := by
          rw [hseen]
          simp
        exact .around hseen' (by rw [hpending, List.append_assoc]) hends hwaits hid hwaiting hfront
    · cases ih with
      | @atEnd front hseen hends hwaits hfront =>
        have hseen' : seen ++ [line] = front ++ (body.pending ++ line :: []) := by
          rw [hseen, List.append_assoc]
        have hcurrent : settle false front ++ [line] = body.held ++ (body.current ++ [line]) := by
          rw [hfront, List.append_assoc]
        exact .around hseen' (List.append_nil _).symm hends (hwaits.trans hwaiting) hid rfl hcurrent
      | around _ _ _ _ _ hnot _ => cases hnot.symm.trans hwaiting
    · refine .of_settle hnext rfl (.concat _ hcontent) ?_
      rw [ih.settle_concat hinv hcontent (.inl hid)]
      simp [held, flush, append]
    · have hcontent := hline.elim Line.hasContent_of_isContext Line.hasContent_of_isId
      refine .of_settle hnext rfl (.concat _ hcontent) ?_
      rw [ih.settle_concat hinv hcontent (.inr hwaiting), held_opened hentry, List.append_assoc _ _
        (body.opened _ line entry).current]
      show _ = _ ++ (_ ++ (body.pending.dropWhile isText ++ [line]))
      rw [← List.append_assoc (body.pending.takeWhile isText), List.takeWhile_append_dropWhile]

/-! ### Where the current entry starts -/

/-- What opens the next entry starts where the first blank line held back stands, or else the line
that opens it. -/
theorem Layout.starts_opened (h : body.Layout seen) (hinv : body.Inv)
    (hwaiting : body.waiting = false) (line : Line) :
    ∃ front, Starts (body.held ++ body.current ++ body.pending.takeWhile isText)
      (body.pending.dropWhile isText ++ [line]) (seen ++ [line]) front := by
  cases h with
  | @atEnd front hseen hends hwaits hfront =>
    have htexts : IsGap (body.pending.takeWhile isText) :=
      hinv.pending.mono (List.takeWhile_prefix _).subset
    have hlines : seen ++ [line] = (front ++ body.pending.takeWhile isText)
        ++ (body.pending.dropWhile isText ++ [line]) := by
      rw [List.append_assoc, ← List.append_assoc (body.pending.takeWhile isText),
        List.takeWhile_append_dropWhile, hseen, List.append_assoc]
    rw [hlines]
    refine ⟨_, .of_concat ?_ ?_ _ line⟩
    · rw [waits_append_gap front htexts, hwaits, hwaiting]
    · rw [settle_append_of_endsInContent hends, hwaits, hwaiting, hfront, settle_gap htexts]
  | @around front gap behind id hseen hpending hends hwaits hid _ hfront =>
    have hgaps := hinv.pending
    rw [hpending] at hgaps
    have hgap : IsGap gap := hgaps.mono (List.subset_append_left _ _)
    have hbehind : IsGap behind := hgaps.mono (List.subset_append_right _ _)
    rw [hpending, ← hfront, hseen]
    cases hblank : gap.dropWhile isText with
    | nil =>
      have hall := List.dropWhile_eq_nil_iff.1 hblank
      exact ⟨_, starts_behind_id hends hwaits hid hgap hbehind hall line⟩
    | cons first rest => exact ⟨_, starts_before_id hends hwaits hid hgap hblank behind line⟩

/-- **Where the current entry starts**, in every state that is reached. -/
theorem Reached.exists_starts (h : Reached seen body) :
    ∃ front, Starts body.held body.current seen front := by
  induction h with
  | @header lead first _ _ =>
    have hstarts : Starts [] (lead ++ [first]) ([] ++ (lead ++ [first])) [] :=
      .of_concat waits_nil rfl lead first
    exact ⟨[], hstarts⟩
  | @push seen body next line hreached hpush ih =>
    obtain ⟨front, hstarts⟩ := ih
    obtain ⟨-, rfl⟩ | ⟨-, -, rfl⟩ | ⟨-, -, -, rfl⟩ | ⟨-, hwaiting, entry, hentry, -, rfl⟩ :=
      push_cases hpush
    · refine ⟨front, ?_⟩
      have := hstarts.append [] [line]
      rwa [List.append_nil] at this
    · exact ⟨front, hstarts.append [line] [line]⟩
    · refine ⟨front, ?_⟩
      have := hstarts.append (body.pending ++ [line]) [line]
      rwa [← List.append_assoc] at this
    · rw [held_opened hentry]
      exact hreached.layout.starts_opened hreached.inv hwaiting line

/-- **The runs of a catalog**, in every state that is reached: those that are complete, and behind
them those that the lines still to come complete. -/
theorem Reached.exists_runs (h : Reached seen body) :
    ∃ done, Entry.BuiltFrom done body.finished ∧ body.firstLine = done.flatten.length + 1 ∧
      ∀ more, Division.runs (seen ++ more) = done ++ body.runs more := by
  induction h with
  | @header lead first hlead hfirst =>
    refine ⟨[], List.Forall₂.nil, rfl, fun more => ?_⟩
    rw [List.append_assoc]
    exact runs_behind_header hlead hfirst.isId
  | @push seen body next line hreached hpush ih =>
    obtain ⟨done, hbuilt, hnumber, hruns⟩ := ih
    have hinv := hreached.inv
    obtain ⟨-, rfl⟩ | ⟨hid, hwaiting, rfl⟩ | ⟨hcontent, hcontext, hid, rfl⟩ |
      ⟨hline, hwaiting, entry, hentry, -, rfl⟩ := push_cases hpush
    · refine ⟨done, hbuilt, hnumber, fun more => ?_⟩
      rw [List.append_assoc, List.singleton_append, hruns, runs_gap]
    · refine ⟨done, hbuilt, hnumber, fun more => ?_⟩
      rw [List.append_assoc, List.singleton_append, hruns, runs_answer hwaiting hinv hid]
    · refine ⟨done, hbuilt, hnumber, fun more => ?_⟩
      rw [List.append_assoc, List.singleton_append, hruns, runs_other hinv hcontent hcontext hid]
    · refine ⟨done ++ [body.current ++ body.pending.takeWhile isText],
        List.rel_append hbuilt (List.Forall₂.cons hentry List.Forall₂.nil), ?_, fun more => ?_⟩
      · show body.firstLine + _ = _
        simp only [hnumber, List.flatten_append, List.flatten_singleton, List.length_append]
        omega
      · rw [List.append_assoc, List.singleton_append, hruns,
          runs_opening hwaiting hinv hline (seen.length + 1) entry]
        simp

/-- The run that the current entry ends up with is one of the runs, behind the complete ones. -/
theorem Reached.exists_runs_of_closes {rest run : List Line} (h : Reached seen body)
    (hwaiting : body.waiting = false) (hcloses : body.Closes rest run) :
    ∃ done, Entry.BuiltFrom done body.finished ∧ body.firstLine = done.flatten.length + 1 ∧
      ∀ more, (rest = [] → more = []) →
        ∃ behind, Division.runs (seen ++ rest ++ more) = done ++ run :: behind := by
  obtain ⟨done, hbuilt, hnumber, hruns⟩ := h.exists_runs
  refine ⟨done, hbuilt, hnumber, fun more hmore => ?_⟩
  rw [List.append_assoc, hruns]
  cases hcloses with
  | atEnd =>
    rw [hmore rfl, List.append_nil, runs_nil hwaiting h.inv]
    exact ⟨[], rfl⟩
  | @before line hline =>
    -- which entry the run holds does not matter to the runs behind it
    rw [List.singleton_append, runs_opening hwaiting h.inv hline 0 (Entry.content [])]
    exact ⟨_, rfl⟩

theorem Reached.exists_starts_of_closes {rest run : List Line} (h : Reached seen body)
    (hcloses : body.Closes rest run) : ∃ front, Starts body.held run (seen ++ rest) front := by
  obtain ⟨front, hstarts⟩ := h.exists_starts
  refine ⟨front, ?_⟩
  cases hcloses with
  | atEnd => exact hstarts.append body.pending []
  | before _ => exact hstarts.append _ _

end Body

/-! ### Errors about entries -/

/-- The lines at the start of a catalog decide that `run` is one of its runs, behind the runs
`earlier`: whatever lines follow, if these are not all. -/
structure Division.Decides (texts : List Text) (lines : List Line) (earlier : List (List Line))
    (run : List Line) : Prop where
  /-- The lines are those at the start of the catalog. -/
  read : ∃ front, front <+: texts ∧ Line.ParsedAs front lines
  /-- The run is one of the catalog's. -/
  cut : ∀ more, (Line.ParsedAs texts lines → more = []) →
    ∃ behind, runs (lines ++ more) = earlier ++ run :: behind

/-- The first of the lines are read from as many texts at the start of the catalog. -/
theorem Division.Decides.parsedAs_take {texts : List Text} {lines front run : List Line}
    {earlier : List (List Line)} (h : Decides texts lines earlier run) (hfront : front <+: lines) :
    Line.ParsedAs (texts.take front.length) front := by
  obtain ⟨read, hread, hlines⟩ := h.read
  have hlength : front.length ≤ read.length := by
    rw [hlines.length_eq]
    exact hfront.length_le
  have htake := List.forall₂_take front.length hlines
  rw [← List.prefix_iff_eq_take.1 hfront, List.prefix_iff_eq_take.1 hread, List.take_take,
    Nat.min_eq_left hlength] at htake
  exact htake

namespace Document

/-- **The line that an error about an entry names.** The run of lines that is refused is one of the
runs of the catalog, and its first line stands behind the lines `front`. The number is that of the
run's first line exactly if no context waits there for its id; otherwise it is one too many. -/
theorem line_of_entryError {options : ReadOptions} {text : Text} {error : CatalogError}
    {number : Nat} (h : parse options text = .error error)
    (hnumber : error.entryLine? = some number) :
    ∃ lines earlier run front, Decides (lineTexts text) lines earlier run ∧
      (∃ entries, Entry.BuiltFrom earlier entries ∧ Entry.Refused entries number run error) ∧
      Starts earlier.flatten run lines front ∧
      (number = front.length + 1 ↔ waits front = false) ∧
      (waits front = true → number = front.length + 2) := by
  obtain ⟨seen, state, rest, run, read, hreached, hwaiting, hcloses, hrefused, hread, hprefix,
    hall⟩ := Assembly.exists_closes_of_error (entries_eq_error_of_parse h hnumber) hnumber
  obtain ⟨done, hbuilt, hfirst, hruns⟩ := hreached.exists_runs_of_closes hwaiting hcloses
  obtain ⟨front, hstarts⟩ := hreached.exists_starts_of_closes hcloses
  have hheld : state.held = done.flatten := Entry.flatMap_lines_of_builtFrom hbuilt
  obtain rfl : state.firstLine = number :=
    Option.some.inj (hrefused.entryLine?.symm.trans hnumber)
  rw [hheld] at hstarts
  obtain ⟨hinPlace, hmoved⟩ := hstarts.length_eq
  refine ⟨seen ++ rest, done, run, front, ⟨⟨read, hprefix, hread⟩, fun more hmore => ?_⟩,
    ⟨state.finished, hbuilt, hrefused⟩, hstarts, ?_, fun hwaits => ?_⟩
  · refine hruns more fun hrest => hmore ?_
    rwa [hall hrest] at hread
  · rw [hfirst]
    cases hwaits : waits front with
    | false => simp [hinPlace hwaits]
    | true => simp [hmoved hwaits]
  · rw [hfirst, hmoved hwaits]

/-- A catalog with a line of two spaces between a context and its id, and an entry right behind that
repeats the key of the header. -/
def blankBeforeId : Text :=
  "msgid \"\"\nmsgstr \"Language: ja\\n\"\n\nmsgctxt \"c\"\n  \nmsgid \"a\"\nmsgid \"\"\n".toList

/-- The lines of a catalog whose fifth line, two spaces, stands between a context and its id; the
entry right behind has a plural id and no plural form. -/
def blankOpensEntry : List Text :=
  ["msgid \"\"".toList, "msgstr \"Language: ja\\n\"".toList, [], "msgctxt \"c\"".toList, [' ', ' '],
    "msgid \"a\"".toList, "msgid \"b\"".toList, "msgid_plural \"bs\"".toList]

/-- The lines that these are read as. -/
def opensWithBlank : List Line :=
  blankOpensEntry.filterMap fun text => (Line.parse text).toOption

theorem parsedAs_opensWithBlank : Line.ParsedAs blankOpensEntry opensWithBlank := by
  have hraw : opensWithBlank.map Line.raw = blankOpensEntry := by decide +kernel
  rw [← hraw]
  exact Line.parsedAs_map_raw (by decide +kernel)

theorem line_of_entryError_blankBeforeId :
    parse {} blankBeforeId = .error (.documentStructure 6 (.duplicateEntry { id := [] })) ∧
    ∃ lines earlier run front, Decides (lineTexts blankBeforeId) lines earlier run ∧
      (∃ entries, Entry.BuiltFrom earlier entries ∧
        Entry.Refused entries 6 run (.documentStructure 6 (.duplicateEntry { id := [] }))) ∧
      Starts earlier.flatten run lines front ∧ waits front = true ∧ 6 = front.length + 2 := by
  have h : parse {} blankBeforeId
      = .error (.documentStructure 6 (.duplicateEntry { id := [] })) := by decide +kernel
  obtain ⟨lines, earlier, run, front, hdecides, hrefused, hstarts, hplace, hmoved⟩ :=
    line_of_entryError h rfl
  have hwaits : waits front = true := by
    -- otherwise five lines stand in front, and behind the first five of the catalog a context waits
    by_contra hnot
    have hlength : front.length = 5 := by
      have hnumber := hplace.2 (eq_false_of_ne_true hnot)
      omega
    have hfront := hdecides.parsedAs_take hstarts.isPrefix
    have hopening := List.forall₂_take 5 parsedAs_opensWithBlank
    have htexts : (lineTexts blankBeforeId).take 5 = blankOpensEntry.take 5 := by decide +kernel
    have hopens : waits (opensWithBlank.take 5) = true := by decide +kernel
    rw [hlength, htexts] at hfront
    rw [hfront.unique hopening] at hnot
    exact hnot hopens
  exact ⟨h, lines, earlier, run, front, hdecides, hrefused, hstarts, hwaits, hmoved hwaits⟩

/-- **The number can be one too many.** The entry that is refused starts with the fifth line, the
only one with two spaces, and the error names the sixth. -/
theorem entryError_misses_first_line :
    lineTexts (Text.unlines blankOpensEntry) = blankOpensEntry ∧
    blankOpensEntry[4]? = some [' ', ' '] ∧ blankOpensEntry.count [' ', ' '] = 1 ∧
    parse {} (Text.unlines blankOpensEntry)
      = .error (.entryStructure 6 .pluralIdWithoutValues) ∧
    ∃ lines earlier run, Line.ParsedAs blankOpensEntry lines ∧ runs lines = earlier ++ [run] ∧
      Entry.ofLines run = .error .pluralIdWithoutValues ∧
      run.head?.map Line.raw = some [' ', ' '] := by
  refine ⟨by decide +kernel, rfl, by decide +kernel, by decide +kernel, opensWithBlank,
    (runs opensWithBlank).dropLast, (runs opensWithBlank).getLastD [], parsedAs_opensWithBlank,
    ?_, ?_, ?_⟩ <;> decide +kernel

end Document

end MessageCatalog
