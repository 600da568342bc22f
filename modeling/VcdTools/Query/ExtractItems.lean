import VcdTools.Query.Ops

/-! # The items of an extraction

Whatever its source does, an extraction that starts yields some list of items:
it is over once it does not answer a row. While it answers rows, what the body
parser has behind them does not matter. -/
namespace VcdTools.Query
open VcdTools.Lib VcdTools.Lib.Iter

variable {stream stream' : SelectedChangeStream}

/-! ## The stream -/

/-- What a call of the stream leaves: its fixed parts, and an end or a change
of a selected identifier. -/
structure Advances (stream : SelectedChangeStream)
    (answered : Option (Except QueryError SelectedChange) × SelectedChangeStream) : Prop where
  selection : answered.2.selection = stream.selection
  context : answered.2.context = stream.context
  complete : answered.2.validateComplete = stream.validateComplete
  ended : (∀ change, answered.1 ≠ some (.ok change)) → answered.2.finished = true
  selected : ∀ change, answered.1 = some (.ok change) →
    stream.selection.contains change.idCode = true ∧ stream.context.check = .ok ()

theorem fail_advances (error : QueryError) : Advances stream (stream.fail error) :=
  ⟨rfl, rfl, rfl, fun _ => rfl, fun _ h => (by cases h)⟩

theorem finishSuccess_advances : Advances stream stream.finishSuccess := by
  unfold SelectedChangeStream.finishSuccess
  split
  · exact ⟨rfl, rfl, rfl, fun _ => rfl, fun _ h => (by cases h)⟩
  · exact fail_advances _

theorem convertSelected_id {command : Command} {id : IdCode} {change : SelectedChange}
    (hid : command.changedId = some id) (h : stream.convertSelected command = some change) :
    change.idCode = id := by
  cases command with
  | timestamp _ => cases h
  | other _ => cases h
  | changeScalar | changeVector | changeReal | changeString =>
    cases h
    exact Option.some.inj hid

theorem Advances.trans {answered : Option (Except QueryError SelectedChange) × SelectedChangeStream}
    (h : Advances stream' answered) (hselection : stream'.selection = stream.selection)
    (hcontext : stream'.context = stream.context)
    (hcomplete : stream'.validateComplete = stream.validateComplete) : Advances stream answered where
  selection := h.selection.trans hselection
  context := h.context.trans hcontext
  complete := h.complete.trans hcomplete
  ended := h.ended
  selected change hchange := by
    rw [← hselection, ← hcontext]
    exact h.selected change hchange

theorem nextLoop_advances (rest : List ParseResult) (stream : SelectedChangeStream) :
    Advances stream (stream.nextLoop rest) := by
  induction rest generalizing stream with
  | nil => exact finishSuccess_advances.trans rfl rfl rfl
  | cons result rest ih =>
    unfold SelectedChangeStream.nextLoop
    simp only
    split
    · exact (fail_advances _).trans rfl rfl rfl
    · split
      · exact finishSuccess_advances.trans rfl rfl rfl
      · exact (ih _).trans rfl rfl rfl
    · rename_i command _ _
      split
      · exact (ih _).trans rfl rfl rfl
      · rename_i id hid
        split
        · rename_i hselected
          split
          · exact (fail_advances _).trans rfl rfl rfl
          · rename_i hcheck
            split
            · rename_i change hchange
              refine ⟨rfl, rfl, rfl, fun h => absurd rfl (h change), fun change' heq => ?_⟩
              cases heq
              rw [convertSelected_id hid hchange]
              exact ⟨hselected.1, hcheck⟩
            · exact (ih _).trans rfl rfl rfl
        · exact (ih _).trans rfl rfl rfl

theorem next_advances (stream : SelectedChangeStream) (h : stream.finished = false) :
    Advances stream stream.next := by
  rw [SelectedChangeStream.next, if_neg (by simp [h])]
  exact nextLoop_advances _ _

/-- A change that is answered comes from a command. -/
theorem nextLoop_converted (rest : List ParseResult) (stream : SelectedChangeStream)
    {change : SelectedChange} (h : (stream.nextLoop rest).1 = some (.ok change)) :
    ∃ command stream', SelectedChangeStream.convertSelected stream' command = some change := by
  induction rest generalizing stream with
  | nil => exact absurd h (finishSuccess_not_ok _ _)
  | cons result rest ih =>
    unfold SelectedChangeStream.nextLoop at h
    simp only at h
    split at h
    · cases h
    · split at h
      · exact absurd h (finishSuccess_not_ok _ _)
      · exact ih _ h
    · split at h
      · exact ih _ h
      · split at h
        · split at h
          · cases h
          · split at h
            · rename_i hchange
              cases h
              exact ⟨_, _, hchange⟩
            · exact ih _ h
        · exact ih _ h

/-- A stream with more behind what its parser delivers. -/
def SelectedChangeStream.longer (stream : SelectedChangeStream) (more : List ParseResult) :
    SelectedChangeStream :=
  { stream with parser := stream.parser ++ more }

/-- A change is delivered before anybody looks at what stands behind it. -/
theorem nextLoop_longer (more rest : List ParseResult) {change : SelectedChange}
    (h : stream.nextLoop rest = (some (.ok change), stream')) :
    (stream.longer more).nextLoop (rest ++ more) = (some (.ok change), stream'.longer more) := by
  have hcheck : stream.context.check = .ok () :=
    ((nextLoop_advances rest stream).selected change (congrArg Prod.fst h)).2
  induction rest generalizing stream with
  | nil => exact absurd (congrArg Prod.fst h) (finishSuccess_not_ok _ _)
  | cons result rest ih =>
    have hsame : ((stream.longer more).taken (rest ++ more)).checkResult result =
        (stream.taken rest).checkResult result := rfl
    rw [List.cons_append]
    cases hadmitted : (stream.taken rest).checkResult result with
    | error error =>
      rw [nextLoop_refused hadmitted] at h
      cases congrArg Prod.fst h
    | ok command =>
      rw [nextLoop_admitted hadmitted hcheck] at h
      rw [nextLoop_admitted (hsame.trans hadmitted) hcheck]
      cases hchange : commandToChangeValue command with
      | some changed =>
        simp only [hchange] at h ⊢
        split at h
        · rename_i hselected
          rw [if_pos (by exact hselected)]
          cases h
          rfl
        · rename_i hselected
          rw [if_neg (by exact hselected)]
          exact ih h hcheck
      | none =>
        simp only [hchange] at h ⊢
        split at h
        · exact absurd (congrArg Prod.fst h) (finishSuccess_not_ok _ _)
        · rename_i hlate
          rw [if_neg (by exact hlate)]
          exact ih h hcheck

/-! ## The iterator -/

namespace OpenedTimeValueIter

/-- Over: every further call answers nothing. -/
def Over (iter : OpenedTimeValueIter) : Prop :=
  iter.terminated = true ∨ (iter.pending = [] ∧ iter.stream.finished = true)

theorem Over.next {iter : OpenedTimeValueIter} (h : iter.Over) :
    iter.next.1 = none ∧ iter.next.2.Over := by
  unfold OpenedTimeValueIter.next
  rcases h with hterminated | ⟨hpending, hfinished⟩
  · rw [if_pos hterminated]
    exact ⟨rfl, .inl hterminated⟩
  · split
    · rename_i hterminated
      exact ⟨rfl, .inl hterminated⟩
    · have hemit : iter.emitPending = (none, iter) := by
        simp [emitPending, hpending]
      have hnext : iter.stream.next = (none, iter.stream) := by
        rw [SelectedChangeStream.next, if_pos hfinished]
      simp only [hemit, hnext, true_and]
      exact .inr ⟨hpending, hfinished⟩

theorem Over.answer {iter : OpenedTimeValueIter} (h : iter.Over) (n : Nat) :
    answer OpenedTimeValueIter.next iter n = none := by
  induction n generalizing iter with
  | zero => exact h.next.1
  | succ n ih => exact ih h.next.2

/-- The fixed parts of an iterator. -/
structure Keeps (iter iter' : OpenedTimeValueIter) : Prop where
  selection : iter'.stream.selection = iter.stream.selection
  streamContext : iter'.stream.context = iter.stream.context
  complete : iter'.stream.validateComplete = iter.stream.validateComplete
  context : iter'.context = iter.context

theorem emitPending_keeps (iter : OpenedTimeValueIter) : Keeps iter iter.emitPending.2 := by
  unfold emitPending
  split
  · exact ⟨rfl, rfl, rfl, rfl⟩
  · split <;> exact ⟨rfl, rfl, rfl, rfl⟩

/-- A call that delivers no waiting row finds none, or refuses it. -/
theorem emitPending_over {iter : OpenedTimeValueIter} (hpending : iter.pending ≠ [])
    (h : ∀ row, iter.emitPending.1 ≠ some (.ok row)) : iter.emitPending.2.Over := by
  obtain ⟨event, pending, hevents⟩ := List.exists_cons_of_ne_nil hpending
  unfold emitPending at h ⊢
  simp only [hevents] at h ⊢
  cases hcharge : iter.chargeRow event with
  | error error => exact .inl rfl
  | ok counts =>
    rw [hcharge] at h
    exact absurd rfl (h _)

/-- Nothing waits, so a call asks the stream. -/
theorem next_of_pending_nil (iter : OpenedTimeValueIter) (hrun : iter.terminated = false)
    (hpending : iter.pending = []) :
    iter.next =
      match iter.stream.next with
      | (none, stream) => (none, { iter with stream := stream })
      | (some (.ok change), stream) =>
        ({ iter with stream := stream }.queueChange change).emitPending
      | (some (.error error), stream) =>
        (some (.error error), { iter with stream := stream, terminated := true }) := by
  have hemit : iter.emitPending = (none, iter) := by
    simp [emitPending, hpending]
  rw [OpenedTimeValueIter.next, if_neg (by simp [hrun])]
  exact hemit ▸ rfl

theorem next_of_pending (iter : OpenedTimeValueIter) (hrun : iter.terminated = false)
    (hpending : iter.pending ≠ []) : iter.next = iter.emitPending := by
  obtain ⟨event, pending, hevents⟩ := List.exists_cons_of_ne_nil hpending
  have hsome : ∃ item iter', iter.emitPending = (some item, iter') := by
    unfold emitPending
    simp only [hevents]
    cases iter.chargeRow event <;> exact ⟨_, _, rfl⟩
  obtain ⟨item, iter', hemit⟩ := hsome
  simp [OpenedTimeValueIter.next, hrun, hemit]

/-- **A call keeps the fixed parts**, and the iterator is over when it did not
answer a row. -/
theorem next_keeps (iter : OpenedTimeValueIter) (hfilled : iter.stream.selection.byId.Filled) :
    Keeps iter iter.next.2 ∧
      ((∀ row, iter.next.1 ≠ some (.ok row)) → iter.next.2.Over) := by
  by_cases hrun : iter.terminated = true
  · have hover : iter.Over := .inl hrun
    refine ⟨?_, fun _ => hover.next.2⟩
    rw [OpenedTimeValueIter.next, if_pos hrun]
    exact ⟨rfl, rfl, rfl, rfl⟩
  have hrun : iter.terminated = false := by simpa using hrun
  by_cases hpending : iter.pending = []
  · rw [next_of_pending_nil iter hrun hpending]
    by_cases hfinished : iter.stream.finished = true
    · have hnext : iter.stream.next = (none, iter.stream) := by
        rw [SelectedChangeStream.next, if_pos hfinished]
      simp only [hnext]
      exact ⟨⟨rfl, rfl, rfl, rfl⟩, fun _ => .inr ⟨hpending, hfinished⟩⟩
    have hadvances := next_advances iter.stream (by simpa using hfinished)
    cases hnext : iter.stream.next with
    | mk answered stream =>
      rw [hnext] at hadvances
      have hkeeps : ∀ terminated pending, Keeps iter
          { iter with stream := stream, terminated := terminated, pending := pending } :=
        fun _ _ => ⟨hadvances.selection, hadvances.context, hadvances.complete, rfl⟩
      cases answered with
      | none =>
        exact ⟨hkeeps iter.terminated iter.pending,
          fun _ => .inr ⟨hpending, hadvances.ended fun _ h => (by cases h)⟩⟩
      | some item =>
        cases item with
        | error error => exact ⟨hkeeps true iter.pending, fun _ => .inl rfl⟩
        | ok change =>
          have hbindings : stream.selection.bindings change.idCode ≠ [] := by
            have hcontains := (hadvances.selected change rfl).1
            rw [TargetSelection.contains, hfilled.get_eq] at hcontains
            rw [show stream.selection = iter.stream.selection from hadvances.selection,
              TargetSelection.bindings]
            intro hnil
            rw [if_pos hnil] at hcontains
            cases hcontains
          have hqueued : (queueChange { iter with stream := stream } change).pending ≠ [] := by
            simpa [queueChange, hpending] using hbindings
          have hemitted := emitPending_keeps (queueChange { iter with stream := stream } change)
          exact ⟨⟨hemitted.selection.trans hadvances.selection,
            hemitted.streamContext.trans hadvances.context,
            hemitted.complete.trans hadvances.complete, hemitted.context⟩,
            emitPending_over hqueued⟩
  · rw [next_of_pending iter hrun hpending]
    exact ⟨emitPending_keeps iter, emitPending_over hpending⟩

theorem Keeps.trans {iter iter' iter'' : OpenedTimeValueIter} (h : Keeps iter iter')
    (h' : Keeps iter' iter'') : Keeps iter iter'' :=
  ⟨h'.selection.trans h.selection, h'.streamContext.trans h.streamContext,
    h'.complete.trans h.complete, h'.context.trans h.context⟩

/-- **Every iterator of filled groups yields some list.** -/
theorem exists_yields (iter : OpenedTimeValueIter)
    (hfilled : iter.stream.selection.byId.Filled) :
    ∃ items, Yields OpenedTimeValueIter.next iter items := by
  refine Lib.exists_yields next_shrinks
    (P := fun iter => iter.stream.selection.byId.Filled) (fun iter h => ?_) (fun iter h hnot => ?_)
    iter hfilled
  · rw [(next_keeps iter h).1.selection]
    exact h
  · exact ((next_keeps iter h).2 hnot).answer

/-- An iterator whose stream has more behind it. -/
def longer (iter : OpenedTimeValueIter) (more : List ParseResult) : OpenedTimeValueIter :=
  { iter with stream := iter.stream.longer more }

theorem emitPending_longer {iter iter' : OpenedTimeValueIter} (more : List ParseResult)
    {row : TimeValue} (h : iter.emitPending = (some (.ok row), iter')) :
    (iter.longer more).emitPending = (some (.ok row), iter'.longer more) := by
  unfold emitPending at h
  split at h
  · cases h
  · rename_i event pending hevents
    have hcharge : (iter.longer more).chargeRow event = iter.chargeRow event := rfl
    have hpending : (iter.longer more).pending = event :: pending := hevents
    unfold emitPending
    simp only [hpending, hcharge]
    split at h
    · cases h
    · rename_i counts hok
      cases h
      rfl

/-- A row is delivered before anybody looks at what stands behind it. -/
theorem next_longer {iter iter' : OpenedTimeValueIter} (more : List ParseResult) {row : TimeValue}
    (h : iter.next = (some (.ok row), iter')) :
    (iter.longer more).next = (some (.ok row), iter'.longer more) := by
  by_cases hrun : iter.terminated = true
  · rw [OpenedTimeValueIter.next, if_pos hrun] at h
    cases h
  have hrun : iter.terminated = false := by simpa using hrun
  by_cases hpending : iter.pending = []
  · rw [next_of_pending_nil iter hrun hpending] at h
    rw [next_of_pending_nil (iter.longer more) hrun hpending]
    cases hnext : iter.stream.next with
    | mk answered stream =>
      rw [hnext] at h
      match answered, hnext, h with
      | none, _, h => cases h
      | some (.error error), _, h => cases h
      | some (.ok change), hnext, h =>
        have hlonger : (iter.stream.longer more).next = (some (.ok change), stream.longer more) := by
          unfold SelectedChangeStream.next at hnext ⊢
          split at hnext
          · cases hnext
          · rename_i hfinished
            rw [if_neg (by exact hfinished)]
            exact nextLoop_longer more _ hnext
        have hstream : (iter.longer more).stream = iter.stream.longer more := rfl
        simp only [hstream, hlonger]
        exact emitPending_longer more h
  · rw [next_of_pending iter hrun hpending] at h
    rw [next_of_pending (iter.longer more) hrun hpending]
    exact emitPending_longer more h

/-! ## What the rows are like -/

section
variable {S : SelectedChangeStream → Prop} {P : String → Nat → ChangeValue → Prop}
  {iter : OpenedTimeValueIter}

/-- The rows that wait are such as the stream still answers. -/
structure RowsIn (S : SelectedChangeStream → Prop) (P : String → Nat → ChangeValue → Prop)
    (iter : OpenedTimeValueIter) : Prop where
  pending : ∀ event ∈ iter.pending, P event.name event.time event.value
  stream : S iter.stream

theorem rowsIn_start (hpending : iter.pending = []) (h : S iter.stream) : RowsIn S P iter := by
  refine ⟨?_, h⟩
  rw [hpending]
  exact fun _ hevent => (by cases hevent)

theorem emitPending_rowsIn (h : RowsIn S P iter) :
    RowsIn S P iter.emitPending.2 ∧
      ∀ row, iter.emitPending.1 = some (.ok row) → P row.signal row.time row.value := by
  unfold emitPending
  cases hevents : iter.pending with
  | nil => exact ⟨h, fun _ h => (by cases h)⟩
  | cons event pending =>
    have hpending := h.pending
    rw [hevents] at hpending
    simp only
    cases iter.chargeRow event with
    | error error => exact ⟨⟨fun _ h => (by cases h), h.stream⟩, fun _ h => (by cases h)⟩
    | ok counts =>
      refine ⟨⟨fun event' hevent => hpending event' (List.mem_cons_of_mem _ hevent), h.stream⟩,
        fun row hrow => ?_⟩
      cases hrow
      exact hpending event List.mem_cons_self

/-- **A call keeps what the rows are like**, when a call of the stream does. -/
theorem next_rowsIn (hnext : ∀ stream, S stream → S stream.next.2 ∧
      ∀ change, stream.next.1 = some (.ok change) →
        ∀ binding ∈ stream.next.2.selection.bindings change.idCode,
          P binding.name change.time change.value)
    (h : RowsIn S P iter) :
    RowsIn S P iter.next.2 ∧ ∀ row, iter.next.1 = some (.ok row) → P row.signal row.time row.value := by
  by_cases hrun : iter.terminated = true
  · rw [OpenedTimeValueIter.next, if_pos hrun]
    exact ⟨h, fun _ h => (by cases h)⟩
  have hrun : iter.terminated = false := by simpa using hrun
  by_cases hpending : iter.pending = []
  · rw [next_of_pending_nil iter hrun hpending]
    have hstream := hnext iter.stream h.stream
    cases hanswer : iter.stream.next with
    | mk answered stream =>
      rw [hanswer] at hstream
      match answered, hstream with
      | none, hstream => exact ⟨⟨h.pending, hstream.1⟩, fun _ h => (by cases h)⟩
      | some (.error error), hstream => exact ⟨⟨h.pending, hstream.1⟩, fun _ h => (by cases h)⟩
      | some (.ok change), hstream =>
        refine emitPending_rowsIn ⟨fun event hevent => ?_, hstream.1⟩
        obtain hevent | hevent := List.mem_append.mp hevent
        · exact h.pending event hevent
        · obtain ⟨binding, hbinding, rfl⟩ := List.mem_map.mp hevent
          exact hstream.2 change rfl binding hbinding
  · rw [next_of_pending iter hrun hpending]
    exact emitPending_rowsIn h

theorem answer_rowsIn (hnext : ∀ stream, S stream → S stream.next.2 ∧
      ∀ change, stream.next.1 = some (.ok change) →
        ∀ binding ∈ stream.next.2.selection.bindings change.idCode,
          P binding.name change.time change.value)
    (h : RowsIn S P iter) (n : Nat) {row : TimeValue}
    (hrow : answer OpenedTimeValueIter.next iter n = some (.ok row)) : P row.signal row.time row.value := by
  induction n generalizing iter with
  | zero => exact (next_rowsIn hnext h).2 row hrow
  | succ n ih => exact ih (next_rowsIn hnext h).1 hrow

end

end OpenedTimeValueIter

end VcdTools.Query
