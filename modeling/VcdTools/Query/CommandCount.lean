import VcdTools.Lib.Fallible
import VcdTools.Query.ExtractLimits
import VcdTools.Query.FindOccurrence

/-! # The commands that a scan reads

`commands_processed` of an iterator that has answered its last row: the parse
results up to and with the first late timestamp. -/
namespace VcdTools.Query
open VcdTools.Lib VcdTools.Lib.Iter

/-- The parse results that a scan reads: it stops at a late timestamp or at a
parse error. -/
def commandsRead (window : TimeWindow) : List ParseResult → Nat
  | [] => 0
  | .error _ :: _ => 1
  | .ok command :: rest =>
    if isLate window (.ok command) then 1 else commandsRead window rest + 1

/-- `commands_processed` after a loop over all rows, when no error ends it. -/
def OpenedVcd.commandsConsumed (opened : OpenedVcd) (targets : List String) (window : TimeWindow)
    (context : QueryContext) : Option Nat :=
  match opened.extract targets window context with
  | .error _ => none
  | .ok events =>
    match events.forEach (fun _ _ => .ok (true, ())) () with
    | .error _ => none
    | .ok (_, _, events) => some events.commandsProcessed

/-- The rows that a scan comes to without limits. -/
def OpenedVcd.rowsAsked (opened : OpenedVcd) (targets : List String) (window : TimeWindow)
    (commands : List ParseResult) : Nat :=
  (rowsOf (extractWork (opened.catalog.requested targets) window 0 commands)).length

variable {window : TimeWindow} {stream : SelectedChangeStream} {n : Nat}

/-! ## The stream -/

/-- A stream that is not through, and has `n` parse results to its end, those
it has read included. -/
structure Reading (window : TimeWindow) (n : Nat) (stream : SelectedChangeStream) : Prop where
  unfinished : stream.finished = false
  inWindow : stream.window = window
  count : ∃ k, stream.commandCount = counter k ∧ k + commandsRead window stream.parser = n

/-- What a call of a stream leaves; `complete` is the outcome of its last check. -/
structure ReadsOn (window : TimeWindow) (n : Nat) (complete : Except VcdError Unit)
    (answered : Option (Except QueryError SelectedChange) × SelectedChangeStream) : Prop where
  change : ∀ change, answered.1 = some (.ok change) → Reading window n answered.2
  ended : answered.1 = none → answered.2.commandCount = counter n ∧ complete = .ok ()

theorem fail_readsOn (stream : SelectedChangeStream) (error : QueryError)
    (complete : Except VcdError Unit) : ReadsOn window n complete (stream.fail error) :=
  ⟨fun _ h => (by cases h), fun h => (by cases h)⟩

theorem finishSuccess_readsOn (stream : SelectedChangeStream) (hcount : stream.commandCount = counter n) :
    ReadsOn window n stream.validateComplete stream.finishSuccess := by
  unfold SelectedChangeStream.finishSuccess
  split
  · rename_i hcomplete
    refine ⟨fun _ h => (by cases h), fun _ => ⟨hcount, ?_⟩⟩
    obtain ⟨⟨⟩, -, hcomplete⟩ := Fallible.bind_ok_iff.mp hcomplete
    obtain ⟨⟨⟩, hvalid, -⟩ := Fallible.bind_ok_iff.mp hcomplete
    exact Fallible.mapError_ok_iff.mp hvalid
  · exact fail_readsOn _ _ _

/-- A command that passes the checks is the one that was parsed. -/
theorem checkResult_ok {result : ParseResult} {command : Command}
    (h : stream.checkResult result = .ok command) : result = .ok command := by
  obtain ⟨⟨⟩, -, h⟩ := Fallible.bind_ok_iff.mp h
  cases result with
  | error error =>
    obtain ⟨⟨⟩, -, h⟩ := Fallible.bind_ok_iff.mp h
    cases h
  | ok parsed =>
    cases parsed with
    | timestamp time =>
      obtain ⟨⟨⟩, -, h⟩ := Fallible.bind_ok_iff.mp h
      obtain ⟨⟨⟩, -, h⟩ := Fallible.bind_ok_iff.mp h
      cases h
      rfl
    | _ =>
      obtain ⟨⟨⟩, -, h⟩ := Fallible.bind_ok_iff.mp h
      cases h
      rfl

/-- **The loop** reads on to the end that was ahead. -/
theorem nextLoop_readsOn (rest : List ParseResult) (stream : SelectedChangeStream) {k : Nat}
    (hfinished : stream.finished = false) (hwindow : stream.window = window)
    (hcount : stream.commandCount = counter k) (hn : k + commandsRead window rest = n) :
    ReadsOn window n stream.validateComplete (stream.nextLoop rest) := by
  induction rest generalizing stream k with
  | nil =>
    rw [← hn]
    exact finishSuccess_readsOn { stream with parser := [] } hcount
  | cons result rest ih =>
    have hnext : saturatingAdd stream.commandCount 1 = counter (k + 1) := by
      rw [hcount, counter_saturatingAdd]
    let taken := SelectedChangeStream.incrementCommandCount { stream with parser := rest }
    unfold SelectedChangeStream.nextLoop
    simp only
    split
    · exact fail_readsOn _ _ _
    · rename_i time hresult
      cases checkResult_ok hresult
      have hlate : isLate window (.ok (.timestamp time)) = SelectedChangeStream.pastEnd stream.window time := by
        rw [hwindow]
        rfl
      rw [commandsRead, hlate] at hn
      split
      · rename_i hpast
        have hpast : SelectedChangeStream.pastEnd stream.window time = true := hpast
        rw [hpast, if_pos rfl] at hn
        rw [← hn]
        exact finishSuccess_readsOn { taken with currentTime := time } hnext
      · rename_i hpast
        have hpast : ¬ SelectedChangeStream.pastEnd stream.window time = true := hpast
        rw [if_neg hpast] at hn
        exact ih { taken with currentTime := time } hfinished hwindow hnext (by omega)
    · rename_i command hother hresult
      cases checkResult_ok hresult
      have hlate : isLate window (.ok command) = false := by
        cases command with
        | timestamp time => exact absurd rfl (hother time)
        | _ => rfl
      rw [commandsRead, hlate] at hn
      simp only [Bool.false_eq_true, if_false] at hn
      have hskip : ReadsOn window n stream.validateComplete (taken.nextLoop rest) :=
        ih taken hfinished hwindow hnext (by omega)
      split
      · exact hskip
      · split
        · split
          · exact fail_readsOn _ _ _
          · split
            · refine ⟨fun _ _ => ⟨hfinished, hwindow, k + 1, hnext, ?_⟩, fun h => (by cases h)⟩
              change k + 1 + commandsRead window rest = n
              omega
            · exact hskip
        · exact hskip

theorem next_readsOn (h : Reading window n stream) :
    ReadsOn window n stream.validateComplete stream.next := by
  obtain ⟨hfinished, hwindow, k, hcount, hn⟩ := h
  rw [SelectedChangeStream.next, if_neg (by simp [hfinished])]
  exact nextLoop_readsOn _ stream hfinished hwindow hcount hn

/-! ## The iterator -/

/-- An iterator between two rows. -/
structure ReadsRows (window : TimeWindow) (n : Nat) (iter : OpenedTimeValueIter) : Prop where
  running : iter.terminated = false
  filled : iter.stream.selection.byId.Filled
  stream : Reading window n iter.stream

variable {iter : OpenedTimeValueIter}

theorem emitPending_none (h : iter.emitPending.1 = none) :
    iter.pending = [] ∧ iter.emitPending.2 = iter := by
  unfold OpenedTimeValueIter.emitPending at h ⊢
  cases hpending : iter.pending with
  | nil => exact ⟨rfl, rfl⟩
  | cons event pending =>
    rw [hpending] at h
    simp only at h
    split at h
    · cases h
    · cases h

theorem emitPending_reads (h : ReadsRows window n iter) {row : TimeValue}
    (hrow : iter.emitPending.1 = some (.ok row)) : ReadsRows window n iter.emitPending.2 := by
  unfold OpenedTimeValueIter.emitPending at hrow ⊢
  split at hrow
  · cases hrow
  · split at hrow
    · cases hrow
    · exact ⟨h.running, h.filled, h.stream⟩

/-- **A call** reads on, or is through with `n` commands and a source that
passed its last check. -/
theorem next_reads (h : ReadsRows window n iter) :
    (∀ row, iter.next.1 = some (.ok row) → ReadsRows window n iter.next.2) ∧
      (iter.next.1 = none → iter.next.2.commandsProcessed = counter n ∧
        iter.stream.validateComplete = .ok ()) := by
  by_cases hpending : iter.pending = []
  · have hover := (OpenedTimeValueIter.next_keeps iter h.filled).2
    rw [OpenedTimeValueIter.next_of_pending_nil iter h.running hpending] at hover ⊢
    have hreads := next_readsOn h.stream
    have hselection := (next_advances iter.stream h.stream.unfinished).selection
    cases hnext : iter.stream.next with
    | mk answered stream =>
      rw [hnext] at hreads hover hselection
      match answered, hreads, hover with
      | none, hreads, _ => exact ⟨fun _ h => (by cases h), fun _ => hreads.ended rfl⟩
      | some (.error error), _, _ => exact ⟨fun _ h => (by cases h), fun h => (by cases h)⟩
      | some (.ok change), hreads, hover =>
        have hreading := hreads.change change rfl
        have hqueued : ReadsRows window n ({ iter with stream := stream }.queueChange change) :=
          ⟨h.running, hselection ▸ h.filled, hreading⟩
        refine ⟨fun row hrow => emitPending_reads hqueued hrow, fun hnone => ?_⟩
        exfalso
        have hended := hover fun row hrow => by
          rw [hnone] at hrow
          cases hrow
        rw [(emitPending_none hnone).2] at hended
        obtain hterminated | ⟨-, hfinished⟩ := hended
        · rw [hqueued.running] at hterminated
          cases hterminated
        · rw [hqueued.stream.unfinished] at hfinished
          cases hfinished
  · rw [OpenedTimeValueIter.next_of_pending iter h.running hpending]
    exact ⟨fun row hrow => emitPending_reads h hrow,
      fun hnone => absurd (emitPending_none hnone).1 hpending⟩

/-- **A loop over all rows** reads all that is ahead. -/
theorem forEach_reads {rows : List TimeValue} (h : ReadsRows window n iter)
    (hyields : Yields OpenedTimeValueIter.next iter (rows.map .ok)) :
    iter.stream.validateComplete = .ok () ∧
      ∃ ended, iter.forEach (fun _ _ => .ok (true, ())) () = .ok (true, (), ended) ∧
        ended.commandsProcessed = counter n := by
  induction rows generalizing iter with
  | nil =>
    have hnone : iter.next.1 = none := hyields 0
    obtain ⟨hcount, hcomplete⟩ := (next_reads h).2 hnone
    have hnext : iter.next = (none, iter.next.2) := Prod.ext hnone rfl
    exact ⟨hcomplete, iter.next.2, iterate_none OpenedTimeValueIter.next_shrinks hnext, hcount⟩
  | cons row rows ih =>
    have hsome : iter.next.1 = some (.ok row) := hyields.head
    have hnext : iter.next = (some (.ok row), iter.next.2) := Prod.ext hsome rfl
    obtain ⟨hcomplete, ended, hloop, hcount⟩ := ih ((next_reads h).1 row hsome) hyields.tail
    have hkeeps := (OpenedTimeValueIter.next_keeps iter h.filled).1.complete
    refine ⟨hkeeps ▸ hcomplete, ended, ?_, hcount⟩
    rw [OpenedTimeValueIter.forEach, iterate_ok OpenedTimeValueIter.next_shrinks hnext]
    exact hloop

/-! ## The extraction -/

variable {opened : OpenedVcd} {targets : List String} {context : QueryContext}

theorem rows_ne_error (rows rows' : List TimeValue) (error : QueryError) :
    rows.map Except.ok ≠ rows'.map .ok ++ [.error error] := by
  intro h
  have hmem : .error error ∈ rows.map (Except.ok (ε := QueryError)) := by
    rw [h]
    exact List.mem_append_right _ List.mem_cons_self
  obtain ⟨row, -, heq⟩ := List.mem_map.mp hmem
  cases heq

/-- Rows that no error follows. -/
theorem rows_of_items {rows rows' : List TimeValue} {stop : Option QueryError}
    (h : rows.map .ok = rows'.map .ok ++ (stop.map Except.error).toList) :
    rows = rows' ∧ stop = none := by
  cases stop with
  | none =>
    have h : rows.map (Except.ok (ε := QueryError)) = rows'.map .ok := by
      rw [h]
      exact List.append_nil _
    exact ⟨List.map_injective_iff.mpr (fun _ _ => Except.ok.inj) h, rfl⟩
  | some error => exact absurd h (rows_ne_error rows rows' error)

/-- Work that is answered without an error is answered with all its rows. -/
theorem rows_of_answers {limits : QueryLimits} {ws : List Work} (hlast : FailsLast ws)
    {rows : List TimeValue} (h : answers limits {} ws = rows.map .ok) : rows = rowsOf ws := by
  obtain ⟨hwithin, hover⟩ := answers_spent limits hlast
  by_cases hin : Within limits (cost ws)
  · exact (rows_of_items (h.symm.trans (hwithin hin).1)).1
  · obtain ⟨error, w, -, -, -, hanswers⟩ := hover hin
    exact absurd (h.symm.trans hanswers) (rows_ne_error rows _ error)

/-- **An extraction that no error ends** has read the commands up to the end of
its window, and its rows are all that these ask for. -/
theorem commandsConsumed_eq {rows : List TimeValue}
    (h : opened.Delivers targets window context (rows.map .ok)) :
    ∃ commands, opened.Unchanged commands ∧
      opened.commandsConsumed targets window context =
        some (counter (commandsRead window commands)) ∧
      rows.length = opened.rowsAsked targets window commands := by
  unfold OpenedVcd.Delivers at h
  cases hextract : opened.extract targets window context with
  | error error =>
    rw [hextract] at h
    cases rows with
    | nil => cases h
    | cons row rows => cases h
  | ok iter =>
    rw [hextract] at h
    obtain ⟨hlive, -, hstarts⟩ := extract_starting hextract
    obtain ⟨commands, hbody, hstream⟩ : ∃ commands, opened.bodyParser = .ok commands ∧
        Reading window (commandsRead window commands) iter.stream := by
      obtain ⟨stream, hstream, hiter⟩ := Fallible.bind_ok_iff.mp hextract
      obtain ⟨⟨⟩, -, hstream⟩ := Fallible.bind_ok_iff.mp hstream
      obtain ⟨selection, -, hstream⟩ := Fallible.bind_ok_iff.mp hstream
      obtain ⟨⟨⟩, -, hstream⟩ := Fallible.bind_ok_iff.mp hstream
      obtain ⟨commands, hbody, hstream⟩ := Fallible.bind_ok_iff.mp hstream
      cases hstream
      cases hiter
      exact ⟨commands, Fallible.mapError_ok_iff.mp hbody, rfl, rfl, 0, rfl, Nat.zero_add _⟩
    have hreads : ReadsRows window (commandsRead window commands) iter := by
      obtain ⟨stream, -, hiter⟩ := Fallible.bind_ok_iff.mp hextract
      cases hiter
      exact ⟨rfl, hstarts.filled, hstream⟩
    obtain ⟨hcomplete, ended, hloop, hcount⟩ := forEach_reads hreads h
    have hsource : opened.Unchanged commands := ⟨hbody, hstarts.complete ▸ hcomplete⟩
    refine ⟨commands, hsource, ?_, ?_⟩
    · simp only [OpenedVcd.commandsConsumed, hextract, hloop, hcount]
    · have hanswers := (extract_yields hlive hsource hextract).1.unique h
      rw [rows_of_answers (extractWork_failsLast 0 commands) hanswers]
      rfl

end VcdTools.Query
