import VcdTools.Lib.Fallible
import VcdTools.Query.Reference

/-! # The extraction iterator runs its work

While nobody cancels, no deadline passes and the source stays as it was opened,
`OpenedTimeValueIter` answers exactly what its budget leaves of the work of an
unlimited run. The stream below it is shown to skip to the next selected change
first; the rows waiting for delivery are then part of the work ahead. -/
namespace VcdTools.Query
open VcdTools.Lib VcdTools.Lib.Iter

variable {names : IdCode → List String} {window : TimeWindow} {context : QueryContext}
  {stream : SelectedChangeStream}

/-- What a stream keeps while it runs. -/
structure StreamReady (names : IdCode → List String) (window : TimeWindow)
    (context : QueryContext) (stream : SelectedChangeStream) : Prop where
  context : stream.context = context
  complete : stream.validateComplete = .ok ()
  window : stream.window = window
  names : ∀ id, (stream.selection.bindings id).map (·.name) = names id
  filled : stream.selection.byId.Filled

/-- An identifier is selected when some name asks for it. -/
theorem StreamReady.contains (h : StreamReady names window context stream) (id : IdCode) :
    stream.selection.contains id = true ↔ names id ≠ [] := by
  rw [TargetSelection.contains, h.filled.get_eq, ← h.names id, TargetSelection.bindings]
  cases stream.selection.byId.getD id <;> simp

/-- The stream after it has taken a parse result from the parser. -/
def SelectedChangeStream.taken (stream : SelectedChangeStream) (rest : List ParseResult) :
    SelectedChangeStream :=
  ({ stream with parser := rest } : SelectedChangeStream).incrementCommandCount

/-- The stream at another time. -/
def SelectedChangeStream.atTime (stream : SelectedChangeStream) (time : Nat) :
    SelectedChangeStream :=
  { stream with currentTime := time }

theorem StreamReady.taken (h : StreamReady names window context stream)
    (rest : List ParseResult) : StreamReady names window context (stream.taken rest) :=
  ⟨h.context, h.complete, h.window, h.names, h.filled⟩

theorem StreamReady.atTime (h : StreamReady names window context stream) (time : Nat) :
    StreamReady names window context (stream.atTime time) :=
  ⟨h.context, h.complete, h.window, h.names, h.filled⟩

theorem StreamReady.check (h : StreamReady names window context stream) (hlive : context.Live) :
    stream.context.check = .ok () := by
  rw [h.context]
  exact QueryContext.check_live hlive

/-! ## One parse result -/

theorem finishSuccess_ready (hlive : context.Live) (h : StreamReady names window context stream) :
    stream.finishSuccess = (none, { stream with finished := true }) := by
  simp only [SelectedChangeStream.finishSuccess, SelectedChangeStream.checkComplete,
    h.check hlive, h.complete]
  rfl

/-- With a live context, a parse result is only held against the command
limit. -/
theorem checkResult_ready (hlive : context.Live) (h : StreamReady names window context stream)
    (result : ParseResult) :
    stream.checkResult result =
      (OpenedTimeValueIter.checkLimit .commands context.limits.maxCommands
        stream.commandCount).bind fun _ => result.mapError fun error => .vcd (.io error) := by
  have hcheck := h.check hlive
  have hperiodic : stream.checkPeriodicContext = .ok () := by
    unfold SelectedChangeStream.checkPeriodicContext
    split
    · exact hcheck
    · rfl
  have hlimit : stream.checkCommandLimit =
      OpenedTimeValueIter.checkLimit .commands context.limits.maxCommands
        stream.commandCount := by
    rw [← h.context]
    rfl
  unfold SelectedChangeStream.checkResult
  rw [hperiodic, hlimit]
  cases result with
  | error error => rfl
  | ok command =>
    cases command with
    | timestamp time => simp only [SelectedChangeStream.checkTimestampContext, hcheck]; rfl
    | _ => rfl

/-- What the loop does after it has admitted a command. -/
theorem nextLoop_admitted {result : ParseResult} {rest : List ParseResult} {command : Command}
    (hadmitted : (stream.taken rest).checkResult result = .ok command)
    (hcheck : (stream.taken rest).context.check = .ok ()) :
    stream.nextLoop (result :: rest) =
      match commandToChangeValue command with
      | some (id, value) =>
        if stream.selection.contains id ∧ stream.window.contains stream.currentTime then
          (some (.ok ⟨id, stream.currentTime, value⟩), stream.taken rest)
        else (stream.taken rest).nextLoop rest
      | none =>
        let moved := (stream.taken rest).atTime (timeAfter stream.currentTime (.ok command))
        if isLate stream.window (.ok command) then moved.finishSuccess
        else moved.nextLoop rest := by
  unfold SelectedChangeStream.taken at hadmitted hcheck ⊢
  rw [SelectedChangeStream.nextLoop, hadmitted]
  cases command with
  | timestamp time => rfl
  | other text => rfl
  | changeScalar id value | changeVector id value | changeReal id value | changeString id value =>
    simp only [Command.changedId, commandToChangeValue, hcheck,
      SelectedChangeStream.convertSelected]
    rfl

theorem nextLoop_refused {result : ParseResult} {rest : List ParseResult} {error : QueryError}
    (hadmitted : (stream.taken rest).checkResult result = .error error) :
    stream.nextLoop (result :: rest) = (stream.taken rest).fail error := by
  unfold SelectedChangeStream.taken at hadmitted ⊢
  rw [SelectedChangeStream.nextLoop, hadmitted]

/-! ## The next selected change -/

/-- What `SelectedChangeStream::next` leaves, when `ahead` is what was to be
answered before it. -/
def Advanced (names : IdCode → List String) (window : TimeWindow) (context : QueryContext)
    (rows bytes : Nat) (ahead : List (Except QueryError TimeValue)) :
    Option (Except QueryError SelectedChange) × SelectedChangeStream → Prop
  | (none, stream) => StreamReady names window context stream ∧ stream.finished = true ∧ ahead = []
  | (some (.error error), _) => ahead = [.error error]
  | (some (.ok change), stream) =>
    StreamReady names window context stream ∧ stream.finished = false ∧
      names change.idCode ≠ [] ∧
      ahead = answers context.limits ⟨stream.commandCount, rows, bytes⟩
        (((names change.idCode).map fun name => .row ⟨name, change.time, change.value⟩) ++
          extractWork names window stream.currentTime stream.parser)

theorem isLate_of_change (window : TimeWindow) {command : Command} {change : IdCode × ChangeValue}
    (h : commandToChangeValue command = some change) :
    isLate window (.ok command) = false ∧ ∀ time, timeAfter time (.ok command) = time := by
  cases command with
  | timestamp _ => cases h
  | _ => exact ⟨rfl, fun _ => rfl⟩

/-- A change that is not selected, or not covered, asks for no row. -/
theorem StreamReady.rowsAt_nil (h : StreamReady names window context stream) {command : Command}
    {id : IdCode} {value : ChangeValue} (hchange : commandToChangeValue command = some (id, value))
    (hsel : ¬ (stream.selection.contains id = true ∧
      stream.window.contains stream.currentTime = true)) :
    rowsAt names window stream.currentTime command = [] := by
  simp only [rowsAt, hchange]
  split
  · rename_i hcovers
    have hin : stream.window.contains stream.currentTime = true := by
      rw [h.window]
      exact (contains_iff _ _).mpr hcovers
    have hnone : names id = [] := by
      by_contra hne
      exact hsel ⟨(h.contains id).mpr hne, hin⟩
    rw [hnone]
    rfl
  · rfl

/-- **The stream advances to the next selected change**, an error or the end of
the work: by induction on what the parser still delivers. -/
theorem nextLoop_advanced (hlive : context.Live) (rows bytes : Nat) (rest : List ParseResult)
    (stream : SelectedChangeStream) (h : StreamReady names window context stream)
    (hrun : stream.finished = false) :
    Advanced names window context rows bytes
      (answers context.limits ⟨stream.commandCount, rows, bytes⟩
        (extractWork names window stream.currentTime rest)) (stream.nextLoop rest) := by
  induction rest generalizing stream with
  | nil =>
    have hready : StreamReady names window context { stream with parser := [] } :=
      ⟨h.context, h.complete, h.window, h.names, h.filled⟩
    rw [SelectedChangeStream.nextLoop, finishSuccess_ready hlive hready]
    exact ⟨⟨h.context, h.complete, h.window, h.names, h.filled⟩, rfl, rfl⟩
  | cons result rest ih =>
    have hready := h.taken rest
    have hcheck := hready.check hlive
    have hadmitted := checkResult_ready hlive hready result
    -- the command limit is the charge of the first piece of work
    have hcharge : charge context.limits ⟨stream.commandCount, rows, bytes⟩ .command =
        (OpenedTimeValueIter.checkLimit .commands context.limits.maxCommands
          (stream.taken rest).commandCount).map fun _ =>
            ⟨(stream.taken rest).commandCount, rows, bytes⟩ := rfl
    rcases checkLimit_eq .commands context.limits.maxCommands
      (stream.taken rest).commandCount with ⟨hok, -⟩ | ⟨l, -, -, herr⟩
    · rw [hok] at hadmitted hcharge
      cases result with
      | error error =>
        rw [nextLoop_refused hadmitted]
        exact answers_cons_ok hcharge
      | ok command =>
        rw [nextLoop_admitted hadmitted hcheck]
        cases hchange : commandToChangeValue command with
        | none =>
          have hrows : rowsAt names window stream.currentTime command = [] := by
            simp [rowsAt, hchange]
          have hmoved := hready.atTime (timeAfter stream.currentTime (.ok command))
          simp only [h.window, extractWork]
          rw [answers_cons_ok hcharge]
          by_cases hlate : isLate window (.ok command) = true
          · rw [if_pos hlate, if_pos hlate, finishSuccess_ready hlive hmoved]
            exact ⟨⟨h.context, h.complete, h.window, h.names, h.filled⟩, rfl, rfl⟩
          · rw [if_neg hlate, if_neg hlate, hrows]
            exact ih _ hmoved hrun
        | some change =>
          obtain ⟨id, value⟩ := change
          obtain ⟨hnot, hsame⟩ := isLate_of_change window hchange
          simp only [extractWork, hnot, hsame]
          rw [answers_cons_ok hcharge]
          by_cases hsel : stream.selection.contains id = true ∧
              stream.window.contains stream.currentTime = true
          · rw [if_pos hsel]
            have hcovers := (contains_iff _ _).mp hsel.2
            rw [h.window] at hcovers
            refine ⟨hready, hrun, (h.contains id).mp hsel.1, ?_⟩
            simp only [rowsAt, hchange, if_pos hcovers, List.map_map]
            rfl
          · rw [if_neg hsel, h.rowsAt_nil hchange hsel]
            exact ih _ hready hrun
    · rw [herr] at hadmitted hcharge
      rw [nextLoop_refused hadmitted]
      cases result <;> exact answers_cons_error hcharge

/-! ## The rows -/

/-- The rows among some answers. -/
def delivered (done : List (Except QueryError TimeValue)) : List TimeValue :=
  done.filterMap Except.toOption

/-- The logical bytes of some rows. -/
def bytesOf (rows : List TimeValue) : Nat :=
  (rows.map fun row => logicalEventBytes row.signal row.value).sum

/-- A waiting row as a piece of work. -/
def PendingEvent.work (event : PendingEvent) : Work := .row ⟨event.name, event.time, event.value⟩

namespace OpenedTimeValueIter

/-- The work ahead of an iterator: its waiting rows, and what its stream still
has to read. -/
def ahead (names : IdCode → List String) (window : TimeWindow) (iter : OpenedTimeValueIter) :
    List Work :=
  iter.pending.map PendingEvent.work ++
    if iter.stream.finished then []
    else extractWork names window iter.stream.currentTime iter.stream.parser

def usage (iter : OpenedTimeValueIter) : Usage :=
  ⟨iter.stream.commandCount, iter.rows, iter.logicalBytes⟩

end OpenedTimeValueIter

variable {iter : OpenedTimeValueIter} {done todo : List (Except QueryError TimeValue)}

/-- The counters count what was delivered. -/
structure Counted (done : List (Except QueryError TimeValue)) (iter : OpenedTimeValueIter) :
    Prop where
  rows : iter.rows = counter (delivered done).length
  bytes : iter.logicalBytes = counter (bytesOf (delivered done))

/-- An iterator that will answer what its budget leaves of the work ahead. -/
structure Running (names : IdCode → List String) (window : TimeWindow) (context : QueryContext)
    (done todo : List (Except QueryError TimeValue)) (iter : OpenedTimeValueIter) : Prop where
  counted : Counted done iter
  running : iter.terminated = false
  stream : StreamReady names window context iter.stream
  shared : iter.context = context
  todo : todo = answers context.limits iter.usage (iter.ahead names window)

/-- What was answered, what is to come, and the iterator between them. -/
def Extracting (names : IdCode → List String) (window : TimeWindow) (context : QueryContext)
    (done todo : List (Except QueryError TimeValue)) (iter : OpenedTimeValueIter) : Prop :=
  (iter.terminated = true ∧ todo = [] ∧ Counted done iter) ∨
    Running names window context done todo iter

theorem delivered_append (done done' : List (Except QueryError TimeValue)) :
    delivered (done ++ done') = delivered done ++ delivered done' :=
  List.filterMap_append

@[simp] theorem delivered_error (error : QueryError) : delivered [.error error] = [] := rfl

@[simp] theorem delivered_ok (row : TimeValue) : delivered [.ok row] = [row] := rfl

theorem Counted.error (h : Counted done iter) (error : QueryError) {iter' : OpenedTimeValueIter}
    (hrows : iter'.rows = iter.rows) (hbytes : iter'.logicalBytes = iter.logicalBytes) :
    Counted (done ++ [.error error]) iter' where
  rows := by
    rw [hrows, h.rows, delivered_append, delivered_error, List.append_nil]
  bytes := by
    rw [hbytes, h.bytes, delivered_append, delivered_error, List.append_nil]

theorem Counted.row (h : Counted done iter) (row : TimeValue) {iter' : OpenedTimeValueIter}
    (hrows : iter'.rows = saturatingAdd iter.rows 1)
    (hbytes : iter'.logicalBytes =
      saturatingAdd iter.logicalBytes (logicalEventBytes row.signal row.value)) :
    Counted (done ++ [.ok row]) iter' where
  rows := by
    rw [hrows, h.rows, delivered_append, counter_saturatingAdd, delivered_ok, List.length_append]
    rfl
  bytes := by
    rw [hbytes, h.bytes, delivered_append, counter_saturatingAdd, delivered_ok]
    simp [bytesOf]

/-- The checks of `emit_pending` are the charge of the row. -/
theorem chargeRow_eq (hlive : context.Live) (hcontext : iter.context = context)
    (event : PendingEvent) :
    (iter.chargeRow event).map (fun counts => (⟨iter.stream.commandCount, counts.1, counts.2⟩ :
      Usage)) = charge context.limits iter.usage event.work := by
  subst hcontext
  have hcheck := QueryContext.check_live hlive
  simp only [OpenedTimeValueIter.chargeRow, hcheck, charge, PendingEvent.work,
    OpenedTimeValueIter.usage, bind, Except.bind]
  cases OpenedTimeValueIter.checkLimit .rows iter.context.limits.maxRows
    (saturatingAdd iter.rows 1) with
  | error e => rfl
  | ok _ =>
    cases OpenedTimeValueIter.checkLimit .resultBytes iter.context.limits.maxResultBytes
      (saturatingAdd iter.logicalBytes (logicalEventBytes event.name event.value)) <;> rfl

/-- **One waiting row** is delivered, or refused by its limit. -/
theorem emitPending_extracting (hlive : context.Live)
    (h : Running names window context done todo iter) (hpending : iter.pending ≠ []) :
    iter.emitPending.1 = todo.head? ∧
      Extracting names window context (done ++ todo.take 1) (todo.drop 1) iter.emitPending.2 := by
  obtain ⟨event, pending, hevents⟩ := List.exists_cons_of_ne_nil hpending
  have hahead : iter.ahead names window =
      event.work :: ({ iter with pending := pending } : OpenedTimeValueIter).ahead names window := by
    simp [OpenedTimeValueIter.ahead, hevents]
  have htodo := h.todo
  rw [hahead] at htodo
  have hcharge := chargeRow_eq hlive h.shared event
  unfold OpenedTimeValueIter.emitPending
  rw [hevents]
  simp only
  cases hrow : iter.chargeRow event with
  | error error =>
    rw [hrow] at hcharge
    rw [answers_cons_error hcharge.symm] at htodo
    subst htodo
    exact ⟨rfl, .inl ⟨rfl, rfl, h.counted.error error rfl rfl⟩⟩
  | ok counts =>
    obtain ⟨rows, bytes⟩ := counts
    rw [hrow] at hcharge
    rw [answers_cons_ok hcharge.symm] at htodo
    have hcounts : rows = saturatingAdd iter.rows 1 ∧
        bytes = saturatingAdd iter.logicalBytes (logicalEventBytes event.name event.value) := by
      have hrow' := hrow
      simp only [OpenedTimeValueIter.chargeRow, bind, Except.bind] at hrow'
      split at hrow'
      · cases hrow'
      split at hrow'
      · cases hrow'
      split at hrow'
      · cases hrow'
      cases hrow'
      exact ⟨rfl, rfl⟩
    subst htodo
    refine ⟨rfl, .inr ⟨?_, h.running, h.stream, h.shared, rfl⟩⟩
    exact h.counted.row ⟨event.name, event.time, event.value⟩ hcounts.1 hcounts.2

/-- **Every call answers the next item** and keeps the relation. -/
theorem next_extracting (hlive : context.Live)
    (h : Extracting names window context done todo iter) :
    iter.next.1 = todo.head? ∧
      Extracting names window context (done ++ todo.take 1) (todo.drop 1) iter.next.2 := by
  unfold OpenedTimeValueIter.next
  rcases h with ⟨hterminated, rfl, hcounted⟩ | h
  · rw [if_pos hterminated]
    refine ⟨rfl, .inl ⟨hterminated, rfl, ?_⟩⟩
    simpa using hcounted
  rw [if_neg (by simp [h.running])]
  by_cases hpending : iter.pending = []
  · have hemit : iter.emitPending = (none, iter) := by
      simp [OpenedTimeValueIter.emitPending, hpending]
    rw [hemit]
    simp only
    have hcounted := h.counted
    have htodo := h.todo
    rw [OpenedTimeValueIter.ahead, hpending, List.map_nil, List.nil_append] at htodo
    by_cases hfinished : iter.stream.finished = true
    · rw [if_pos hfinished, answers_nil] at htodo
      subst htodo
      rw [SelectedChangeStream.next, if_pos hfinished]
      refine ⟨rfl, .inr ⟨?_, h.running, h.stream, h.shared, ?_⟩⟩
      · rw [List.take_nil, List.append_nil]
        exact ⟨hcounted.rows, hcounted.bytes⟩
      · simp [OpenedTimeValueIter.ahead, hpending, hfinished]
    · rw [if_neg hfinished] at htodo
      have hadvanced := nextLoop_advanced hlive iter.rows iter.logicalBytes iter.stream.parser
        iter.stream h.stream (by simpa using hfinished)
      rw [SelectedChangeStream.next, if_neg hfinished]
      rw [OpenedTimeValueIter.usage] at htodo
      rw [← htodo] at hadvanced
      cases hnext : iter.stream.nextLoop iter.stream.parser with
      | mk answer stream =>
        rw [hnext] at hadvanced
        cases answer with
        | none =>
          obtain ⟨hready, hdone, rfl⟩ := hadvanced
          refine ⟨rfl, .inr ⟨?_, h.running, hready, h.shared, ?_⟩⟩
          · rw [List.take_nil, List.append_nil]
            exact ⟨hcounted.rows, hcounted.bytes⟩
          · simp [OpenedTimeValueIter.ahead, hpending, hdone]
        | some answer =>
          cases answer with
          | error error =>
            rw [show todo = [.error error] from hadvanced]
            exact ⟨rfl, .inl ⟨rfl, rfl, hcounted.error error rfl rfl⟩⟩
          | ok change =>
            obtain ⟨hready, hrun, hne, htodo'⟩ := hadvanced
            have hbindings : stream.selection.bindings change.idCode ≠ [] := by
              intro hnil
              rw [← hready.names, hnil] at hne
              exact hne rfl
            refine emitPending_extracting hlive
              ⟨⟨hcounted.rows, hcounted.bytes⟩, h.running, hready, h.shared, ?_⟩ ?_
            · rw [htodo', ← hready.names]
              simp only [OpenedTimeValueIter.queueChange, OpenedTimeValueIter.ahead, hpending,
                hrun, OpenedTimeValueIter.usage, List.nil_append, List.map_map]
              rfl
            · simpa [OpenedTimeValueIter.queueChange, hpending] using hbindings
  · obtain ⟨hanswer, hrest⟩ := emitPending_extracting hlive h hpending
    obtain ⟨event, pending, hevents⟩ := List.exists_cons_of_ne_nil hpending
    have hsome : ∃ item, iter.emitPending.1 = some item := by
      unfold OpenedTimeValueIter.emitPending
      rw [hevents]
      simp only
      cases iter.chargeRow event <;> exact ⟨_, rfl⟩
    obtain ⟨item, hitem⟩ := hsome
    cases hemit : iter.emitPending with
    | mk answer iter' =>
      rw [hemit] at hanswer hrest hitem
      cases hitem
      exact ⟨hanswer, hrest⟩

/-! ## Starting an extraction -/

/-- The source did not change since it was opened: `commands` is what its body
parser delivers, and the completion check accepts it. -/
structure OpenedVcd.Unchanged (opened : OpenedVcd) (commands : List ParseResult) : Prop where
  body : opened.bodyParser = .ok commands
  complete : opened.validateComplete = .ok ()

theorem OpenedVcd.signal_eq (opened : OpenedVcd) (name : String) :
    opened.signal name = opened.catalog.find name :=
  opened.catalog.signal_keyByName name

/-- The loop of `resolve` succeeds without missing names exactly on names the
catalog has, and groups them by identifier in request order. -/
theorem resolveLoop_spec (opened : OpenedVcd) (hlive : context.Live)
    (targets : List (String × Nat)) (byId : Groups IdCode TargetBinding) (missing : List String)
    (hfilled : byId.Filled) :
    ∃ byId' missing', resolveLoop opened context byId missing targets = .ok (byId', missing') ∧
      byId'.Filled ∧
      missing' = missing ++
        (targets.map (·.1)).filter (fun name => (opened.catalog.find name).isNone) ∧
      ∀ id, (byId'.getD id).map (·.name) = (byId.getD id).map (·.name) ++
        opened.catalog.requested (targets.map (·.1)) id := by
  induction targets generalizing byId missing with
  | nil =>
    exact ⟨byId, missing, rfl, hfilled, by simp, by simp [SignalCatalog.requested]⟩
  | cons target targets ih =>
    obtain ⟨name, requestIndex⟩ := target
    have hcheck := QueryContext.check_live hlive
    simp only [resolveLoop, hcheck, bind, Except.bind, opened.signal_eq]
    cases hfind : opened.catalog.find name with
    | none =>
      obtain ⟨byId', missing', hok, hfilled', hmissing, hnames⟩ :=
        ih byId (missing ++ [name]) hfilled
      refine ⟨byId', missing', hok, hfilled', ?_, fun id => ?_⟩
      · rw [hmissing]
        simp [hfind]
      · rw [hnames]
        simp [SignalCatalog.requested, hfind]
    | some signal =>
      have hname := SignalCatalog.find_name hfind
      obtain ⟨byId', missing', hok, hfilled', hmissing, hnames⟩ :=
        ih (byId.push signal.idCode ⟨requestIndex, signal.fullName, signal.size⟩) missing
          (hfilled.push _ _)
      refine ⟨byId', missing', hok, hfilled', ?_, fun id => ?_⟩
      · rw [hmissing]
        simp [hfind]
      · rw [hnames, Groups.getD_push]
        by_cases hid : signal.idCode = id <;>
          simp [SignalCatalog.requested, hfind, hid, hname]

/-- A resolution fails for the names that are missing and for nothing else. -/
theorem resolve_eq (opened : OpenedVcd) {targets : List String} (hlive : context.Live)
    (hcount : context.checkSignalCount targets.length = .ok ()) :
    ∃ byId : Groups IdCode TargetBinding, byId.Filled ∧
      (∀ id, (byId.getD id).map (·.name) = opened.catalog.requested targets id) ∧
      TargetSelection.resolve opened targets context =
        if targets.filter (fun name => (opened.signal name).isNone) = [] then
          .ok ⟨byId, targets.length⟩
        else .error (.fromVcd (.missingSignals
          (", ".intercalate (targets.filter fun name => (opened.signal name).isNone)))) := by
  obtain ⟨byId, missing, hloop, hfilled, hmissing, hnames⟩ :=
    resolveLoop_spec opened hlive targets.zipIdx [] [] Groups.filled_nil
  simp only [List.zipIdx_map_fst, List.nil_append, ← opened.signal_eq] at hmissing hnames
  refine ⟨byId, hfilled, fun id => by simpa [Groups.getD] using hnames id, ?_⟩
  rw [← hmissing]
  simp only [TargetSelection.resolve, hcount, hloop, bind, Except.bind]
  by_cases hnone : missing = []
  · simp [hnone, pure, Except.pure]
  · simp [hnone, throw, throwThe, MonadExceptOf.throw]

/-- What a selection of a resolution holds. -/
structure Resolves (opened : OpenedVcd) (context : QueryContext) (targets : List String)
    (selection : TargetSelection) : Prop where
  counted : context.checkSignalCount targets.length = .ok ()
  found : ∀ name ∈ targets, (opened.signal name).isSome
  filled : selection.byId.Filled
  names : ∀ id, (selection.bindings id).map (·.name) = opened.catalog.requested targets id

theorem filter_missing_iff {opened : OpenedVcd} {targets : List String} :
    targets.filter (fun name => (opened.signal name).isNone) = [] ↔
      ∀ name ∈ targets, (opened.signal name).isSome := by
  simp [List.filter_eq_nil_iff, Option.isSome_iff_ne_none]

theorem resolve_ok {opened : OpenedVcd} {targets : List String} {selection : TargetSelection}
    (hlive : context.Live) (h : TargetSelection.resolve opened targets context = .ok selection) :
    Resolves opened context targets selection := by
  obtain ⟨⟨⟩, hcount, -⟩ := Fallible.bind_ok_iff.mp h
  obtain ⟨byId, hfilled, hnames, heq⟩ := resolve_eq opened hlive hcount
  rw [heq] at h
  split at h
  · rename_i hnone
    cases h
    exact ⟨hcount, filter_missing_iff.mp hnone, hfilled, hnames⟩
  · cases h

/-- **What an extraction that starts starts with.** -/
theorem extract_ok_iff {opened : OpenedVcd} {targets : List String} :
    opened.extract targets window context = .ok iter ↔
      context.Live ∧ ∃ selection commands,
        TargetSelection.resolve opened targets context = .ok selection ∧
        opened.bodyParser = .ok commands ∧
        iter = {
          stream := {
            parser := commands, validateComplete := opened.validateComplete, selection, window,
            context, currentTime := 0, commandCount := 0, finished := false }
          context, pending := [], rows := 0, logicalBytes := 0, terminated := false } := by
  simp only [OpenedVcd.extract, OpenedVcd.selectedChangeStream, Fallible.bind_ok_iff,
    Fallible.mapError_ok_iff, ← QueryContext.check_ok]
  constructor
  · rintro ⟨_, ⟨⟨⟩, hcheck, selection, hselection, ⟨⟩, -, commands, hbody, ⟨⟩⟩, ⟨⟩⟩
    exact ⟨hcheck, selection, commands, hselection, hbody, rfl⟩
  · rintro ⟨hcheck, selection, commands, hselection, hbody, rfl⟩
    exact ⟨_, ⟨⟨⟩, hcheck, selection, hselection, ⟨⟩, hcheck, commands, hbody, rfl⟩, rfl⟩

theorem extract_started {opened : OpenedVcd} {commands : List ParseResult} {targets : List String}
    (hlive : context.Live) (hsource : opened.Unchanged commands)
    (h : opened.extract targets window context = .ok iter) :
    Running (opened.catalog.requested targets) window context []
      (answers context.limits {} (extractWork (opened.catalog.requested targets) window 0
        commands)) iter := by
  obtain ⟨-, selection, commands', hselection, hbody, rfl⟩ := extract_ok_iff.mp h
  have hresolves := resolve_ok hlive hselection
  cases hsource.body.symm.trans hbody
  exact ⟨⟨rfl, rfl⟩, rfl, ⟨rfl, hsource.complete, rfl, hresolves.names, hresolves.filled⟩, rfl, rfl⟩

/-- **The iterator yields what its budget leaves of the work**, and its
counters count what it delivered after every call. -/
theorem extract_yields {opened : OpenedVcd} {commands : List ParseResult} {targets : List String}
    (hlive : context.Live) (hsource : opened.Unchanged commands)
    (h : opened.extract targets window context = .ok iter) :
    let items := answers context.limits {} (extractWork (opened.catalog.requested targets) window 0
      commands)
    Yields OpenedTimeValueIter.next iter items ∧
      ∀ n, Counted (items.take n) (after OpenedTimeValueIter.next n iter) := by
  have hstart := extract_started hlive hsource h
  have hstep : ∀ (done todo : List (Except QueryError TimeValue)) (iter : OpenedTimeValueIter),
      Extracting (opened.catalog.requested targets) window context done todo iter →
      iter.next.1 = todo.head? ∧ Extracting (opened.catalog.requested targets) window context
        (done ++ todo.take 1) (todo.drop 1) iter.next.2 :=
    fun _ _ _ h => next_extracting hlive h
  refine ⟨yields_of_simulation hstep (.inr hstart), fun n => ?_⟩
  rcases after_of_simulation hstep n _ _ _ (.inr hstart) with ⟨_, _, hcounted⟩ | hrunning
  · exact hcounted
  · exact hrunning.counted

/-- An extraction starts when all names exist and the signal limit allows. -/
theorem extract_starts {opened : OpenedVcd} {commands : List ParseResult} {targets : List String}
    (hlive : context.Live) (hcount : context.checkSignalCount targets.length = .ok ())
    (hsource : opened.Unchanged commands)
    (hfound : ∀ name ∈ targets, (opened.signal name).isSome) (window : TimeWindow) :
    ∃ iter, opened.extract targets window context = .ok iter := by
  obtain ⟨byId, -, -, heq⟩ := resolve_eq opened hlive hcount
  rw [if_pos (filter_missing_iff.mpr hfound)] at heq
  exact ⟨_, extract_ok_iff.mpr ⟨hlive, _, _, heq, hsource.body, rfl⟩⟩

end VcdTools.Query
