import VcdTools.Opened.VisitChanges
import VcdTools.Query.CommandCount

/-! # The work of a scan

The commands that a scan of a VCD reads, or the callbacks that one of an FST
gets, as the backends count them, and the rows that it comes to. -/
namespace VcdTools.Opened
open VcdTools.Lib VcdTools.Lib.Iter VcdTools.Query

variable {η : Type}

/-! ## The callbacks of a read -/

/-- The callbacks that the reader delivers to a scan. -/
def OpenedFst.callbacksRead (opened : OpenedFst η) (env : FstEnv η) (targets : List String)
    (window : TimeWindow) : List FstCallback :=
  if inverted window then []
  else
    match opened.select targets, env.openings.read with
    | .ok selection, .ok file => (env.reader.readSignals file (selection.filter
        (window.start.getD 0) (window.end_.getD opened.header.endTime))).1
    | _, _ => []

/-- The rows that callbacks ask for: one for each requested name of their
handle. -/
def OpenedFst.rowsAsked (opened : OpenedFst η) (targets : List String) (window : TimeWindow)
    (callbacks : List FstCallback) : Nat :=
  (callbacks.map fun (time, handle, _) =>
    if time < window.start.getD 0 ∨ time > window.end_.getD opened.header.endTime then 0
    else (opened.requested targets handle).length).sum

/-- The visitor that only goes on. -/
abbrev goOn (visited : Unit) (_ : TimeValue) : Except QueryError (Bool × Unit) :=
  .ok (true, visited)

/-- `work` after a read that no error ends. -/
def OpenedFst.workConsumed [DecidableEq η] (opened : OpenedFst η) (env : FstEnv η)
    (targets : List String) (window : TimeWindow) (context : QueryContext) : Option Nat :=
  match opened.prepare env.hash env.openings targets window context with
  | .error _ => none
  | .ok none => some 0
  | .ok (some (selection, file)) =>
    let start := window.start.getD 0
    let end_ := window.end_.getD opened.header.endTime
    let callbacks := (env.reader.readSignals file (selection.filter start end_)).1
    match callbacks.foldlM (FstRead.callback context goOn selection start end_) ⟨0, 0, 0, ()⟩ with
    | .ok read => some read.work
    | .error _ => none

variable {context : QueryContext} {selection : FstSelection} {start end_ : Nat}

/-! ## The counter of a read -/

theorem row_work {row : TimeValue} {read read' : FstRead Unit}
    (h : read.row context goOn row = .ok read') : read'.work = read.work := by
  obtain ⟨⟨⟩, -, h⟩ := Fallible.bind_ok_iff.mp h
  obtain ⟨⟨⟩, -, h⟩ := Fallible.bind_ok_iff.mp h
  cases h
  rfl

theorem foldlM_row_work (rows : List TimeValue) {read read' : FstRead Unit}
    (h : rows.foldlM (FstRead.row context goOn) read = .ok read') : read'.work = read.work := by
  induction rows generalizing read with
  | nil =>
    cases h
    rfl
  | cons row rows ih =>
    rw [List.foldlM_cons] at h
    obtain ⟨read₁, hrow, h⟩ := Fallible.bind_ok_iff.mp h
    exact (ih h).trans (row_work hrow)

/-- A callback is one piece of work. -/
theorem callback_work {callback : FstCallback} {read read' : FstRead Unit}
    (h : read.callback context goOn selection start end_ callback = .ok read') :
    read'.work = saturatingAdd read.work 1 := by
  obtain ⟨time, handle, value⟩ := callback
  obtain ⟨⟨⟩, -, h⟩ := Fallible.bind_ok_iff.mp h
  obtain ⟨⟨⟩, -, h⟩ := Fallible.bind_ok_iff.mp h
  split at h
  · cases h
    rfl
  · split at h
    · cases h
      rfl
    · rename_i names hnames
      obtain ⟨value, -, h⟩ := Fallible.bind_ok_iff.mp h
      have hrows : (names.map fun name => (⟨name, time, value⟩ : TimeValue)).foldlM
          (FstRead.row context goOn) { read with work := saturatingAdd read.work 1 } = .ok read' := by
        rw [List.foldlM_map]
        exact h
      exact foldlM_row_work _ hrows

theorem foldlM_callback_work (callbacks : List FstCallback) {read read' : FstRead Unit} {k : Nat}
    (hk : read.work = counter k)
    (h : callbacks.foldlM (FstRead.callback context goOn selection start end_) read = .ok read') :
    read'.work = counter (k + callbacks.length) := by
  induction callbacks generalizing read k with
  | nil =>
    cases h
    exact hk
  | cons callback callbacks ih =>
    rw [List.foldlM_cons] at h
    obtain ⟨read₁, hcallback, h⟩ := Fallible.bind_ok_iff.mp h
    have hwork : read₁.work = counter (k + 1) := by
      rw [callback_work hcallback, hk, counter_saturatingAdd]
    rw [ih hwork h, List.length_cons, Nat.add_assoc, Nat.add_comm 1]

/-! ## The rows of a read -/

theorem no_failure {limits : QueryLimits} {used used' : Usage} {ws : List FstWork}
    (h : ws.foldlM (fstCharge limits) used = .ok used') (error : QueryError) :
    .failure error ∉ ws := by
  induction ws generalizing used with
  | nil => exact List.not_mem_nil
  | cons w ws ih =>
    rw [List.foldlM_cons] at h
    obtain ⟨used₁, hcharge, h⟩ := Fallible.bind_ok_iff.mp h
    intro hmem
    obtain heq | hmem := List.mem_cons.mp hmem
    · subst heq
      cases hcharge
    · exact ih h hmem

/-- Work that is answered without an error is answered with all its rows, and
none of it is a failure. -/
theorem rows_of_fstAnswers {limits : QueryLimits} {used : Usage} {ws : List FstWork}
    {rows : List TimeValue} (h : fstAnswers limits used ws = rows.map .ok) :
    rows = ws.filterMap FstWork.row? ∧ ∀ error, .failure error ∉ ws := by
  obtain ⟨hrows, hstop⟩ := rows_of_items h.symm
  have hall := Metered.afford_none_iff.mp hstop
  obtain ⟨used', haccepted⟩ := Metered.afford_accepted (fstCharge limits) used ws
  rw [hall] at hrows haccepted
  exact ⟨hrows, no_failure haccepted⟩

/-- The rows of a callback whose value is converted. -/
theorem length_callbackWork {opened : OpenedFst η} {targets : List String}
    (hselection : selection.Holds opened targets) {time handle : Nat} {value : FstSignalValue}
    (h : ∀ error, .failure error ∉ callbackWork selection start end_ (time, handle, value)) :
    ((callbackWork selection start end_ (time, handle, value)).filterMap FstWork.row?).length =
      if time < start ∨ time > end_ then 0 else (opened.requested targets handle).length := by
  have hrequested := hselection.names handle
  rw [Groups.getD] at hrequested
  rw [callbackWork] at h ⊢
  by_cases hout : time < start ∨ time > end_
  · rw [if_pos hout, if_pos hout]
    rfl
  · rw [if_neg hout] at h ⊢
    rw [if_neg hout]
    cases hnames : selection.namesByHandle.get handle with
    | none =>
      rw [hnames] at hrequested
      rw [← hrequested]
      rfl
    | some names =>
      rw [hnames] at h hrequested
      rw [← hrequested]
      cases hvalue : fstValue value ((selection.typeByHandle.lookup handle).getD .digital) with
      | error error =>
        rw [hvalue] at h
        exact absurd (List.mem_cons_of_mem _ List.mem_cons_self) (h (fstToQuery error))
      | ok value =>
        have hrows : (names.map fun name => FstWork.row ⟨name, time, value⟩).filterMap FstWork.row? =
            names.map fun name => (⟨name, time, value⟩ : TimeValue) := by
          rw [List.filterMap_map]
          exact congrFun List.filterMap_eq_map names
        simp only [List.filterMap_cons, FstWork.row?, hrows, List.length_map, Option.getD_some]

theorem length_callbacksWork {opened : OpenedFst η} {targets : List String}
    (hselection : selection.Holds opened targets) (callbacks : List FstCallback)
    (h : ∀ error, .failure error ∉ callbacks.flatMap (callbackWork selection start end_)) :
    ((callbacks.flatMap (callbackWork selection start end_)).filterMap FstWork.row?).length =
      (callbacks.map fun (time, handle, _) => if time < start ∨ time > end_ then 0
        else (opened.requested targets handle).length).sum := by
  induction callbacks with
  | nil => rfl
  | cons callback callbacks ih =>
    obtain ⟨time, handle, value⟩ := callback
    rw [List.flatMap_cons] at h ⊢
    rw [List.filterMap_append, List.length_append, List.map_cons, List.sum_cons,
      length_callbackWork hselection fun error hmem => h error (List.mem_append_left _ hmem),
      ih fun error hmem => h error (List.mem_append_right _ hmem)]

/-! ## An FST -/

variable [DecidableEq η] {env : FstEnv η} {targets : List String} {window : TimeWindow}
  {rows : List TimeValue}

omit [DecidableEq η] in
/-- The read of a file that no error ends. -/
theorem readItems_work {opened : OpenedFst η} (hlive : context.Live)
    (hselection : selection.Holds opened targets) {file : FstFile} {ending : List FstWork}
    (hending : ∀ w ∈ ending, w.row? = none)
    (h : readItems env.reader selection start end_ file context.limits ending = rows.map .ok) :
    (∃ read, (env.reader.readSignals file (selection.filter start end_)).1.foldlM
        (FstRead.callback context goOn selection start end_) ⟨0, 0, 0, ()⟩ = .ok read) ∧
      rows.length = ((env.reader.readSignals file (selection.filter start end_)).1.map
        fun (time, handle, _) => if time < start ∨ time > end_ then 0
          else (opened.requested targets handle).length).sum := by
  unfold readItems at h
  cases hopen : env.reader.open_ file with
  | panicked =>
    rw [hopen] at h
    exact absurd h.symm (rows_ne_error rows [] _)
  | failed message =>
    rw [hopen] at h
    exact absurd h.symm (rows_ne_error rows [] _)
  | done =>
    rw [hopen] at h
    change fstAnswers context.limits {} ((env.reader.readSignals file
      (selection.filter start end_)).1.flatMap (callbackWork selection start end_) ++
        (endingWork (env.reader.readSignals file (selection.filter start end_)).2 ++ ending)) =
          rows.map .ok at h
    generalize env.reader.readSignals file (selection.filter start end_) = answered at h ⊢
    obtain ⟨callbacks, caught⟩ := answered
    obtain ⟨hrows, hfails⟩ := rows_of_fstAnswers h
    have htail : (endingWork caught ++ ending).filterMap FstWork.row? = [] := by
      rw [List.filterMap_eq_nil_iff]
      intro w hw
      obtain hw | hw := List.mem_append.mp hw
      · exact endingWork_row? caught w hw
      · exact hending w hw
    constructor
    · have hvisit : visit goOn () (fstAnswers context.limits {}
          (callbacks.flatMap (callbackWork selection start end_) ++ (endingWork caught ++ ending))) =
            _ :=
        callbacks_visit hlive callbacks ⟨0, 0, 0, ()⟩ (endingWork caught ++ ending)
      have htotal : visit goOn () (rows.map (Except.ok (ε := QueryError))) = .ok (true, ()) := by
        rw [visit_total (fun _ _ => ()), allOk_map_ok]
        rfl
      rw [h, htotal] at hvisit
      cases hfold : callbacks.foldlM (FstRead.callback context goOn selection start end_)
          ⟨0, 0, 0, ()⟩ with
      | ok read => exact ⟨read, rfl⟩
      | error e =>
        rw [hfold] at hvisit
        cases e <;> cases hvisit
    · rw [hrows, List.filterMap_append, htail, List.append_nil]
      exact length_callbacksWork hselection callbacks
        fun error hmem => hfails error (List.mem_append_left _ hmem)

/-- **A read that no error ends** has counted its callbacks, and its rows are
all that these ask for. -/
theorem fst_workConsumed_eq {opened : OpenedFst η}
    (h : opened.items env.hash env.reader env.openings targets window context = rows.map .ok) :
    opened.workConsumed env targets window context =
        some (counter (opened.callbacksRead env targets window).length) ∧
      rows.length = opened.rowsAsked targets window (opened.callbacksRead env targets window) := by
  unfold OpenedFst.items at h
  cases hprepare : opened.prepare env.hash env.openings targets window context with
  | error error =>
    rw [hprepare] at h
    exact absurd h.symm (rows_ne_error rows [] _)
  | ok prepared =>
    rw [hprepare] at h
    obtain ⟨hwindow, rfl⟩ | ⟨selection, file, hwindow, hselect, hfile, rfl⟩ :=
      prepare_ok_cases hprepare
    · have hnone : opened.callbacksRead env targets window = [] := by
        rw [OpenedFst.callbacksRead, if_pos hwindow]
      rw [List.map_eq_nil_iff.mp h.symm, hnone]
      simp only [OpenedFst.workConsumed, hprepare, OpenedFst.rowsAsked]
      exact ⟨rfl, rfl⟩
    · obtain ⟨⟨read, hread⟩, hrows⟩ := readItems_work (prepare_live hprepare)
        (select_ok_holds hselect) (checkWork_row? _) h
      have hwork := foldlM_callback_work (k := 0) _ rfl hread
      rw [Nat.zero_add] at hwork
      simp only [OpenedFst.workConsumed, OpenedFst.callbacksRead, OpenedFst.rowsAsked, hprepare,
        hwindow, hselect, hfile, hread, hwork]
      exact ⟨rfl, hrows⟩

/-! ## Both formats -/

/-- The commands or callbacks that a scan counts, when no error ends it. -/
def OpenedWaveform.workConsumed (waveform : OpenedWaveform η) (env : FstEnv η)
    (targets : List String) (window : TimeWindow) (context : QueryContext) : Option Nat :=
  match waveform with
  | .vcd opened => opened.commandsConsumed targets window context
  | .fst opened => opened.workConsumed env targets window context

/-- The commands of the body, or the callbacks of the reader, that a scan gets. -/
def OpenedWaveform.workRead (waveform : OpenedWaveform η) (env : FstEnv η)
    (targets : List String) (window : TimeWindow) : Nat :=
  match waveform with
  | .vcd opened =>
    match opened.bodyParser with
    | .ok commands => commandsRead window commands
    | .error _ => 0
  | .fst opened => (opened.callbacksRead env targets window).length

/-- The rows that they ask for. -/
def OpenedWaveform.rowsAsked (waveform : OpenedWaveform η) (env : FstEnv η)
    (targets : List String) (window : TimeWindow) : Nat :=
  match waveform with
  | .vcd opened =>
    match opened.bodyParser with
    | .ok commands => opened.rowsAsked targets window commands
    | .error _ => 0
  | .fst opened => opened.rowsAsked targets window (opened.callbacksRead env targets window)

variable {waveform : OpenedWaveform η}

/-- **A scan that no error ends** has counted the work it read, and its rows are
all that this asks for. -/
theorem OpenedWaveform.Delivers.workConsumed
    (h : waveform.Delivers env targets window context (rows.map .ok)) :
    waveform.workConsumed env targets window context =
        some (counter (waveform.workRead env targets window)) ∧
      rows.length = waveform.rowsAsked env targets window := by
  cases waveform with
  | vcd opened =>
    obtain ⟨commands, hsource, hconsumed, hrows⟩ := commandsConsumed_eq
      (show opened.Delivers targets window context (rows.map .ok) from h)
    simp only [OpenedWaveform.workConsumed, OpenedWaveform.workRead, OpenedWaveform.rowsAsked,
      hsource.body, hconsumed, hrows, and_self]
  | fst opened =>
    have hitems : (OpenedWaveform.fst opened).Delivers env targets window context _ :=
      delivers_items opened env.hash env.reader env.openings targets window context
    have hrows := h.extract
    rw [hitems.extract, allOk_map_ok] at hrows
    exact fst_workConsumed_eq (allOk_eq_ok.mp hrows)

end VcdTools.Opened
