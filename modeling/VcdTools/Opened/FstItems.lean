import VcdTools.Lib.Fallible
import VcdTools.Opened.FstExtract
import VcdTools.Query.ExtractItems

/-! # The items of an FST extraction

A selected read hands rows to its visitor and ends, or fails. The rows and the
failure do not depend on the visitor: they are what the limits leave of the work
of the callbacks. -/
namespace VcdTools.Opened
open VcdTools.Lib VcdTools.Query

/-- A piece of a selected read: a callback is counted, a row is handed out, or
the read fails. -/
inductive FstWork
  | callback
  | row (event : TimeValue)
  | failure (error : QueryError)

def FstWork.row? : FstWork → Option TimeValue
  | .row event => some event
  | _ => none

variable {context : QueryContext} {selection : FstSelection} {start end_ : Nat}

/-- The work of a callback. -/
def callbackWork (selection : FstSelection) (start end_ : Nat) : FstCallback → List FstWork
  | (time, handle, value) =>
    .callback :: if time < start ∨ time > end_ then [] else
      match selection.namesByHandle.get handle with
      | none => []
      | some names =>
        match fstValue value ((selection.typeByHandle.lookup handle).getD .digital) with
        | .error error => [.failure (fstToQuery error)]
        | .ok value => names.map fun name => .row ⟨name, time, value⟩

/-- How a read ends when its callbacks went well. -/
def endingWork : Caught → List FstWork
  | .panicked => [.failure (.fst "FST parser panicked while reading signal data")]
  | .failed message => [.failure (.fst (bounded message))]
  | .done => []

/-- The charge of a piece of work on the counters of a read. -/
def fstCharge (limits : QueryLimits) (used : Usage) : FstWork → Except QueryError Usage
  | .callback => charge limits used .command
  | .row event => charge limits used (.row event)
  | .failure error => .error error

/-- What a read with so much used hands to its visitor when this work is
ahead. -/
def fstAnswers (limits : QueryLimits) (used : Usage) (ws : List FstWork) :
    List (Except QueryError TimeValue) :=
  ((Metered.afford (fstCharge limits) used ws).1.filterMap FstWork.row?).map .ok ++
    ((Metered.afford (fstCharge limits) used ws).2.map Except.error).toList

variable {limits : QueryLimits} {used used' : Usage} {w : FstWork} {ws : List FstWork}

@[simp] theorem fstAnswers_nil : fstAnswers limits used [] = [] := rfl

theorem fstAnswers_cons_ok (h : fstCharge limits used w = .ok used') :
    fstAnswers limits used (w :: ws) =
      (w.row?.map Except.ok).toList ++ fstAnswers limits used' ws := by
  rw [fstAnswers, Metered.afford_cons_ok h, fstAnswers, List.filterMap_cons]
  cases w.row? <;> rfl

theorem fstAnswers_cons_error {e : QueryError} (h : fstCharge limits used w = .error e) :
    fstAnswers limits used (w :: ws) = [.error e] := by
  rw [fstAnswers, Metered.afford_cons_error h]
  rfl

/-- Work is answered by rows and then what comes after it, or by rows and an
error that keeps the rest out. -/
theorem fstAnswers_append (limits : QueryLimits) (ws : List FstWork) (used : Usage) :
    (∃ (used' : Usage) (rows : List TimeValue), ∀ ws',
        fstAnswers limits used (ws ++ ws') = rows.map .ok ++ fstAnswers limits used' ws') ∨
      ∃ (rows : List TimeValue) (error : QueryError), ∀ ws',
        fstAnswers limits used (ws ++ ws') = rows.map .ok ++ [.error error] := by
  induction ws generalizing used with
  | nil => exact .inl ⟨used, [], fun _ => rfl⟩
  | cons w ws ih =>
    cases hcharge : fstCharge limits used w with
    | error e =>
      exact .inr ⟨[], e, fun ws' => fstAnswers_cons_error hcharge⟩
    | ok used₁ =>
      have hhead : (w.row?.map (Except.ok : TimeValue → Except QueryError TimeValue)).toList =
          w.row?.toList.map .ok := by
        cases w.row? <;> rfl
      have hcons : ∀ ws', fstAnswers limits used (w :: ws ++ ws') =
          w.row?.toList.map .ok ++ fstAnswers limits used₁ (ws ++ ws') := by
        intro ws'
        rw [List.cons_append, fstAnswers_cons_ok hcharge, hhead]
      rcases ih used₁ with ⟨used₂, rows, hall⟩ | ⟨rows, e, hall⟩
      · refine .inl ⟨used₂, w.row?.toList ++ rows, fun ws' => ?_⟩
        rw [hcons, hall, List.map_append, List.append_assoc]
      · refine .inr ⟨w.row?.toList ++ rows, e, fun ws' => ?_⟩
        rw [hcons, hall, List.map_append, List.append_assoc]

/-! ## A read against its work -/

variable {σ : Type} {visitor : σ → TimeValue → Except QueryError (Bool × σ)}

/-- The counters of a read. -/
def FstRead.usage (read : FstRead σ) : Usage := ⟨read.work, read.rowCount, read.bytes⟩

/-- What comes of a read that has got so far, with this work ahead. -/
def FstRead.visitRest (limits : QueryLimits)
    (visitor : σ → TimeValue → Except QueryError (Bool × σ)) (ws : List FstWork) :
    Except (FstCallbackError σ) (FstRead σ) → Except QueryError (Bool × σ)
  | .error (.query error) => .error error
  | .error (.stop visited) => .ok (false, visited)
  | .ok read => visit visitor read.visited (fstAnswers limits read.usage ws)

/-- **One row** is refused, or handed to the visitor. -/
theorem row_visit (event : TimeValue) (read : FstRead σ) (ws : List FstWork) :
    visit visitor read.visited (fstAnswers context.limits read.usage (.row event :: ws)) =
      FstRead.visitRest context.limits visitor ws (read.row context visitor event) := by
  simp only [FstRead.row]
  cases hrows : OpenedTimeValueIter.checkLimit .rows context.limits.maxRows
    (saturatingAdd read.rowCount 1) with
  | error e =>
    have hcharge : fstCharge context.limits read.usage (.row event) = .error e := by
      simp only [fstCharge, charge, FstRead.usage, hrows, bind, Except.bind]
    rw [fstAnswers_cons_error hcharge]
    rfl
  | ok _ =>
    cases hbytes : OpenedTimeValueIter.checkLimit .resultBytes context.limits.maxResultBytes
      (saturatingAdd read.bytes (logicalEventBytes event.signal event.value)) with
    | error e =>
      have hcharge : fstCharge context.limits read.usage (.row event) = .error e := by
        simp only [fstCharge, charge, FstRead.usage, hrows, hbytes, bind, Except.bind]
      rw [fstAnswers_cons_error hcharge]
      rfl
    | ok _ =>
      have hcharge : fstCharge context.limits read.usage (.row event) =
          .ok ⟨read.work, saturatingAdd read.rowCount 1,
            saturatingAdd read.bytes (logicalEventBytes event.signal event.value)⟩ := by
        simp only [fstCharge, charge, FstRead.usage, hrows, hbytes, bind, Except.bind]
        rfl
      rw [fstAnswers_cons_ok hcharge]
      simp only [FstWork.row?, Option.map_some, Option.toList_some, List.singleton_append, bind,
        Except.bind, Except.mapError]
      cases hvisitor : visitor read.visited event with
      | error e =>
        rw [visit_fail hvisitor]
        rfl
      | ok step =>
        obtain ⟨_ | _, visited⟩ := step
        · rw [visit_leave hvisitor]
          rfl
        · rw [visit_more hvisitor]
          rfl

theorem rows_visit (time : Nat) (value : ChangeValue) (names : List String) (read : FstRead σ)
    (ws : List FstWork) :
    visit visitor read.visited (fstAnswers context.limits read.usage
        ((names.map fun name => .row ⟨name, time, value⟩) ++ ws)) =
      FstRead.visitRest context.limits visitor ws (names.foldlM
        (fun (read : FstRead σ) name => read.row context visitor ⟨name, time, value⟩) read) := by
  induction names generalizing read with
  | nil => rfl
  | cons name names ih =>
    rw [List.map_cons, List.cons_append, row_visit, List.foldlM_cons]
    cases read.row context visitor ⟨name, time, value⟩ with
    | error e => cases e <;> rfl
    | ok read' => exact ih read'

/-- **A callback** hands out what its work leaves. -/
theorem callback_visit (hlive : context.Live) (callback : FstCallback) (read : FstRead σ)
    (ws : List FstWork) :
    visit visitor read.visited (fstAnswers context.limits read.usage
        (callbackWork selection start end_ callback ++ ws)) =
      FstRead.visitRest context.limits visitor ws
        (read.callback context visitor selection start end_ callback) := by
  obtain ⟨time, handle, value⟩ := callback
  have hcheck := QueryContext.check_live hlive
  simp only [FstRead.callback, callbackWork, hcheck, List.cons_append]
  cases hlimit : OpenedTimeValueIter.checkLimit .commands context.limits.maxCommands
    (saturatingAdd read.work 1) with
  | error e =>
    have hcharge : fstCharge context.limits read.usage .callback = .error e := by
      simp only [fstCharge, charge, FstRead.usage, hlimit, bind, Except.bind]
    rw [fstAnswers_cons_error hcharge]
    rfl
  | ok _ =>
    have hcharge : fstCharge context.limits read.usage .callback =
        .ok ({ read with work := saturatingAdd read.work 1 } : FstRead σ).usage := by
      simp only [fstCharge, charge, FstRead.usage, hlimit, bind, Except.bind]
      rfl
    rw [fstAnswers_cons_ok hcharge]
    simp only [FstWork.row?, Option.map_none, Option.toList_none, List.nil_append, bind,
      Except.bind, Except.mapError]
    by_cases htime : time < start ∨ time > end_
    · rw [if_pos htime, if_pos htime]
      rfl
    · rw [if_neg htime, if_neg htime]
      cases hnames : selection.namesByHandle.get handle with
      | none => rfl
      | some names =>
        simp only
        cases fstValue value ((selection.typeByHandle.lookup handle).getD .digital) with
        | error error => rfl
        | ok value =>
          exact rows_visit time value names { read with work := saturatingAdd read.work 1 } ws

theorem callbacks_visit (hlive : context.Live) (callbacks : List FstCallback) (read : FstRead σ)
    (ws : List FstWork) :
    visit visitor read.visited (fstAnswers context.limits read.usage
        (callbacks.flatMap (callbackWork selection start end_) ++ ws)) =
      FstRead.visitRest context.limits visitor ws
        (callbacks.foldlM (FstRead.callback context visitor selection start end_) read) := by
  induction callbacks generalizing read with
  | nil => rfl
  | cons callback callbacks ih =>
    rw [List.flatMap_cons, List.append_assoc, callback_visit hlive, List.foldlM_cons]
    cases read.callback context visitor selection start end_ callback with
    | error e => cases e <;> rfl
    | ok read' => exact ih read'

/-! ## The whole query -/

variable {η : Type} [DecidableEq η]

/-- The checks after a read. -/
def OpenedFst.recheck (opened : OpenedFst η) (hash : List UInt8 → η) (openings : Openings)
    (context : QueryContext) : Except QueryError Unit := do
  context.check
  (opened.validateSource hash openings.revalidated).mapError fstToQuery

/-- **An FST extraction delivers these items**: it hands them one by one to
whatever visits it, and checks the source once more when the visitor leaves. -/
def OpenedFst.Delivers (opened : OpenedFst η) (hash : List UInt8 → η) (reader : FstReader)
    (openings : Openings) (targets : List String) (window : TimeWindow) (context : QueryContext)
    (items : List (Except QueryError TimeValue)) : Prop :=
  ∀ (σ : Type) (visitor : σ → TimeValue → Except QueryError (Bool × σ)) (visited : σ),
    opened.visitChangesUntil context visitor hash reader openings targets window visited =
      match visit visitor visited items with
      | .error error => .error error
      | .ok (true, visited) => .ok visited
      | .ok (false, visited) => (opened.recheck hash openings context).map fun _ => visited

/-- The items of a read of a file, up to the last check of the source. -/
def readItems (reader : FstReader) (selection : FstSelection) (start end_ : Nat) (file : FstFile)
    (limits : QueryLimits) (ending : List FstWork) : List (Except QueryError TimeValue) :=
  match reader.open_ file with
  | .panicked => [.error (.fst "FST parser panicked while reopening source")]
  | .failed message => [.error (.fst (bounded message))]
  | .done =>
    let (callbacks, caught) := reader.readSignals file ⟨start, some end_, some selection.handles⟩
    fstAnswers limits {} (callbacks.flatMap (callbackWork selection start end_) ++
      (endingWork caught ++ ending))

/-- A failing check as work. -/
def checkWork : Except QueryError Unit → List FstWork
  | .ok () => []
  | .error error => [.failure error]

theorem visitRest_ok (limits : QueryLimits)
    (visitor : σ → TimeValue → Except QueryError (Bool × σ)) (read : FstRead σ)
    (check : Except QueryError Unit) :
    FstRead.visitRest limits visitor (checkWork check) (.ok read) =
      check.map fun _ => (true, read.visited) := by
  cases check <;> rfl

/-- **The read of a file** and the check after it. -/
theorem readFile_visit (hlive : context.Live) (reader : FstReader) (file : FstFile)
    (visited : σ) (check : Except QueryError Unit) :
    (readFile context visitor reader selection start end_ file visited).bind
        (fun visited => check.map fun _ => visited) =
      match visit visitor visited (readItems reader selection start end_ file context.limits
        (checkWork check)) with
      | .error error => .error error
      | .ok (true, visited) => .ok visited
      | .ok (false, visited) => check.map fun _ => visited := by
  unfold readFile readItems
  cases reader.open_ file with
  | panicked => rfl
  | failed message => rfl
  | done =>
    generalize reader.readSignals file ⟨start, some end_, some selection.handles⟩ = answered
    obtain ⟨callbacks, caught⟩ := answered
    have hread : visit visitor visited (fstAnswers context.limits {}
        (callbacks.flatMap (callbackWork selection start end_) ++
          (endingWork caught ++ checkWork check))) = _ :=
      callbacks_visit hlive callbacks ⟨0, 0, 0, visited⟩ (endingWork caught ++ checkWork check)
    rw [hread]
    change (finishRead (callbacks.foldlM (FstRead.callback context visitor selection start end_)
      ⟨0, 0, 0, visited⟩) caught).bind _ = _
    cases callbacks.foldlM (FstRead.callback context visitor selection start end_)
      ⟨0, 0, 0, visited⟩ with
    | error e =>
      cases e with
      | query error => rfl
      | stop visited => rfl
    | ok read =>
      cases caught with
      | panicked => rfl
      | failed message => rfl
      | done =>
        rw [endingWork, List.nil_append, visitRest_ok]
        cases check <;> rfl

/-- The steps before the read: `none` for an inverted window. -/
def OpenedFst.prepare (opened : OpenedFst η) (hash : List UInt8 → η) (openings : Openings)
    (targets : List String) (window : TimeWindow) (context : QueryContext) :
    Except QueryError (Option (FstSelection × FstFile)) := do
  context.checkSignalCount targets.length
  if inverted window then return none
  let selection ← opened.select targets
  context.check
  (opened.validateSource hash openings.validated).mapError fstToQuery
  let file ← openings.read.mapError .sourceUnavailable
  return some (selection, file)

theorem visitChangesUntil_eq (opened : OpenedFst η) (hash : List UInt8 → η) (reader : FstReader)
    (openings : Openings) (targets : List String) (window : TimeWindow) (visited : σ) :
    opened.visitChangesUntil context visitor hash reader openings targets window visited =
      (opened.prepare hash openings targets window context).bind fun prepared =>
        match prepared with
        | none => .ok visited
        | some (selection, file) =>
          (readFile context visitor reader selection (window.start.getD 0)
            (window.end_.getD opened.header.endTime) file visited).bind fun visited =>
              (opened.recheck hash openings context).map fun _ => visited := by
  have hmap : ∀ {α : Type} (check : Except QueryError Unit) (a : α),
      (check.map fun _ => a) = check.bind fun _ => .ok a := by
    intro α check a
    cases check <;> rfl
  simp only [OpenedFst.visitChangesUntil, OpenedFst.prepare, OpenedFst.recheck, hmap]
  cases context.checkSignalCount targets.length with
  | error error => rfl
  | ok _ =>
    cases inverted window with
    | true => rfl
    | false =>
      simp only [bind, Except.bind, pure, Except.pure, Bool.false_eq_true, if_false]
      cases opened.select targets with
      | error error => rfl
      | ok selection =>
        cases context.check with
        | error error => rfl
        | ok _ =>
          cases opened.validateSource hash openings.validated with
          | error error => rfl
          | ok _ =>
            cases openings.read with
            | error error => rfl
            | ok file => rfl

/-- A query that gets to its read is neither cancelled nor expired. -/
theorem prepare_live {opened : OpenedFst η} {hash : List UInt8 → η} {openings : Openings}
    {targets : List String} {window : TimeWindow} {prepared : Option (FstSelection × FstFile)}
    (h : opened.prepare hash openings targets window context = .ok prepared) : context.Live := by
  rw [← QueryContext.check_ok]
  cases hcheck : context.check with
  | ok _ => rfl
  | error error =>
    rw [OpenedFst.prepare, QueryContext.checkSignalCount, hcheck] at h
    cases h

/-- What a query has found when it gets to its read. -/
theorem prepare_ok_cases {opened : OpenedFst η} {hash : List UInt8 → η} {openings : Openings}
    {targets : List String} {window : TimeWindow} {prepared : Option (FstSelection × FstFile)}
    (h : opened.prepare hash openings targets window context = .ok prepared) :
    (inverted window = true ∧ prepared = none) ∨
      ∃ selection file, inverted window = false ∧ opened.select targets = .ok selection ∧
        openings.read = .ok file ∧ prepared = some (selection, file) := by
  obtain ⟨⟨⟩, -, h⟩ := Fallible.bind_ok_iff.mp h
  cases hwindow : inverted window with
  | true =>
    rw [hwindow] at h
    cases h
    exact .inl ⟨rfl, rfl⟩
  | false =>
    rw [hwindow] at h
    obtain ⟨selection, hselect, h⟩ := Fallible.bind_ok_iff.mp h
    obtain ⟨⟨⟩, -, h⟩ := Fallible.bind_ok_iff.mp h
    obtain ⟨⟨⟩, -, h⟩ := Fallible.bind_ok_iff.mp h
    obtain ⟨file, hfile, h⟩ := Fallible.bind_ok_iff.mp h
    cases h
    exact .inr ⟨selection, file, rfl, hselect, Fallible.mapError_ok_iff.mp hfile, rfl⟩

/-- The items of an FST extraction. -/
def OpenedFst.items (opened : OpenedFst η) (hash : List UInt8 → η) (reader : FstReader)
    (openings : Openings) (targets : List String) (window : TimeWindow) (context : QueryContext) :
    List (Except QueryError TimeValue) :=
  match opened.prepare hash openings targets window context with
  | .error error => [.error error]
  | .ok none => []
  | .ok (some (selection, file)) =>
    readItems reader selection (window.start.getD 0) (window.end_.getD opened.header.endTime) file
      context.limits (checkWork (opened.recheck hash openings context))

/-- **Every FST extraction delivers its items.** -/
theorem delivers_items (opened : OpenedFst η) (hash : List UInt8 → η) (reader : FstReader)
    (openings : Openings) (targets : List String) (window : TimeWindow) (context : QueryContext) :
    opened.Delivers hash reader openings targets window context
      (opened.items hash reader openings targets window context) := by
  intro σ visitor visited
  rw [visitChangesUntil_eq, OpenedFst.items]
  cases hprepare : opened.prepare hash openings targets window context with
  | error error => rfl
  | ok prepared =>
    cases prepared with
    | none => rfl
    | some prepared =>
      obtain ⟨selection, file⟩ := prepared
      exact readFile_visit (prepare_live hprepare) reader file visited _

/-! ## A longer read -/

/-- A reader that delivers more behind what another one delivers. -/
structure FstReader.Extends (reader reader' : FstReader) : Prop where
  opens : ∀ file, reader'.open_ file = reader.open_ file
  more : ∀ file filter, (reader.readSignals file filter).1 <+: (reader'.readSignals file filter).1

theorem endingWork_row? (caught : Caught) : ∀ w ∈ endingWork caught, w.row? = none := by
  intro w hw
  cases caught with
  | done => cases hw
  | panicked | failed =>
    rw [List.mem_singleton.mp hw]
    rfl

theorem checkWork_row? (check : Except QueryError Unit) : ∀ w ∈ checkWork check, w.row? = none := by
  intro w hw
  cases check with
  | ok _ => cases hw
  | error error =>
    rw [List.mem_singleton.mp hw]
    rfl

/-- A visitor does not leave where no row is handed out. -/
theorem visit_checked {visited visited' : σ} {rows : List TimeValue} {ws : List FstWork}
    (hws : ∀ w ∈ ws, w.row? = none)
    (h : visit visitor visited (rows.map .ok ++ fstAnswers limits used ws) = .ok (false, visited')) :
    visit visitor visited (rows.map .ok) = .ok (false, visited') := by
  induction rows generalizing visited with
  | nil =>
    have hnone : (fstAnswers limits used ws) = [] ∨
        ∃ error, fstAnswers limits used ws = [.error error] := by
      have hrows : (Metered.afford (fstCharge limits) used ws).1.filterMap FstWork.row? = [] := by
        rw [List.filterMap_eq_nil_iff]
        exact fun w hw => hws w ((Metered.afford_prefix _ _ _).subset hw)
      rw [fstAnswers, hrows]
      cases (Metered.afford (fstCharge limits) used ws).2 with
      | none => exact .inl rfl
      | some error => exact .inr ⟨error, rfl⟩
    rw [List.map_nil, List.nil_append] at h
    rcases hnone with hnone | ⟨error, hnone⟩
    · rw [hnone] at h
      cases h
    · rw [hnone] at h
      cases h
  | cons row rows ih =>
    rw [List.map_cons, List.cons_append] at h
    rw [List.map_cons]
    cases hvisitor : visitor visited row with
    | error e =>
      rw [visit_fail hvisitor] at h
      cases h
    | ok step =>
      obtain ⟨_ | _, visited₁⟩ := step
      · rw [visit_leave hvisitor] at h
        rw [visit_leave hvisitor, h]
      · rw [visit_more hvisitor] at h
        rw [visit_more hvisitor]
        exact ih h

/-- **A visitor that leaves** leaves in the same way when the reader has more
behind it. -/
theorem items_extends (opened : OpenedFst η) (hash : List UInt8 → η) {reader reader' : FstReader}
    (hmore : reader.Extends reader') (openings : Openings) (targets : List String)
    (window : TimeWindow) {visited visited' : σ}
    (h : visit visitor visited (opened.items hash reader openings targets window context) =
      .ok (false, visited')) :
    visit visitor visited (opened.items hash reader' openings targets window context) =
      .ok (false, visited') := by
  unfold OpenedFst.items at h ⊢
  cases hprepare : opened.prepare hash openings targets window context with
  | error error =>
    rw [hprepare] at h
    cases h
  | ok prepared =>
    cases prepared with
    | none =>
      rw [hprepare] at h
      cases h
    | some prepared =>
      obtain ⟨selection, file⟩ := prepared
      rw [hprepare] at h
      simp only [readItems, hmore.opens] at h ⊢
      cases hopen : reader.open_ file with
      | panicked =>
        rw [hopen] at h
        cases h
      | failed message =>
        rw [hopen] at h
        cases h
      | done =>
        rw [hopen] at h
        simp only at h ⊢
        obtain ⟨more, hcallbacks⟩ := hmore.more file ⟨window.start.getD 0,
          some (window.end_.getD opened.header.endTime), some selection.handles⟩
        rw [← hcallbacks, List.flatMap_append, List.append_assoc]
        rcases fstAnswers_append context.limits ((reader.readSignals file ⟨window.start.getD 0,
          some (window.end_.getD opened.header.endTime), some selection.handles⟩).1.flatMap
            (callbackWork selection (window.start.getD 0)
              (window.end_.getD opened.header.endTime))) {} with
          ⟨used, rows, hall⟩ | ⟨rows, error, hall⟩
        · rw [hall] at h
          rw [hall]
          refine visit_append_left (visit_checked ?_ h) _
          intro w hw
          rcases List.mem_append.mp hw with hw | hw
          · exact endingWork_row? _ w hw
          · exact checkWork_row? _ w hw
        · rw [hall] at h
          rw [hall, h]

end VcdTools.Opened
