import VcdTools.Opened.Fst
import VcdTools.Query.ExtractReference

/-! # What an FST extraction gives

The target loop groups the requested names by handle, and a read under an
unlimited context turns every requested callback into the rows of its names.
Callbacks that the filter did not ask for are passed over. -/
namespace VcdTools.Opened
open VcdTools.Lib VcdTools.Query

variable {η : Type} {opened : OpenedFst η}

/-! ## The selection -/

/-- The requested names of a handle, in the order of the requests. -/
def OpenedFst.requested (opened : OpenedFst η) (targets : List String) (handle : Nat) :
    List String :=
  targets.filter fun name => (opened.signal name).map (·.handleIndex) = some handle

/-- What a selection holds for the targets it was made of. -/
structure FstSelection.Holds (selection : FstSelection) (opened : OpenedFst η)
    (targets : List String) : Prop where
  names : ∀ handle, selection.namesByHandle.getD handle = opened.requested targets handle
  filled : selection.namesByHandle.Filled
  handles : ∀ handle, handle ∈ selection.handles ↔ opened.requested targets handle ≠ []
  types : ∀ handle ∈ selection.handles, ∃ name signal, name ∈ targets ∧
    opened.signal name = some signal ∧ signal.handleIndex = handle ∧
    selection.typeByHandle.lookup handle = some signal.signalType

theorem OpenedFst.requested_append (opened : OpenedFst η) (targets : List String) (name : String)
    (handle : Nat) : opened.requested (targets ++ [name]) handle =
      opened.requested targets handle ++
        if (opened.signal name).map (·.handleIndex) = some handle then [name] else [] := by
  rw [requested, List.filter_append, requested, List.filter_singleton]
  simp

/-- A round of the target loop keeps what a selection holds. -/
theorem FstSelection.Holds.add {selection : FstSelection} {targets : List String}
    (h : selection.Holds opened targets) {name : String} {signal : FstSignal}
    (hsignal : opened.signal name = some signal) :
    FstSelection.Holds
      { handles := if selection.handles.contains signal.handleIndex then selection.handles
          else selection.handles ++ [signal.handleIndex]
        namesByHandle := selection.namesByHandle.push signal.handleIndex name
        typeByHandle := (signal.handleIndex, signal.signalType) :: selection.typeByHandle }
      opened (targets ++ [name]) where
  names handle := by
    rw [Groups.getD_push, h.names, opened.requested_append, hsignal]
    simp
  filled := h.filled.push _ _
  handles handle := by
    rw [opened.requested_append, hsignal]
    have hmem : handle ∈ (if selection.handles.contains signal.handleIndex then selection.handles
        else selection.handles ++ [signal.handleIndex]) ↔
        handle ∈ selection.handles ∨ signal.handleIndex = handle := by
      by_cases hin : signal.handleIndex ∈ selection.handles
      · rw [if_pos (List.contains_iff_mem.mpr hin)]
        exact ⟨.inl, fun h => h.elim id fun heq => heq ▸ hin⟩
      · rw [if_neg fun h => hin (List.contains_iff_mem.mp h), List.mem_append,
          List.mem_singleton, eq_comm (a := handle)]
    rw [hmem, h.handles]
    by_cases heq : signal.handleIndex = handle <;> simp [heq]
  types handle hhandle := by
    by_cases heq : handle = signal.handleIndex
    · subst heq
      exact ⟨name, signal, by simp, hsignal, rfl, by simp⟩
    · have hold : handle ∈ selection.handles := by
        simp only at hhandle
        split at hhandle
        · exact hhandle
        · rcases List.mem_append.mp hhandle with hin | hin
          · exact hin
          · exact absurd (List.mem_singleton.mp hin) heq
      obtain ⟨name', signal', hname', hsignal', hindex, htype⟩ := h.types handle hold
      refine ⟨name', signal', List.mem_append_left _ hname', hsignal', hindex, ?_⟩
      rw [List.lookup_cons, beq_eq_false_iff_ne.mpr heq]
      exact htype

theorem selectLoop_holds (targets : List String) :
    ∀ (done : List String) (selection : FstSelection), selection.Holds opened done →
      (∀ name ∈ targets, (opened.signal name).isSome) →
      ∃ selection', opened.selectLoop selection targets = .ok selection' ∧
        selection'.Holds opened (done ++ targets) := by
  induction targets with
  | nil =>
    intro done selection h _
    exact ⟨selection, rfl, by rwa [List.append_nil]⟩
  | cons name targets ih =>
    intro done selection h hfound
    obtain ⟨signal, hsignal⟩ := Option.isSome_iff_exists.mp (hfound name List.mem_cons_self)
    obtain ⟨selection', hselection', hholds⟩ := ih (done ++ [name]) _ (h.add hsignal)
      fun n hn => hfound n (List.mem_cons_of_mem _ hn)
    refine ⟨selection', ?_, by rwa [List.append_assoc] at hholds⟩
    rw [OpenedFst.selectLoop, hsignal]
    exact hselection'

/-- **The target loop** succeeds on names that all exist. -/
theorem select_holds {targets : List String}
    (hfound : ∀ name ∈ targets, (opened.signal name).isSome) :
    ∃ selection, opened.select targets = .ok selection ∧ selection.Holds opened targets :=
  selectLoop_holds targets [] ⟨[], [], []⟩
    ⟨fun _ => rfl, Groups.filled_nil, fun _ => by simp [OpenedFst.requested],
      fun _ h => (by cases h)⟩ hfound

theorem find_missing {targets : List String} {name : String} (hname : name ∈ targets)
    (hmissing : opened.signal name = none) :
    ∃ missing, targets.find? (fun name => (opened.signal name).isNone) = some missing :=
  Option.isSome_iff_exists.mp
    (List.find?_isSome.mpr ⟨name, hname, by rw [hmissing, Option.isNone_none]⟩)

/-- The target loop stops at the first name that is missing. -/
theorem selectLoop_find {targets : List String} {missing : String}
    (h : targets.find? (fun name => (opened.signal name).isNone) = some missing)
    (selection : FstSelection) :
    opened.selectLoop selection targets = .error (.signalNotFound missing) := by
  induction targets generalizing selection with
  | nil => cases h
  | cons target targets ih =>
    rw [OpenedFst.selectLoop]
    rw [List.find?_cons] at h
    cases hsignal : opened.signal target with
    | none =>
      rw [hsignal] at h
      cases h
      rfl
    | some signal =>
      rw [hsignal] at h
      exact ih h _

theorem selectLoop_missing {targets : List String} {name : String} (hname : name ∈ targets)
    (hmissing : opened.signal name = none) (selection : FstSelection) :
    ∃ missing, opened.selectLoop selection targets = .error (.signalNotFound missing) := by
  obtain ⟨missing, hfind⟩ := find_missing hname hmissing
  exact ⟨missing, selectLoop_find hfind selection⟩

/-! ## The read -/

variable {context : QueryContext} {selection : FstSelection} {start end_ : Nat}

/-- The visitor of `extract_with_context`. -/
abbrev pushRow (rows : List TimeValue) (row : TimeValue) :
    Except QueryError (Bool × List TimeValue) := .ok (true, rows ++ [row])

theorem row_unlimited (hcontext : context.Unlimited) (read : FstRead (List TimeValue))
    (row : TimeValue) : ∃ read', read.row context pushRow row = .ok read' ∧
      read'.visited = read.visited ++ [row] := by
  simp only [FstRead.row, hcontext.limits, OpenedTimeValueIter.checkLimit]
  exact ⟨_, rfl, rfl⟩

theorem rows_unlimited (hcontext : context.Unlimited) (time : Nat) (value : ChangeValue)
    (names : List String) (read : FstRead (List TimeValue)) :
    ∃ read', names.foldlM (fun (read : FstRead (List TimeValue)) name =>
        read.row context pushRow ⟨name, time, value⟩) read = .ok read' ∧
      read'.visited = read.visited ++ names.map fun name => ⟨name, time, value⟩ := by
  induction names generalizing read with
  | nil => exact ⟨read, rfl, (List.append_nil _).symm⟩
  | cons name names ih =>
    obtain ⟨read₁, hread₁, hvisited₁⟩ := row_unlimited hcontext read ⟨name, time, value⟩
    obtain ⟨read', hread', hvisited'⟩ := ih read₁
    refine ⟨read', ?_, ?_⟩
    · rw [List.foldlM_cons, hread₁]
      exact hread'
    · rw [hvisited', hvisited₁, List.append_assoc]
      rfl

/-- Whether a filter asks for a callback. -/
def FstFilter.Wants (filter : FstFilter) (callback : FstCallback) : Prop :=
  filter.start ≤ callback.1 ∧ (∀ end_ ∈ filter.end_, callback.1 ≤ end_) ∧
    ∀ handles ∈ filter.include_, callback.2.1 ∈ handles

instance (filter : FstFilter) (callback : FstCallback) : Decidable (filter.Wants callback) :=
  inferInstanceAs (Decidable (_ ∧ _ ∧ _))

/-- The filter of a read. -/
abbrev FstSelection.filter (selection : FstSelection) (start end_ : Nat) : FstFilter :=
  ⟨start, some end_, some selection.handles⟩

/-- The rows of a callback, once its value is converted. -/
def callbackRows (selection : FstSelection) (callback : FstCallback) : List TimeValue :=
  match fstValue callback.2.2 ((selection.typeByHandle.lookup callback.2.1).getD .digital) with
  | .ok value =>
    (selection.namesByHandle.getD callback.2.1).map fun name => ⟨name, callback.1, value⟩
  | .error _ => []

/-- **A callback** gives its rows when the filter asks for it, and nothing
otherwise. -/
theorem callback_unlimited {targets : List String} (hcontext : context.Unlimited)
    (hselection : selection.Holds opened targets) (callback : FstCallback)
    (hvalue : (selection.filter start end_).Wants callback → ∃ value, fstValue callback.2.2
      ((selection.typeByHandle.lookup callback.2.1).getD .digital) = .ok value)
    (read : FstRead (List TimeValue)) :
    ∃ read', read.callback context pushRow selection start end_ callback = .ok read' ∧
      read'.visited = read.visited ++
        if (selection.filter start end_).Wants callback then callbackRows selection callback
        else [] := by
  obtain ⟨time, handle, value⟩ := callback
  have hcheck := QueryContext.check_live hcontext.live
  have hfilled := hselection.filled.get_eq handle
  have hwants : (selection.filter start end_).Wants (time, handle, value) ↔
      ¬ (time < start ∨ time > end_) ∧ handle ∈ selection.handles := by
    simp only [FstFilter.Wants, Option.mem_some_iff, forall_eq', not_or, Nat.not_lt, and_assoc]
  simp only [FstRead.callback, hcheck, hcontext.limits, OpenedTimeValueIter.checkLimit]
  by_cases htime : time < start ∨ time > end_
  · rw [if_neg fun h => (hwants.mp h).1 htime, List.append_nil]
    simp only [bind, Except.bind, Except.mapError, htime, if_true]
    exact ⟨_, rfl, rfl⟩
  · simp only [bind, Except.bind, Except.mapError, htime, if_false]
    by_cases hhandle : handle ∈ selection.handles
    · have hne : selection.namesByHandle.getD handle ≠ [] := by
        rw [hselection.names]
        exact (hselection.handles handle).mp hhandle
      have hwant := hwants.mpr ⟨htime, hhandle⟩
      obtain ⟨converted, hconverted⟩ := hvalue hwant
      rw [if_neg hne] at hfilled
      obtain ⟨read', hread', hvisited⟩ := rows_unlimited hcontext time converted
        (selection.namesByHandle.getD handle) { read with work := saturatingAdd read.work 1 }
      refine ⟨read', ?_, ?_⟩
      · simp only [hfilled, hconverted]
        exact hread'
      · rw [hvisited, if_pos hwant, callbackRows, hconverted]
    · have hnone : selection.namesByHandle.getD handle = [] := by
        rw [hselection.names]
        exact not_not.mp fun h => hhandle ((hselection.handles handle).mpr h)
      rw [if_pos hnone] at hfilled
      rw [if_neg fun h => hhandle (hwants.mp h).2, List.append_nil]
      simp only [hfilled]
      exact ⟨_, rfl, rfl⟩

/-- **The read** gives the rows of the callbacks that the filter asks for. -/
theorem callbacks_unlimited {targets : List String} (hcontext : context.Unlimited)
    (hselection : selection.Holds opened targets) (callbacks : List FstCallback)
    (hvalue : ∀ callback ∈ callbacks, (selection.filter start end_).Wants callback →
      ∃ value, fstValue callback.2.2
        ((selection.typeByHandle.lookup callback.2.1).getD .digital) = .ok value)
    (read : FstRead (List TimeValue)) :
    ∃ read', callbacks.foldlM (FstRead.callback context pushRow selection start end_) read =
        .ok read' ∧
      read'.visited = read.visited ++
        (callbacks.filter (selection.filter start end_).Wants).flatMap (callbackRows selection) := by
  induction callbacks generalizing read with
  | nil => exact ⟨read, rfl, (List.append_nil _).symm⟩
  | cons callback callbacks ih =>
    obtain ⟨read₁, hread₁, hvisited₁⟩ := callback_unlimited hcontext hselection callback
      (hvalue callback List.mem_cons_self) read
    obtain ⟨read', hread', hvisited'⟩ := ih
      (fun c hc => hvalue c (List.mem_cons_of_mem _ hc)) read₁
    refine ⟨read', ?_, ?_⟩
    · rw [List.foldlM_cons, hread₁]
      exact hread'
    · rw [hvisited', hvisited₁, List.append_assoc, List.filter_cons]
      by_cases hwant : (selection.filter start end_).Wants callback
      · simp only [hwant, decide_true, if_true, List.flatMap_cons]
      · simp only [hwant, decide_false, if_false, List.nil_append]
        rfl

end VcdTools.Opened
