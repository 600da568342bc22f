import VcdTools.Lib.Fallible
import VcdTools.Opened.WaveformFind

/-! # Visiting the changes of a waveform

`visit_changes` of `opened/waveform.rs`, which hands the events of an extraction
to a visitor, in either format. Every event is one of a requested name. -/
namespace VcdTools.Opened
open VcdTools.Lib VcdTools.Lib.Iter VcdTools.Query

variable {η : Type} {targets : List String} {window : TimeWindow} {context : QueryContext}

/-! ## The rows of an FST read -/

/-- A piece of work that is answered with a row. -/
theorem row_mem_fstAnswers {limits : QueryLimits} {used : Usage} {ws : List FstWork}
    {row : TimeValue} (h : .ok row ∈ fstAnswers limits used ws) : .row row ∈ ws := by
  obtain h | h := List.mem_append.mp h
  · obtain ⟨row', hrow, heq⟩ := List.mem_map.mp h
    cases heq
    obtain ⟨w, hw, hwork⟩ := List.mem_filterMap.mp hrow
    cases w with
    | callback => cases hwork
    | failure error => cases hwork
    | row event =>
      cases hwork
      exact (Metered.afford_prefix _ _ _).subset hw
  · cases hstop : (Metered.afford (fstCharge limits) used ws).2 with
    | none =>
      rw [hstop] at h
      cases h
    | some error =>
      rw [hstop] at h
      cases List.mem_singleton.mp h

theorem callbackWork_named {opened : OpenedFst η} {selection : FstSelection}
    (hselection : selection.Holds opened targets) {start end_ : Nat} {callback : FstCallback}
    {row : TimeValue} (h : .row row ∈ callbackWork selection start end_ callback) :
    row.signal ∈ targets := by
  obtain ⟨time, handle, value⟩ := callback
  rw [callbackWork] at h
  obtain h | h := List.mem_cons.mp h
  · cases h
  split at h
  · cases h
  cases hnames : selection.namesByHandle.get handle with
  | none =>
    rw [hnames] at h
    cases h
  | some names =>
    rw [hnames] at h
    simp only at h
    split at h
    · cases List.mem_singleton.mp h
    · obtain ⟨name, hname, heq⟩ := List.mem_map.mp h
      cases heq
      have hrequested := hselection.names handle
      rw [Groups.getD, hnames, Option.getD_some] at hrequested
      rw [hrequested] at hname
      exact (List.mem_filter.mp hname).1

/-- A selection that is made is made of names that exist. -/
theorem select_ok_holds {opened : OpenedFst η} {selection : FstSelection}
    (h : opened.select targets = .ok selection) : selection.Holds opened targets := by
  have hfound : ∀ name ∈ targets, (opened.signal name).isSome := by
    intro name hname
    rw [Option.isSome_iff_ne_none]
    intro hmissing
    obtain ⟨missing, hselect⟩ := selectLoop_missing hname hmissing ⟨[], [], []⟩
    rw [OpenedFst.select, hselect] at h
    cases h
  obtain ⟨selection', hselect, hselection⟩ := select_holds hfound
  rw [h] at hselect
  cases hselect
  exact hselection

/-! ## The visit -/

variable [DecidableEq η]

/-- The answer when the visitor panics below `catch_unwind`. -/
def readPanicked : QueryError := .fst "FST parser panicked while reading signal data"

/-- `OpenedWaveform::visit_changes`; nothing when it panics. The FST backend runs the
visitor below `catch_unwind`. -/
def OpenedWaveform.visitChanges {τ : Type} (waveform : OpenedWaveform η) (env : FstEnv η)
    (targets : List String) (window : TimeWindow) (context : QueryContext)
    (visitor : τ → TimeValue → Option (Except QueryError τ)) (visited : τ) :
    Option (Except QueryError τ) :=
  match waveform with
  | .vcd opened => unwound do
    let events ← opened.extract targets window context
    let (_, visited, _) ← events.forEach (unwinding visitor) (some visited)
    return visited
  | .fst opened =>
    some (opened.visitChangesUntil context (contained readPanicked visitor) env.hash env.reader
      env.openings targets window visited)

/-- What a visit of the items of an extraction comes to. -/
def OpenedWaveform.visitItems {τ : Type} (waveform : OpenedWaveform η)
    (visitor : τ → TimeValue → Option (Except QueryError τ)) (visited : τ)
    (items : List (Except QueryError TimeValue)) : Option (Except QueryError τ) :=
  match waveform with
  | .vcd _ => unwound ((visit (unwinding visitor) (some visited) items).map Prod.snd)
  | .fst _ => some ((visit (contained readPanicked visitor) visited items).map Prod.snd)

variable {waveform : OpenedWaveform η} {env : FstEnv η}
  {items : List (Except QueryError TimeValue)}

/-- **A visit of the changes** is one of the items of the extraction. -/
theorem OpenedWaveform.Delivers.visitChanges {τ : Type}
    (h : waveform.Delivers env targets window context items)
    (visitor : τ → TimeValue → Option (Except QueryError τ)) (visited : τ) :
    waveform.visitChanges env targets window context visitor visited =
      waveform.visitItems visitor visited items := by
  cases waveform with
  | vcd opened =>
    refine congrArg unwound ?_
    change opened.Delivers targets window context items at h
    unfold OpenedVcd.Delivers at h
    cases hextract : opened.extract targets window context with
    | error error =>
      rw [hextract] at h
      subst h
      rfl
    | ok iter =>
      rw [hextract] at h
      rw [← forEach_visit (unwinding visitor) (some visited) h]
      simp only [bind, Except.bind]
      cases iter.forEach (unwinding visitor) (some visited) <;> rfl
  | fst opened =>
    refine congrArg some ((h τ (contained readPanicked visitor) visited).trans ?_)
    cases hvisit : visit (contained readPanicked visitor) visited items with
    | error error => rfl
    | ok ended =>
      obtain ⟨more, visited'⟩ := ended
      -- a contained visitor goes on or fails
      obtain ⟨rfl, -⟩ := visit_ok_iff.mp hvisit
      rfl

/-- A visitor that neither panics nor fails folds the events, unless an error ends
the extraction. -/
theorem OpenedWaveform.Delivers.visitChanges_total {τ : Type}
    (h : waveform.Delivers env targets window context items) (f : τ → TimeValue → τ)
    (visited : τ) :
    waveform.visitChanges env targets window context
        (fun visited event => some (.ok (f visited event))) visited =
      some ((allOk items).map fun rows => rows.foldl f visited) := by
  rw [h.visitChanges]
  cases waveform with
  | vcd opened =>
    rw [OpenedWaveform.visitItems, visit_unwinding_total]
    cases allOk items <;> rfl
  | fst opened =>
    have hvisit : visit (contained readPanicked fun visited event => some (.ok (f visited event)))
        visited items = _ := visit_total f visited items
    rw [OpenedWaveform.visitItems, hvisit]
    cases allOk items <;> rfl

/-- **A visitor that may panic** has gone through events without errors when the
visit ends well. -/
theorem OpenedWaveform.Delivers.visitChanges_ok_iff {τ : Type}
    (h : waveform.Delivers env targets window context items) {g : τ → TimeValue → Option τ}
    {visited visited' : τ} :
    waveform.visitChanges env targets window context
        (fun visited event => (g visited event).map .ok) visited = some (.ok visited') ↔
      ∃ rows : List TimeValue, items = rows.map .ok ∧ rows.foldlM g visited = some visited' := by
  rw [h.visitChanges]
  cases waveform with
  | vcd opened =>
    rw [OpenedWaveform.visitItems, unwound_eq_ok_iff, Fallible.map_ok_iff]
    constructor
    · rintro ⟨⟨more, _⟩, hvisit, rfl⟩
      exact (visit_unwinding_iff.mp hvisit).2
    · intro hrows
      exact ⟨(true, some visited'), visit_unwinding_iff.mpr ⟨rfl, hrows⟩, rfl⟩
  | fst opened =>
    have hcaught : ∀ rows : List TimeValue, rows.foldlM (fun visited event =>
        ((g visited event).map (Except.ok : τ → Except QueryError τ)).getD (.error readPanicked))
          visited = .ok visited' ↔ rows.foldlM g visited = some visited' := by
      intro rows
      rw [foldlM_caught]
      cases rows.foldlM g visited <;> simp
    rw [OpenedWaveform.visitItems, Option.some.injEq, Fallible.map_ok_iff]
    constructor
    · rintro ⟨⟨more, _⟩, hvisit, rfl⟩
      obtain ⟨-, rows, hrows, hfold⟩ := visit_ok_iff.mp hvisit
      exact ⟨rows, hrows, (hcaught rows).mp hfold⟩
    · rintro ⟨rows, hrows, hfold⟩
      exact ⟨(true, visited'), visit_ok_iff.mpr ⟨rfl, rows, hrows, (hcaught rows).mpr hfold⟩, rfl⟩

/-! ## The events are those of the requested names -/

/-- The stream keeps its selection. -/
theorem next_selection (stream : SelectedChangeStream) :
    stream.next.2.selection = stream.selection := by
  by_cases hfinished : stream.finished = true
  · rw [SelectedChangeStream.next, if_pos hfinished]
  · exact (next_advances stream (by simpa using hfinished)).selection

theorem extract_bindings {opened : OpenedVcd} {iter : OpenedTimeValueIter}
    (h : opened.extract targets window context = .ok iter) (id : IdCode) :
    ∀ binding ∈ iter.stream.selection.bindings id, binding.name ∈ targets := by
  obtain ⟨hlive, selection, commands, hselection, -, rfl⟩ := extract_ok_iff.mp h
  intro binding hbinding
  have hname : binding.name ∈ opened.catalog.requested targets id := by
    rw [← (resolve_ok hlive hselection).names]
    exact List.mem_map_of_mem hbinding
  exact (List.mem_filter.mp hname).1

theorem fst_items_named {opened : OpenedFst η} {row : TimeValue}
    (h : .ok row ∈ opened.items env.hash env.reader env.openings targets window context) :
    row.signal ∈ targets := by
  unfold OpenedFst.items at h
  cases hprepare : opened.prepare env.hash env.openings targets window context with
  | error error =>
    rw [hprepare] at h
    cases List.mem_singleton.mp h
  | ok prepared =>
    rw [hprepare] at h
    obtain ⟨-, rfl⟩ | ⟨selection, file, -, hselect, -, rfl⟩ := prepare_ok_cases hprepare
    · cases h
    · have hselection := select_ok_holds hselect
      simp only [readItems] at h
      cases hopen : env.reader.open_ file with
      | panicked =>
        rw [hopen] at h
        cases List.mem_singleton.mp h
      | failed message =>
        rw [hopen] at h
        cases List.mem_singleton.mp h
      | done =>
        rw [hopen] at h
        obtain hwork | hwork := List.mem_append.mp (row_mem_fstAnswers h)
        · obtain ⟨callback, -, hrow⟩ := List.mem_flatMap.mp hwork
          exact callbackWork_named hselection hrow
        · exfalso
          obtain hwork | hwork := List.mem_append.mp hwork
          · cases endingWork_row? _ _ hwork
          · cases checkWork_row? _ _ hwork

/-- **An extraction that succeeds** has rows of the requested names only. -/
theorem extract_named {rows : List TimeValue}
    (h : waveform.extract env targets window context = .ok rows) :
    ∀ row ∈ rows, row.signal ∈ targets := by
  intro row hrow
  cases waveform with
  | vcd opened =>
    obtain ⟨items, hitems⟩ := opened.exists_delivers targets window context
    have hdelivers : (OpenedWaveform.vcd (η := η) opened).Delivers env targets window context items :=
      hitems
    rw [hdelivers.extract] at h
    have hrows := allOk_eq_ok.mp h
    unfold OpenedVcd.Delivers at hitems
    cases hextract : opened.extract targets window context with
    | error error =>
      rw [hextract] at hitems
      rw [hitems] at h
      cases h
    | ok iter =>
      rw [hextract] at hitems
      obtain ⟨n, hn⟩ := List.mem_iff_getElem?.mp hrow
      have hanswer : answer OpenedTimeValueIter.next iter n = some (.ok row) := by
        rw [hitems n, hrows, List.getElem?_map, hn]
        rfl
      refine OpenedTimeValueIter.answer_rowsIn (P := fun name _ _ => name ∈ targets)
        (S := fun stream => ∀ id, ∀ binding ∈ stream.selection.bindings id, binding.name ∈ targets)
        (fun stream hstream => ?_)
        (OpenedTimeValueIter.rowsIn_start ?_ (extract_bindings hextract)) n hanswer
      · rw [next_selection]
        exact ⟨hstream, fun change _ => hstream change.idCode⟩
      · obtain ⟨stream, -, hiter⟩ := Fallible.bind_ok_iff.mp hextract
        cases hiter
        rfl
  | fst opened =>
    have hitems : (OpenedWaveform.fst opened).Delivers env targets window context _ :=
      delivers_items opened env.hash env.reader env.openings targets window context
    rw [hitems.extract] at h
    have hmem : .ok row ∈ opened.items env.hash env.reader env.openings targets window context := by
      rw [allOk_eq_ok.mp h]
      exact List.mem_map_of_mem hrow
    exact fst_items_named hmem

end VcdTools.Opened
