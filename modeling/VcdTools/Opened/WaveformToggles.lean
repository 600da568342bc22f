import VcdTools.Opened.CompareWaveforms
import VcdTools.Opened.VisitChanges
import VcdTools.Query.Toggles

/-! # Counting toggles in either format

`count_toggles` of `opened/waveform.rs`. The FST backend has a previous value or
none; the VCD backend starts from the empty text. Both see every event of a name
once for each time the name is requested. Both panic at a value that has no text,
the FST backend inside its reader, which answers an error. -/
namespace VcdTools.Opened
open VcdTools.Lib VcdTools.Lib.Iter VcdTools.Query

/-- `counts` and `previous`. -/
structure PreviousCounts where
  counts : NameMap Nat
  previous : NameMap String

/-- A round of the visitor of `OpenedWaveform::count_toggles`, with the formatted
value. -/
def PreviousCounts.count (state : PreviousCounts) (signal value : String) : PreviousCounts :=
  let counts :=
    if (state.previous signal).any (fun old => old ≠ value) then
      Function.update state.counts signal (some ((state.counts signal).getD 0 + 1))
    else state.counts
  { counts := counts
    previous := Function.update state.previous signal (some value) }

/-- The body of the visitor; nothing when it panics. -/
def PreviousCounts.next (std : StdText) (width : NameMap Nat) (state : PreviousCounts)
    (event : TimeValue) : Option PreviousCounts :=
  (formatValueForSignal std event.value ((width event.signal).getD 1)).map
    (state.count event.signal)

variable {η : Type} [DecidableEq η]

/-- `OpenedWaveform::count_toggles`; nothing when it panics. -/
def OpenedWaveform.countToggles (waveform : OpenedWaveform η) (std : StdText) (env : FstEnv η)
    (targets : List String) (window : TimeWindow) (context : QueryContext) :
    Option (Except QueryError (NameMap Nat)) :=
  match waveform with
  | .vcd opened => opened.countToggles std targets window context
  | .fst _ =>
    (waveform.visitChanges env targets window context
      (fun state event => (PreviousCounts.next std waveform.width state event).map .ok)
      ⟨forTargets targets 0, fun _ => none⟩).map fun visited => visited.map (·.counts)

/-! ## The FST visitor -/

variable {std : StdText} {size : Nat} {name : String}

theorem PreviousCounts.count_self {state : PreviousCounts} {count : Nat}
    (hcount : state.counts name = some count) (value : String) :
    (state.count name value).counts name = some (count +
        countAdjacent (fun a b => a ≠ b) ((state.previous name).toList ++ [value])) ∧
      (state.count name value).previous name = some value := by
  simp only [PreviousCounts.count, hcount]
  refine ⟨?_, Function.update_self _ _ _⟩
  cases state.previous name with
  | none => exact hcount
  | some old =>
    simp only [Option.any_some, Option.toList_some, List.singleton_append, countAdjacent_cons]
    by_cases h : old = value
    · rw [if_neg (by simpa using h), if_neg (by simpa using h)]
      exact hcount
    · rw [if_pos (by simpa using h), if_pos (by simpa using h)]
      exact Function.update_self _ _ _

theorem PreviousCounts.count_other (state : PreviousCounts) {other : String} (h : name ≠ other)
    (value : String) :
    (state.count other value).counts name = state.counts name ∧
      (state.count other value).previous name = state.previous name := by
  refine ⟨?_, Function.update_of_ne h _ _⟩
  simp only [PreviousCounts.count]
  split
  · exact Function.update_of_ne h _ _
  · rfl

/-- **The FST visitor** counts the adjacent pairs of a name that differ. -/
theorem fold_previousCounts (std : StdText) {width : NameMap Nat}
    (hsize : (width name).getD 1 = size) (rows : List TimeValue) (state : PreviousCounts)
    {count : Nat} (hcount : state.counts name = some count) :
    (rows.foldl (fun state row => state.count row.signal
        (formatted std row.value ((width row.signal).getD 1))) state).counts name =
      some (count + toggles ((state.previous name).toList ++ formattedOf std size name rows)) := by
  induction rows generalizing state count with
  | nil =>
    have hzero : toggles ((state.previous name).toList ++ formattedOf std size name []) = 0 := by
      cases state.previous name <;> rfl
    rw [hzero]
    exact hcount
  | cons row rows ih =>
    rw [List.foldl_cons]
    by_cases h : row.signal = name
    · subst h
      obtain ⟨hcount', hprevious⟩ := PreviousCounts.count_self hcount
        (formatted std row.value ((width row.signal).getD 1))
      rw [ih _ hcount', hprevious, formattedOf_cons_self row rows rfl, Nat.add_assoc, hsize]
      cases state.previous row.signal with
      | none => simp
      | some old =>
        simp only [Option.toList_some, List.singleton_append, toggles, countAdjacent_cons,
          countAdjacent_singleton, Nat.add_zero]
    · obtain ⟨hcount', hprevious⟩ := PreviousCounts.count_other state (Ne.symm h)
        (formatted std row.value ((width row.signal).getD 1))
      rw [ih _ (hcount'.trans hcount), hprevious, formattedOf_cons_other row rows h]

/-- The visitor panics at the first row that has no text. -/
theorem foldlM_previousCounts (std : StdText) (width : NameMap Nat) (state : PreviousCounts)
    (rows : List TimeValue) :
    rows.foldlM (PreviousCounts.next std width) state =
      if Printable std width rows then
        some (rows.foldl (fun state row => state.count row.signal
          (formatted std row.value ((width row.signal).getD 1))) state)
      else none :=
  Fallible.foldlM_option (fun state row => by
    rw [PreviousCounts.next, formatValueForSignal_eq]
    split <;> rfl) state rows

variable {fst : OpenedFst η} {env : FstEnv η} {targets : List String} {window : TimeWindow}
  {context : QueryContext} {rows : List TimeValue}

theorem fst_extract_items (env : FstEnv η) (targets : List String) (window : TimeWindow)
    (context : QueryContext) :
    fst.extractWithContext env.hash env.reader env.openings targets window context =
      allOk (fst.items env.hash env.reader env.openings targets window context) := by
  have hitems : (OpenedWaveform.fst fst).Delivers env targets window context _ :=
    delivers_items fst env.hash env.reader env.openings targets window context
  exact hitems.extract

/-- **Counting in an FST**: an extraction without errors gives the counts, unless a
row has no text. -/
theorem countToggles_rows_fst (std : StdText)
    (h : fst.extractWithContext env.hash env.reader env.openings targets window context =
      .ok rows) :
    (Printable std (OpenedWaveform.fst fst).width rows →
      ∃ counts, (OpenedWaveform.fst fst).countToggles std env targets window context =
          some (.ok counts) ∧
        ∀ name ∈ targets, ∀ width, (OpenedWaveform.fst fst).width name = some width →
          counts name = some (toggles (formattedOf std width name rows))) ∧
    (¬ Printable std (OpenedWaveform.fst fst).width rows → ∀ counts,
      (OpenedWaveform.fst fst).countToggles std env targets window context ≠ some (.ok counts)) := by
  have hdelivers : (OpenedWaveform.fst fst).Delivers env targets window context _ :=
    delivers_items fst env.hash env.reader env.openings targets window context
  have hrows : fst.items env.hash env.reader env.openings targets window context = rows.map .ok :=
    allOk_eq_ok.mp ((fst_extract_items env targets window context).symm.trans h)
  rw [hrows] at hdelivers
  constructor
  · intro hprintable
    have hfold := foldlM_previousCounts std (OpenedWaveform.fst fst).width
      ⟨forTargets targets 0, fun _ => none⟩ rows
    rw [if_pos hprintable] at hfold
    have hvisit := hdelivers.visitChanges_ok_iff.mpr ⟨rows, rfl, hfold⟩
    rw [OpenedWaveform.countToggles, hvisit]
    refine ⟨_, rfl, fun name hname width hwidth => ?_⟩
    have hsize : ((OpenedWaveform.fst fst).width name).getD 1 = width := by
      rw [hwidth]
      rfl
    have hzero : forTargets targets 0 name = some 0 := if_pos hname
    have hcounts := fold_previousCounts std hsize rows ⟨forTargets targets 0, fun _ => none⟩ hzero
    rw [Nat.zero_add] at hcounts
    exact hcounts
  · intro hnot counts hcounts
    rw [OpenedWaveform.countToggles] at hcounts
    obtain ⟨visited, hvisit, hvisited⟩ := Option.map_eq_some_iff.mp hcounts
    obtain ⟨state, rfl, -⟩ := Fallible.map_ok_iff.mp hvisited
    obtain ⟨rows', hsame, hfold⟩ := hdelivers.visitChanges_ok_iff.mp hvisit
    cases List.map_injective_iff.mpr (fun _ _ => Except.ok.inj) hsame
    rw [foldlM_previousCounts, if_neg hnot] at hfold
    cases hfold

/-! ## The events of a name -/

/-- The changes of a name: those of its identifier that the window covers. -/
def AbstractWaveform.changesOf (waveform : AbstractWaveform) (window : TimeWindow)
    (name : String) : List (Nat × IdCode × ChangeValue) :=
  waveform.changes.filter fun change =>
    waveform.catalog name = some change.2.1 ∧ Covers window change.1

/-- The formatted values of a name. -/
def AbstractWaveform.values (waveform : AbstractWaveform) (std : StdText) (size : Nat)
    (window : TimeWindow) (name : String) : List String :=
  (waveform.changesOf window name).map fun change => formatted std change.2.2 size

/-- Every change of a name has a text. -/
def AbstractWaveform.Prints (waveform : AbstractWaveform) (std : StdText) (size : Nat)
    (window : TimeWindow) (name : String) : Prop :=
  ∀ change ∈ waveform.changesOf window name, Formats std change.2.2 size

variable {waveform : AbstractWaveform}

/-- The rows of a change, for one of the requested names: one for each time it is
requested. -/
theorem formattedOf_changeRows (change : Nat × IdCode × ChangeValue) :
    formattedOf std size name (changeRows (waveform.requested targets) window change) =
      if waveform.catalog name = some change.2.1 ∧ Covers window change.1 then
        List.replicate (targets.count name) (formatted std change.2.2 size)
      else [] := by
  obtain ⟨time, id, value⟩ := change
  by_cases hcovers : Covers window time
  · have hnames : (waveform.requested targets id).filter (fun n => n = name) =
        if waveform.catalog name = some id then List.replicate (targets.count name) name
        else [] := by
      rw [AbstractWaveform.requested, List.filter_filter]
      by_cases hid : waveform.catalog name = some id
      · rw [if_pos hid, ← List.filter_eq]
        refine List.filter_congr fun n _ => ?_
        by_cases hn : n = name
        · simp [hn, hid]
        · simp [hn]
      · rw [if_neg hid, List.filter_eq_nil_iff]
        intro n _ h
        simp only [Bool.and_eq_true, decide_eq_true_eq] at h
        exact hid (h.1 ▸ h.2)
    rw [changeRows, if_pos hcovers, formattedOf, List.filter_map, List.map_map]
    have hsame : ((fun row : TimeValue => decide (row.signal = name)) ∘
        fun n : String => (⟨n, time, value⟩ : TimeValue)) = fun n => decide (n = name) := rfl
    rw [hsame, hnames]
    by_cases hid : waveform.catalog name = some id
    · rw [if_pos hid, if_pos ⟨hid, hcovers⟩, List.map_replicate]
      rfl
    · rw [if_neg hid, if_neg fun h => hid h.1]
      rfl
  · rw [changeRows, if_neg hcovers, if_neg fun h => hcovers h.2]
    rfl

theorem formattedOf_rows (std : StdText) (size : Nat) (waveform : AbstractWaveform)
    (targets : List String) (window : TimeWindow) (name : String) :
    formattedOf std size name
        (waveform.changes.flatMap (changeRows (waveform.requested targets) window)) =
      (waveform.values std size window name).flatMap (List.replicate (targets.count name)) := by
  rw [AbstractWaveform.values, AbstractWaveform.changesOf]
  induction waveform.changes with
  | nil => rfl
  | cons change changes ih =>
    have happend : ∀ a b : List TimeValue, formattedOf std size name (a ++ b) =
        formattedOf std size name a ++ formattedOf std size name b := fun a b => by
      rw [formattedOf, List.filter_append, List.map_append]
      rfl
    rw [List.flatMap_cons, happend, formattedOf_changeRows, ih]
    by_cases h : waveform.catalog name = some change.2.1 ∧ Covers window change.1
    · rw [if_pos h, List.filter_cons_of_pos (by simpa using h), List.map_cons, List.flatMap_cons]
    · rw [if_neg h, List.filter_cons_of_neg (by simpa using h), List.nil_append]

/-- The rows have texts when the changes of the requested names do. -/
theorem printable_rows_iff (std : StdText) {width : String → Nat} {sizes : NameMap Nat}
    (hsizes : ∀ name ∈ targets, sizes name = some (width name)) (waveform : AbstractWaveform)
    (window : TimeWindow) :
    Printable std sizes
        (waveform.changes.flatMap (changeRows (waveform.requested targets) window)) ↔
      ∀ name ∈ targets, waveform.Prints std (width name) window name := by
  constructor
  · intro h name hname change hchange
    obtain ⟨hmem, hof⟩ := List.mem_filter.mp hchange
    obtain ⟨hid, hcovers⟩ := of_decide_eq_true hof
    have hrow : ⟨name, change.1, change.2.2⟩ ∈
        changeRows (waveform.requested targets) window change := by
      rw [changeRows, if_pos hcovers]
      exact List.mem_map_of_mem (List.mem_filter.mpr ⟨hname, decide_eq_true hid⟩)
    have hformats := h _ (List.mem_flatMap.mpr ⟨change, hmem, hrow⟩)
    rwa [hsizes name hname] at hformats
  · intro h row hrow
    obtain ⟨change, hmem, hrow⟩ := List.mem_flatMap.mp hrow
    rw [changeRows] at hrow
    split at hrow
    · rename_i hcovers
      obtain ⟨name, hname, rfl⟩ := List.mem_map.mp hrow
      obtain ⟨hname, hid⟩ := List.mem_filter.mp hname
      rw [hsizes name hname]
      exact h name hname change (List.mem_filter.mpr
        ⟨hmem, decide_eq_true ⟨of_decide_eq_true hid, hcovers⟩⟩)
    · cases hrow

/-! ## Extractions that no limit ends -/

theorem allOk_cons_ok {row : TimeValue} {items : List (Except QueryError TimeValue)}
    (h : allOk (.ok row :: items) = .ok rows) :
    ∃ rest, rows = row :: rest ∧ allOk items = .ok rest := by
  obtain ⟨row', rest, rfl, hrow, hrest⟩ := List.map_eq_cons_iff.mp (allOk_eq_ok.mp h).symm
  cases hrow
  exact ⟨rest, rfl, allOk_eq_ok.mpr hrest.symm⟩

/-- Rows that the limits allow are the rows without limits. -/
theorem answers_freed {limits : QueryLimits} {used : Usage} {ws : List Work}
    (h : allOk (answers limits used ws) = .ok rows) :
    allOk (ws.filterMap Work.item) = .ok rows := by
  induction ws generalizing used rows with
  | nil => exact h
  | cons w ws ih =>
    cases hcharge : charge limits used w with
    | error error =>
      rw [answers_cons_error hcharge] at h
      cases h
    | ok used' =>
      rw [answers_cons_ok hcharge] at h
      rw [List.filterMap_cons]
      cases hitem : w.item with
      | none =>
        rw [hitem] at h
        exact ih h
      | some item =>
        rw [hitem] at h
        cases item with
        | error error => cases h
        | ok row =>
          obtain ⟨rest, rfl, hrest⟩ := allOk_cons_ok h
          simp only [allOk, ih hrest]
          rfl

theorem fstAnswers_freed {limits : QueryLimits} {used : Usage} {ws : List FstWork}
    (h : allOk (fstAnswers limits used ws) = .ok rows) (used' : Usage) :
    allOk (fstAnswers {} used' ws) = .ok rows := by
  induction ws generalizing used used' rows with
  | nil => exact h
  | cons w ws ih =>
    cases hcharge : fstCharge limits used w with
    | error error =>
      rw [fstAnswers_cons_error hcharge] at h
      cases h
    | ok used₁ =>
      rw [fstAnswers_cons_ok hcharge] at h
      cases w with
      | callback =>
        obtain ⟨used₂, hfree⟩ := charge_unlimited used' .command
        rw [fstAnswers_cons_ok (show fstCharge {} used' .callback = .ok used₂ from hfree)]
        exact ih h used₂
      | row event =>
        obtain ⟨used₂, hfree⟩ := charge_unlimited used' (.row event)
        obtain ⟨rest, rfl, hrest⟩ := allOk_cons_ok h
        rw [fstAnswers_cons_ok (show fstCharge {} used' (.row event) = .ok used₂ from hfree)]
        exact congrArg (Except.map (event :: ·)) (ih hrest used₂)
      | failure error => cases hcharge

/-- The context without its limits. -/
def unlimited (context : QueryContext) : QueryContext := { context with limits := {} }

/-- An FST extraction that no limit ends is that without limits. -/
theorem fst_extract_freed
    (h : fst.extractWithContext env.hash env.reader env.openings targets window context =
      .ok rows) :
    context.Live ∧ fst.extractWithContext env.hash env.reader env.openings targets window
      (unlimited context) = .ok rows := by
  rw [fst_extract_items] at h
  have hprepared : ∃ prepared,
      fst.prepare env.hash env.openings targets window context = .ok prepared := by
    unfold OpenedFst.items at h
    cases hprepare : fst.prepare env.hash env.openings targets window context with
    | error error =>
      rw [hprepare] at h
      cases h
    | ok prepared => exact ⟨prepared, rfl⟩
  obtain ⟨prepared, hprepare⟩ := hprepared
  have hlive := prepare_live hprepare
  have hcheck : (unlimited context).check = context.check := rfl
  have hcount : (unlimited context).checkSignalCount targets.length =
      context.checkSignalCount targets.length := by
    have hok : context.checkSignalCount targets.length = .ok () := by
      cases hcount : context.checkSignalCount targets.length with
      | ok _ => rfl
      | error error =>
        rw [OpenedFst.prepare, hcount] at hprepare
        cases hprepare
    rw [hok, QueryContext.checkSignalCount, hcheck, QueryContext.check_live hlive]
    rfl
  have hsame : fst.prepare env.hash env.openings targets window (unlimited context) =
      .ok prepared := by
    rw [← hprepare]
    unfold OpenedFst.prepare
    rw [hcount, hcheck]
  have hrecheck : fst.recheck env.hash env.openings (unlimited context) =
      fst.recheck env.hash env.openings context := rfl
  refine ⟨hlive, ?_⟩
  rw [fst_extract_items]
  unfold OpenedFst.items at h ⊢
  rw [hprepare] at h
  rw [hsame, hrecheck]
  cases prepared with
  | none => exact h
  | some prepared =>
    obtain ⟨selection, file⟩ := prepared
    unfold readItems at h ⊢
    simp only at h ⊢
    cases hopen : env.reader.open_ file with
    | panicked =>
      rw [hopen] at h
      cases h
    | failed message =>
      rw [hopen] at h
      cases h
    | done =>
      rw [hopen] at h
      exact fstAnswers_freed h {}

/-! ## The events of a body -/

/-- A body without parse errors whose events in the window are those of the
waveform. What stands behind the first late timestamp is not read. -/
structure PresentsEvents (waveform : AbstractWaveform) (window : TimeWindow) (opened : OpenedVcd)
    (commands : List ParseResult) : Prop where
  catalog : ∀ name, (opened.signal name).map (·.idCode) = waveform.catalog name
  unchanged : opened.Unchanged commands
  parses : ∀ result ∈ scanned window commands, ∃ command, result = .ok command
  events : (timedChanges 0 (scanned window commands)).filter (fun c => Covers window c.1) =
    waveform.changes.filter fun c => Covers window c.1

theorem expand_parsed {names : IdCode → List String} (time : Nat) {commands : List ParseResult}
    (hparses : ∀ result ∈ commands, ∃ command, result = .ok command) :
    (timed time (untilError commands)).flatMap (expand names window) =
      ((timedChanges time commands).flatMap (changeRows names window)).map .ok := by
  induction commands generalizing time with
  | nil => rfl
  | cons result rest ih =>
    obtain ⟨command, rfl⟩ := hparses result List.mem_cons_self
    rw [untilError_ok, timed, List.flatMap_cons,
      ih _ fun r hr => hparses r (List.mem_cons_of_mem _ hr), timedChanges_cons,
      List.flatMap_append, List.map_append, ← rowsAt_eq]
    rfl

/-- Only changes that the window covers ask for rows. -/
theorem flatMap_covered (names : IdCode → List String)
    (changes : List (Nat × IdCode × ChangeValue)) :
    (changes.filter fun c => Covers window c.1).flatMap (changeRows names window) =
      changes.flatMap (changeRows names window) := by
  rw [flatMap_filter]
  refine congrArg (fun f => changes.flatMap f) (funext fun change => ?_)
  by_cases h : Covers window change.1
  · rw [if_pos h]
  · rw [if_neg h, changeRows, if_neg h]

variable {vcd : OpenedVcd} {commands : List ParseResult}

/-- **An extraction from a body that no limit ends** gives the rows of the
waveform's events. -/
theorem PresentsEvents.events_rows (h : PresentsEvents waveform window vcd commands)
    (hrows : vcd.extractRows targets window context = .ok rows) :
    rows = waveform.changes.flatMap (changeRows (waveform.requested targets) window) := by
  have hnames : vcd.catalog.requested targets = waveform.requested targets := by
    funext id
    refine List.filter_congr fun name _ => decide_eq_decide.mpr ?_
    rw [← h.catalog, vcd.signal_eq]
  unfold OpenedVcd.extractRows at hrows
  cases hextract : vcd.extract targets window context with
  | error error =>
    rw [hextract] at hrows
    cases hrows
  | ok iter =>
    rw [hextract] at hrows
    have hlive := (extract_starting hextract).1
    have hyields := (extract_yields hlive h.unchanged hextract).1
    have hanswers := (collect_of_yields OpenedTimeValueIter.next_shrinks hyields).symm.trans hrows
    have hfree := answers_freed hanswers
    rw [work_items, expand_parsed 0 h.parses, ← flatMap_covered, h.events, flatMap_covered,
      hnames, List.map_map] at hfree
    exact (Except.ok.inj ((allOk_map_ok _).symm.trans hfree)).symm

theorem PresentsFst.events_rows {handleOf : IdCode → Nat} {callbacks : List FstCallback}
    {file : FstFile} (h : PresentsFst waveform fst env handleOf callbacks file)
    (hfound : ∀ name ∈ targets, (fst.signal name).isSome)
    (hrows : fst.extractWithContext env.hash env.reader env.openings targets window context =
      .ok rows) :
    rows = waveform.changes.flatMap (changeRows (waveform.requested targets) window) := by
  obtain ⟨hlive, hfree⟩ := fst_extract_freed hrows
  have hcontext : (unlimited context).Unlimited := ⟨hlive, rfl⟩
  rw [h.extract_ok hcontext hfound window] at hfree
  exact (Except.ok.inj hfree).symm

/-! ## Both backends -/

/-- A backend counts, for each requested name, the adjacent pairs of the name's
events in the window whose formatted values differ. Neither the other names nor
how often a name is requested comes into it. -/
def CountsToggles (std : StdText) (width : String → Nat) (waveform : AbstractWaveform)
    (opened : OpenedWaveform η) (env : FstEnv η) (targets : List String) (window : TimeWindow)
    (context : QueryContext) : Prop :=
  ∃ counts, opened.countToggles std env targets window context = some (.ok counts) ∧
    ∀ name ∈ targets, counts name =
      some (toggles (waveform.values std (width name) window name))

/-- **When the toggle counts agree.** Both backends present the same events and
extract them without an error. The FST backend counts the toggles when every value
of a requested name has a text; the VCD backend does when moreover no empty value
of a requested name is followed by another value. -/
theorem toggle_counts_iff (std : StdText) (width : String → Nat) (waveform : AbstractWaveform)
    (vcd : OpenedVcd) (commands : List ParseResult) (fst : OpenedFst η) (env : FstEnv η)
    (handleOf : IdCode → Nat) (callbacks : List FstCallback) (file : FstFile)
    (targets : List String) (window : TimeWindow) (context : QueryContext)
    (rowsVcd rowsFst : List TimeValue) (hvcd : PresentsEvents waveform window vcd commands)
    (hfst : PresentsFst waveform fst env handleOf callbacks file)
    (hwidthVcd : ∀ name ∈ targets, (OpenedWaveform.vcd (η := η) vcd).width name = some (width name))
    (hwidthFst : ∀ name ∈ targets, (OpenedWaveform.fst fst).width name = some (width name))
    (hrowsVcd : (OpenedWaveform.vcd vcd).extract env targets window context = .ok rowsVcd)
    (hrowsFst : (OpenedWaveform.fst fst).extract env targets window context = .ok rowsFst) :
    (CountsToggles std width waveform (.vcd vcd) env targets window context ∧
        CountsToggles std width waveform (.fst fst) env targets window context ↔
      (∀ name ∈ targets, waveform.Prints std (width name) window name) ∧
        ∀ name ∈ targets, ∀ pair ∈ adjacent (waveform.values std (width name) window name),
          pair.1 = "" → pair.2 = "") ∧
      (CountsToggles std width waveform (.fst fst) env targets window context ↔
        ∀ name ∈ targets, waveform.Prints std (width name) window name) := by
  have hrepeat : ∀ (p : String → String → Bool), (∀ a, p a a = false) → ∀ name ∈ targets,
      countAdjacent p (formattedOf std (width name) name
        (waveform.changes.flatMap (changeRows (waveform.requested targets) window))) =
      countAdjacent p (waveform.values std (width name) window name) := by
    intro p hirrefl name hname
    rw [formattedOf_rows,
      countAdjacent_flatMap_replicate hirrefl (List.count_pos_iff.mpr hname)]
  have hfound : ∀ name ∈ targets, (fst.signal name).isSome := by
    intro name hname
    obtain ⟨signal, hsignal, -⟩ := Option.map_eq_some_iff.mp (hwidthFst name hname)
    exact Option.isSome_of_eq_some hsignal
  have hfstPrints : Printable std (OpenedWaveform.fst fst).width rowsFst ↔
      ∀ name ∈ targets, waveform.Prints std (width name) window name := by
    rw [hfst.events_rows hfound hrowsFst]
    exact printable_rows_iff std hwidthFst waveform window
  have hfstCounts : CountsToggles std width waveform (.fst fst) env targets window context ↔
      ∀ name ∈ targets, waveform.Prints std (width name) window name := by
    obtain ⟨hcounted, hpanics⟩ := countToggles_rows_fst std hrowsFst
    rw [← hfstPrints]
    constructor
    · rintro ⟨counts, hcounts, -⟩
      by_contra hnot
      exact hpanics hnot counts hcounts
    · intro hprintable
      obtain ⟨counts, hcounts, heach⟩ := hcounted hprintable
      refine ⟨counts, hcounts, fun name hname => ?_⟩
      rw [heach name hname _ (hwidthFst name hname), hfst.events_rows hfound hrowsFst]
      exact congrArg some (hrepeat _ (by simp) name hname)
  refine ⟨?_, hfstCounts⟩
  rw [hfstCounts, and_comm]
  refine and_congr_right fun hprints => ?_
  have hsizes : ∀ name ∈ targets, vcd.targetSizes targets name = some (width name) :=
    fun name hname => (if_pos hname).trans (hwidthVcd name hname)
  have hvcdPrints : Printable std (vcd.targetSizes targets) rowsVcd := by
    rw [hvcd.events_rows hrowsVcd]
    exact (printable_rows_iff std hsizes waveform window).mpr hprints
  obtain ⟨counts, hcounts, heach⟩ := (countToggles_rows std hrowsVcd).1 hvcdPrints
  have hvalues : ∀ name ∈ targets, counts name =
      some (countAdjacent countedPair (waveform.values std (width name) window name)) := by
    intro name hname
    obtain ⟨found, hfound, hsize⟩ := Option.map_eq_some_iff.mp (hwidthVcd name hname)
    rw [heach name hname found hfound, hsize, hvcd.events_rows hrowsVcd]
    exact congrArg some (hrepeat countedPair (by simp [countedPair]) name hname)
  have heach : ∀ name ∈ targets,
      (counts name = some (toggles (waveform.values std (width name) window name)) ↔
        ∀ pair ∈ adjacent (waveform.values std (width name) window name),
          pair.1 = "" → pair.2 = "") := by
    intro name hname
    rw [hvalues name hname, Option.some.injEq, toggles,
      countAdjacent_eq_iff (by simp [countedPair])]
    refine forall₂_congr fun pair _ => ?_
    simp only [countedPair_iff, ne_eq, decide_eq_true_eq]
    constructor
    · intro h hempty
      by_contra hne
      exact (h fun heq => hne (heq ▸ hempty)).1 hempty
    · intro h hne
      exact ⟨fun hempty => hne (hempty.trans (h hempty).symm), hne⟩
  constructor
  · intro h name hname
    obtain ⟨counts', hcounts', heach'⟩ := h
    cases hcounts.symm.trans hcounts'
    exact (heach name hname).mp (heach' name hname)
  · intro h
    exact ⟨counts, hcounts, fun name hname => (heach name hname).mpr (h name hname)⟩

/-! ## Wide values and empty texts -/

/-- A signal of 262141 bits. -/
def wideVcd (commands : List ParseResult) : OpenedVcd where
  catalog :=
    { signals := [⟨⟨33⟩, "a", 262141, .wire, none⟩]
      byName := [("a", ⟨0⟩)]
      aliasesById := [(⟨33⟩, [⟨0⟩])]
      scopes := []
      indexed := ⟨rfl, by decide⟩ }
  bodyParser := .ok commands
  validateComplete := .ok ()

def wideBody : List ParseResult := [.ok (.timestamp 0), .ok (.changeVector ⟨33⟩ [.v1])]

def wideWaveform : AbstractWaveform where
  catalog name := ((wideVcd wideBody).signal name).map (·.idCode)
  changes := [(0, ⟨33⟩, .integer 1)]

/-- A text that is empty first. -/
def textBody : List ParseResult :=
  [.ok (.timestamp 0), .ok (.changeString ⟨33⟩ ""), .ok (.timestamp 5),
    .ok (.changeString ⟨33⟩ "a")]

def textWaveform : AbstractWaveform where
  catalog name := ((aliasedVcd textBody).signal name).map (·.idCode)
  changes := [(0, ⟨33⟩, .text ""), (5, ⟨33⟩, .text "a")]

/-- The value 1 of a wide signal panics, and an empty text that changes is not
counted. -/
theorem toggles_missed :
    (aliasedVcd textBody).signal "a" = some ⟨⟨33⟩, "a", 1, .wire, none⟩ ∧
    (wideVcd wideBody).countToggles asciiText ["a"] ⟨none, none⟩ {} = none ∧
    ¬ CountsToggles asciiText (fun _ => 262141) wideWaveform (.vcd (wideVcd wideBody)) bitEnv ["a"]
      ⟨none, none⟩ {} ∧
    ¬ CountsToggles asciiText (fun _ => 1) textWaveform (.vcd (aliasedVcd textBody)) bitEnv ["a"]
      ⟨none, none⟩ {} := by
  have hcontext : ({} : QueryContext).Unlimited := ⟨⟨rfl, rfl⟩, rfl⟩
  have hpanics : (wideVcd wideBody).countToggles asciiText ["a"] ⟨none, none⟩ {} = none := by
    have hrows : (wideVcd wideBody).extractRows ["a"] ⟨none, none⟩ {} = .ok _ :=
      extractRows_ok hcontext ⟨rfl, rfl⟩ ⟨by simp [wideBody], by decide⟩ (by decide) ⟨none, none⟩
    refine (countToggles_rows asciiText hrows).2 fun hprints => ?_
    exact absurd (hprints ⟨"a", 0, .integer 1⟩ (by decide)) (by decide)
  refine ⟨rfl, hpanics, fun h => ?_, fun h => ?_⟩
  · obtain ⟨counts, hcounts, -⟩ := h
    cases hpanics.symm.trans hcounts
  · obtain ⟨counts, hcounts, heach⟩ := h
    have hrows : (aliasedVcd textBody).extractRows ["a"] ⟨none, none⟩ {} = .ok _ :=
      extractRows_ok hcontext ⟨rfl, rfl⟩ ⟨by simp [textBody], by decide⟩ (by decide) ⟨none, none⟩
    obtain ⟨counts', hcounts', heach'⟩ :=
      (countToggles_rows asciiText hrows).1 (by decide)
    cases hcounts.symm.trans hcounts'
    have hvcd := heach' "a" List.mem_cons_self ⟨⟨33⟩, "a", 1, .wire, none⟩ rfl
    have hclaimed := heach "a" List.mem_cons_self
    rw [hvcd] at hclaimed
    exact absurd hclaimed (by decide)

theorem bit_presentsEvents (window : TimeWindow) (hwindow : window.end_ = none) :
    PresentsEvents bitWaveform window (aliasedVcd bitBody) bitBody where
  catalog _ := rfl
  unchanged := ⟨rfl, rfl⟩
  parses := by
    intro result hresult
    have hmem := (List.takeWhile_prefix _).subset hresult
    simp only [bitBody, List.mem_cons, List.not_mem_nil, or_false] at hmem
    rcases hmem with rfl | rfl <;> exact ⟨_, rfl⟩
  events := by
    have hall : scanned window bitBody = bitBody := by
      simp [scanned, bitBody, isLate, hwindow]
    rw [hall]
    rfl

theorem toggle_counts_iff_bit :
    (CountsToggles asciiText (fun _ => 1) bitWaveform (.vcd (aliasedVcd bitBody)) bitEnv
          ["b", "a", "b"] ⟨none, none⟩ {} ∧
        CountsToggles asciiText (fun _ => 1) bitWaveform (.fst bitFst) bitEnv ["b", "a", "b"]
          ⟨none, none⟩ {} ↔
      (∀ name ∈ ["b", "a", "b"], bitWaveform.Prints asciiText 1 ⟨none, none⟩ name) ∧
        ∀ name ∈ ["b", "a", "b"],
          ∀ pair ∈ adjacent (bitWaveform.values asciiText 1 ⟨none, none⟩ name),
            pair.1 = "" → pair.2 = "") ∧
      (CountsToggles asciiText (fun _ => 1) bitWaveform (.fst bitFst) bitEnv ["b", "a", "b"]
          ⟨none, none⟩ {} ↔
        ∀ name ∈ ["b", "a", "b"], bitWaveform.Prints asciiText 1 ⟨none, none⟩ name) := by
  have hcontext : ({} : QueryContext).Unlimited := ⟨⟨rfl, rfl⟩, rfl⟩
  have hnames : ∀ (P : String → Prop), P "a" → P "b" → ∀ name ∈ ["b", "a", "b"], P name := by
    intro P ha hb name hname
    simp only [List.mem_cons, List.not_mem_nil, or_false] at hname
    rcases hname with rfl | rfl | rfl
    · exact hb
    · exact ha
    · exact hb
  have hvcd := extractRows_ok hcontext bit_presentsVcd.unchanged bit_presentsVcd.orderly
    (hnames (fun name => ((aliasedVcd bitBody).signal name).isSome) rfl rfl) ⟨none, none⟩
  have hfst := bit_presentsFst.extract_ok hcontext
    (hnames (fun name => (bitFst.signal name).isSome) rfl rfl) ⟨none, none⟩
  exact toggle_counts_iff asciiText (fun _ => 1) bitWaveform (aliasedVcd bitBody) bitBody bitFst
    bitEnv IdCode.code bitCallbacks bitFile ["b", "a", "b"] ⟨none, none⟩ {} _ _
    (bit_presentsEvents _ rfl) bit_presentsFst (hnames _ rfl rfl) (hnames _ rfl rfl) hvcd hfst

end VcdTools.Opened
