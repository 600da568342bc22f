import VcdTools.Lib.Fallible
import VcdTools.Lib.Pairs
import VcdTools.Query.FindOccurrence

/-! # Counting toggles

The count of a name is told by its formatted values alone. The VCD loop takes an
empty last value for no last value. -/
namespace VcdTools.Query
open VcdTools.Lib VcdTools.Lib.Iter

/-- The formatted values of a name, in the order of the rows. -/
def formattedOf (std : StdText) (size : Nat) (name : String) (rows : List TimeValue) :
    List String :=
  (rows.filter fun row => row.signal = name).map fun row => formatted std row.value size

/-- The pairs that the VCD loop counts. -/
def countedPair (last formatted : String) : Bool := last ≠ "" ∧ last ≠ formatted

theorem countedPair_iff (last formatted : String) :
    countedPair last formatted = true ↔ last ≠ "" ∧ last ≠ formatted :=
  decide_eq_true_iff

/-- The number of adjacent pairs that differ. -/
def toggles (values : List String) : Nat := countAdjacent (fun a b => a ≠ b) values

variable {std : StdText} {size : Nat} {name : String}

theorem formattedOf_cons_self (row : TimeValue) (rows : List TimeValue) (h : row.signal = name) :
    formattedOf std size name (row :: rows) =
      formatted std row.value size :: formattedOf std size name rows := by
  rw [formattedOf, List.filter_cons_of_pos (by simpa using h)]
  rfl

theorem formattedOf_cons_other (row : TimeValue) (rows : List TimeValue) (h : row.signal ≠ name) :
    formattedOf std size name (row :: rows) = formattedOf std size name rows := by
  rw [formattedOf, List.filter_cons_of_neg (by simpa using h)]
  rfl

/-! ## The VCD loop -/

/-- A value of a name moves its count and its last value. -/
theorem ToggleCounts.count_self {state : ToggleCounts} {count : Nat} {last : String}
    (hcount : state.toggleCounts name = some count) (hlast : state.lastValues name = some last)
    (text : String) :
    (state.count name text).toggleCounts name =
        some (count + if countedPair last text then 1 else 0) ∧
      (state.count name text).lastValues name = some text := by
  simp only [ToggleCounts.count, hcount, hlast, ← countedPair_iff]
  refine ⟨?_, Function.update_self _ _ _⟩
  split
  · exact Function.update_self _ _ _
  · exact hcount

theorem ToggleCounts.count_other (state : ToggleCounts) {other : String} (h : name ≠ other)
    (text : String) :
    (state.count other text).toggleCounts name = state.toggleCounts name ∧
      (state.count other text).lastValues name = state.lastValues name := by
  refine ⟨?_, Function.update_of_ne h _ _⟩
  simp only [ToggleCounts.count]
  split
  · split
    · split
      · exact Function.update_of_ne h _ _
      · rfl
    · rfl
  · rfl

/-- **The VCD loop** counts the pairs of a name whose first value is not
empty. -/
theorem fold_toggleCounts (std : StdText) {sizes : NameMap Nat} (hsize : (sizes name).getD 1 = size)
    (rows : List TimeValue) (state : ToggleCounts) {count : Nat} {last : String}
    (hcount : state.toggleCounts name = some count) (hlast : state.lastValues name = some last) :
    (rows.foldl (fun state row => state.count row.signal
        (formatted std row.value ((sizes row.signal).getD 1))) state).toggleCounts name =
      some (count + countAdjacent countedPair (last :: formattedOf std size name rows)) := by
  induction rows generalizing state count last with
  | nil => exact hcount
  | cons row rows ih =>
    rw [List.foldl_cons]
    by_cases h : row.signal = name
    · subst h
      obtain ⟨hcount', hlast'⟩ := ToggleCounts.count_self hcount hlast
        (formatted std row.value ((sizes row.signal).getD 1))
      rw [ih _ hcount' hlast', formattedOf_cons_self row rows rfl, countAdjacent_cons, hsize,
        Nat.add_assoc]
    · obtain ⟨hcount', hlast'⟩ := ToggleCounts.count_other state (Ne.symm h)
        (formatted std row.value ((sizes row.signal).getD 1))
      rw [ih _ (hcount'.trans hcount) (hlast'.trans hlast), formattedOf_cons_other row rows h]

/-- The loop panics at the first row that has no text. -/
theorem foldlM_toggleCounts (std : StdText) (sizes : NameMap Nat) (state : ToggleCounts)
    (rows : List TimeValue) :
    rows.foldlM (ToggleCounts.next std sizes) state =
      if Printable std sizes rows then
        some (rows.foldl (fun state row => state.count row.signal
          (formatted std row.value ((sizes row.signal).getD 1))) state)
      else none :=
  Fallible.foldlM_option (fun state row => by
    rw [ToggleCounts.next, formatValueForSignal_eq]
    split <;> rfl) state rows

variable {opened : OpenedVcd} {targets : List String} {window : TimeWindow}
  {context : QueryContext} {rows : List TimeValue}

/-- A count visits the items of the extraction. -/
theorem countToggles_eq {items : List (Except QueryError TimeValue)}
    (hcount : context.checkSignalCount targets.length = .ok ())
    (hitems : opened.Delivers targets window context items) :
    opened.countToggles std targets window context =
      unwound ((visit (unwinding fun state event =>
        (ToggleCounts.next std (opened.targetSizes targets) state event).map .ok)
        (some ⟨forTargets targets 0, forTargets targets ""⟩) items).map
          fun ended => ended.2.map (·.toggleCounts)) := by
  unfold OpenedVcd.Delivers at hitems
  unfold OpenedVcd.countToggles
  simp only [hcount, bind, Except.bind, pure, Except.pure]
  refine congrArg unwound ?_
  cases hextract : opened.extract targets window context with
  | error error =>
    rw [hextract] at hitems
    subst hitems
    rfl
  | ok iter =>
    rw [hextract] at hitems
    have hvisit := forEach_visit (unwinding fun state event =>
      (ToggleCounts.next std (opened.targetSizes targets) state event).map .ok)
      (some ⟨forTargets targets 0, forTargets targets ""⟩) hitems
    rw [← hvisit]
    simp only
    cases iter.forEach (unwinding fun state event =>
        (ToggleCounts.next std (opened.targetSizes targets) state event).map .ok)
        (some ⟨forTargets targets 0, forTargets targets ""⟩) with
    | error error => rfl
    | ok ended => rfl

/-- **Counting in a VCD**: an extraction without errors gives the counts, or panics
at a row without a text. -/
theorem countToggles_rows (std : StdText)
    (h : opened.extractRows targets window context = .ok rows) :
    (Printable std (opened.targetSizes targets) rows →
      ∃ counts, opened.countToggles std targets window context = some (.ok counts) ∧
        ∀ name ∈ targets, ∀ found, opened.signal name = some found → counts name =
          some (countAdjacent countedPair (formattedOf std found.size name rows))) ∧
    (¬ Printable std (opened.targetSizes targets) rows →
      opened.countToggles std targets window context = none) := by
  unfold OpenedVcd.extractRows at h
  cases hextract : opened.extract targets window context with
  | error error =>
    rw [hextract] at h
    cases h
  | ok iter =>
    rw [hextract] at h
    obtain ⟨-, hcounted, hstarts⟩ := extract_starting hextract
    obtain ⟨items, hitems⟩ := iter.exists_yields hstarts.filled
    have hrows : allOk items = .ok rows :=
      (collect_of_yields OpenedTimeValueIter.next_shrinks hitems).symm.trans h
    have hdelivers : opened.Delivers targets window context items := by
      rw [OpenedVcd.Delivers, hextract]
      exact hitems
    rw [countToggles_eq hcounted hdelivers, allOk_eq_ok.mp hrows, visit_unwinding,
      foldlM_toggleCounts]
    constructor
    · intro hprintable
      rw [if_pos hprintable]
      refine ⟨_, rfl, fun name hname found hfound => ?_⟩
      have hsize : (opened.targetSizes targets name).getD 1 = found.size := by
        simp [OpenedVcd.targetSizes, hname, hfound]
      have hzero : forTargets targets 0 name = some 0 := if_pos hname
      have hempty : forTargets targets "" name = some "" := if_pos hname
      have hfold := fold_toggleCounts std hsize rows
        ⟨forTargets targets 0, forTargets targets ""⟩ hzero hempty
      rw [Nat.zero_add, countAdjacent_cons_of_not fun b => by simp [countedPair]] at hfold
      exact hfold
    · intro hnot
      rw [if_neg hnot]
      rfl

end VcdTools.Query
