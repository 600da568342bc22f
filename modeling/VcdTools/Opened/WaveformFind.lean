import VcdTools.Opened.FstItems
import VcdTools.Opened.Waveform
import VcdTools.Query.CompareProviders
import VcdTools.Query.FindOccurrence

/-! # Finding an occurrence in either format

`find_nth_occurrence` of `opened/waveform.rs`. The VCD backend leaves a loop
over its iterator, the FST backend stops its reader from the callback; both
answer what a search in the items of the extraction gives. -/
namespace VcdTools.Opened
open VcdTools.Lib VcdTools.Lib.Iter VcdTools.Query

variable {η : Type}

/-- `OpenedWaveform::width`. -/
def OpenedWaveform.width (waveform : OpenedWaveform η) (signal : String) : Option Nat :=
  match waveform with
  | .vcd opened => (opened.signal signal).map (·.size)
  | .fst opened => (opened.signal signal).map (·.width)

variable [DecidableEq η]

/-- `OpenedWaveform::find_nth_occurrence`. -/
def OpenedWaveform.findNthOccurrence (waveform : OpenedWaveform η) (std : StdText)
    (env : FstEnv η) (signal : String) (target : TargetValue) (occurrence : Nat)
    (window : TimeWindow) (context : QueryContext) :
    Except QueryError (Option TimeValue × Nat) := do
  if occurrence = 0 then throw (.vcd .invalidOccurrence)
  match waveform with
  | .vcd opened => opened.findNthOccurrence std signal target occurrence window context
  | .fst opened =>
    match (opened.signal signal).map (·.width) with
    | none => throw (.signalNotFound signal)
    | some width =>
      let normalized := target.normalize std
      let state ← opened.visitChangesUntil context (nthOccurrence std normalized occurrence)
        env.hash env.reader env.openings [signal] window {}
      return (state.found, width)

/-! ## The items of an extraction -/

/-- **An extraction delivers these items**, one by one and in this order. -/
def OpenedWaveform.Delivers (waveform : OpenedWaveform η) (env : FstEnv η) (targets : List String)
    (window : TimeWindow) (context : QueryContext)
    (items : List (Except QueryError TimeValue)) : Prop :=
  match waveform with
  | .vcd opened => opened.Delivers targets window context items
  | .fst opened =>
    opened.Delivers env.hash env.reader env.openings targets window context items

theorem OpenedWaveform.exists_delivers (waveform : OpenedWaveform η) (env : FstEnv η)
    (targets : List String) (window : TimeWindow) (context : QueryContext) :
    ∃ items, waveform.Delivers env targets window context items := by
  cases waveform with
  | vcd opened => exact opened.exists_delivers targets window context
  | fst opened => exact ⟨_, delivers_items opened env.hash env.reader env.openings targets window
      context⟩

variable {waveform : OpenedWaveform η} {env : FstEnv η} {targets : List String}
  {window : TimeWindow} {context : QueryContext} {items : List (Except QueryError TimeValue)}

/-- Collecting the rows gives the result of the items. -/
theorem OpenedWaveform.Delivers.extract (h : waveform.Delivers env targets window context items) :
    waveform.extract env targets window context = allOk items := by
  cases waveform with
  | vcd opened =>
    change opened.Delivers targets window context items at h
    change opened.extractRows targets window context = _
    unfold OpenedVcd.Delivers at h
    unfold OpenedVcd.extractRows
    cases hextract : opened.extract targets window context with
    | error error =>
      rw [hextract] at h
      subst h
      rfl
    | ok iter =>
      rw [hextract] at h
      exact collect_of_yields OpenedTimeValueIter.next_shrinks h
  | fst opened =>
    have hrows := h (List TimeValue) pushRow []
    rw [visit_total fun rows row => rows ++ [row]] at hrows
    change opened.extractWithContext env.hash env.reader env.openings targets window context = _
    rw [OpenedFst.extractWithContext, hrows]
    cases allOk items with
    | error error => rfl
    | ok rows =>
      refine congrArg Except.ok ?_
      rw [List.foldl_append_eq_append, ← List.flatMap_def, List.flatMap_singleton',
        List.nil_append]

/-- The check of the source after a row is found. -/
def OpenedWaveform.recheck (waveform : OpenedWaveform η) (env : FstEnv η)
    (context : QueryContext) : Except QueryError Unit :=
  match waveform with
  | .vcd opened => opened.recheck context
  | .fst opened => opened.recheck env.hash env.openings context

/-! ## The search -/

variable {std : StdText} {target : TargetValue} {occurrence : Nat}

/-- A search that goes through all items has found nothing. -/
theorem visit_through (hoccurrence : 1 ≤ occurrence) {state : Occurrences}
    (h : visit (nthOccurrence std (target.normalize std) occurrence) {} items =
      .ok (true, state)) : state.found = none := by
  rcases nth_cases items (isMatch std target) hoccurrence with
    ⟨before, row, after, rfl, hmatch, hcount⟩ | ⟨rows, rfl, hcount⟩ |
    ⟨before, error, after, rfl, hcount⟩
  · rw [visit_hit after hmatch hcount] at h
    cases h
  · rw [visit_miss hcount] at h
    cases h
    rfl
  · rw [visit_broken error after hcount] at h
    cases h

/-- **Both backends search the items** of the extraction. -/
theorem findNthOccurrence_searched (std : StdText) (waveform : OpenedWaveform η)
    (env : FstEnv η) (target : TargetValue) {signal : String} {width : Nat}
    (hwidth : waveform.width signal = some width) (hoccurrence : 1 ≤ occurrence)
    (hitems : waveform.Delivers env [signal] window context items) :
    waveform.findNthOccurrence std env signal target occurrence window context =
      searched (waveform.recheck env context) width
        (visit (nthOccurrence std (target.normalize std) occurrence) {} items) := by
  have hzero : occurrence ≠ 0 := by omega
  unfold OpenedWaveform.findNthOccurrence
  rw [if_neg hzero]
  cases waveform with
  | vcd opened =>
    obtain ⟨found, hfound, rfl⟩ := Option.map_eq_some_iff.mp hwidth
    exact findNthOccurrence_eq hfound hoccurrence hitems
  | fst opened =>
    change (opened.signal signal).map (·.width) = some width at hwidth
    have hvisit := hitems Occurrences (nthOccurrence std (target.normalize std) occurrence) {}
    simp only [hwidth, hvisit]
    cases hsearch : visit (nthOccurrence std (target.normalize std) occurrence) {} items with
    | error error => rfl
    | ok ended =>
      obtain ⟨_ | _, state⟩ := ended
      · change _ = (opened.recheck env.hash env.openings context).map _
        cases opened.recheck env.hash env.openings context <;> rfl
      · rw [searched, ← visit_through hoccurrence hsearch]
        rfl

/-- The same waveform with a stream that goes on behind its end: `more` of a
body, or more callbacks and any other ending of a read. -/
inductive Extends : OpenedWaveform η → FstEnv η → OpenedWaveform η → FstEnv η → Prop
  | vcd (opened : OpenedVcd) (commands more : List ParseResult) (env env' : FstEnv η) :
      opened.bodyParser = .ok commands →
      Extends (.vcd opened) env (.vcd (opened.longer commands more)) env'
  | fst (opened : OpenedFst η) (env : FstEnv η) (reader : FstReader) :
      env.reader.Extends reader →
      Extends (.fst opened) env (.fst opened) { env with reader := reader }

/-- **A row that is found stays found** when the stream goes on. -/
theorem findNthOccurrence_extends {signal : String} {row : TimeValue} {width : Nat}
    {waveform' : OpenedWaveform η} {env' : FstEnv η} (hmore : Extends waveform env waveform' env')
    (hwidth : waveform.width signal = some width) (hoccurrence : 1 ≤ occurrence)
    (h : waveform.findNthOccurrence std env signal target occurrence window context =
      .ok (some row, width)) :
    waveform'.findNthOccurrence std env' signal target occurrence window context =
      .ok (some row, width) := by
  cases hmore with
  | vcd opened commands more env env' hbody =>
    have hzero : occurrence ≠ 0 := by omega
    unfold OpenedWaveform.findNthOccurrence at h ⊢
    rw [if_neg hzero] at h ⊢
    exact findNthOccurrence_longer more hbody h
  | fst opened env reader hreader =>
    have hitems := delivers_items opened env.hash env.reader env.openings [signal] window context
    have hitems' := delivers_items opened env.hash reader env.openings [signal] window context
    rw [findNthOccurrence_searched std (.fst opened) env target hwidth hoccurrence hitems] at h
    rw [findNthOccurrence_searched std (.fst opened) { env with reader := reader } target hwidth
      hoccurrence hitems']
    cases hvisit : visit (nthOccurrence std (target.normalize std) occurrence) {}
        (opened.items env.hash env.reader env.openings [signal] window context) with
    | error error =>
      rw [hvisit] at h
      cases h
    | ok ended =>
      obtain ⟨_ | _, state⟩ := ended
      · rw [hvisit] at h
        rw [items_extends opened env.hash hreader env.openings [signal] window hvisit]
        exact h
      · rw [hvisit] at h
        cases h

/-- What a search for a signal answers, by the items of the extraction of this
signal. -/
structure FindsByItems (std : StdText) (waveform : OpenedWaveform η) (env : FstEnv η)
    (signal : String) (width : Nat) (target : TargetValue) (occurrence : Nat)
    (window : TimeWindow) (context : QueryContext) (items : List (Except QueryError TimeValue)) :
    Prop where
  delivers : waveform.Delivers env [signal] window context items
  extracts : waveform.extract env [signal] window context = allOk items
  /-- The k-th matching row, once the source passes its last check. -/
  found : ∀ (before : List TimeValue) (row : TimeValue)
      (after : List (Except QueryError TimeValue)),
    items = before.map .ok ++ .ok row :: after → isMatch std target row = true →
      (before.filter (isMatch std target)).length + 1 = occurrence →
      waveform.findNthOccurrence std env signal target occurrence window context =
        (waveform.recheck env context).map fun _ => (some row, width)
  missing : waveform.findNthOccurrence std env signal target occurrence window context =
      .ok (none, width) ↔
    ∃ rows : List TimeValue, items = rows.map .ok ∧
      (rows.filter (isMatch std target)).length < occurrence
  failed : ∀ (before : List TimeValue) (error : QueryError)
      (after : List (Except QueryError TimeValue)),
    items = before.map .ok ++ .error error :: after →
      (before.filter (isMatch std target)).length < occurrence →
      waveform.findNthOccurrence std env signal target occurrence window context = .error error
  /-- Nothing behind a row that is found changes the answer. -/
  stays : ∀ row waveform' env', Extends waveform env waveform' env' →
    waveform.findNthOccurrence std env signal target occurrence window context =
      .ok (some row, width) →
    waveform'.findNthOccurrence std env' signal target occurrence window context =
      .ok (some row, width)

/-- **find returns the k-th match of extract**, in both backends and whatever
the stream, the window and the limits: the k-th matching row of the extraction,
nothing exactly when the extraction ends before it without an error, and the
extraction's own error when that comes first. -/
theorem find_kth_match (std : StdText) (waveform : OpenedWaveform η) (env : FstEnv η)
    (signal : String) (width : Nat) (hwidth : waveform.width signal = some width)
    (target : TargetValue) (occurrence : Nat) (hoccurrence : 1 ≤ occurrence)
    (window : TimeWindow) (context : QueryContext) :
    ∃ items, FindsByItems std waveform env signal width target occurrence window context items := by
  obtain ⟨items, hitems⟩ := waveform.exists_delivers env [signal] window context
  have hsearch := findNthOccurrence_searched std waveform env target hwidth hoccurrence hitems
  refine ⟨items, hitems, hitems.extract, ?_, ?_, ?_, fun row waveform' env' hmore h =>
    findNthOccurrence_extends hmore hwidth hoccurrence h⟩
  · intro before row after heq hmatch hcount
    rw [hsearch, heq, visit_hit after hmatch hcount]
    rfl
  · rw [hsearch]
    constructor
    · intro hnone
      rcases nth_cases items (isMatch std target) hoccurrence with
        ⟨before, row, after, rfl, hmatch, hcount⟩ | h | ⟨before, error, after, rfl, hcount⟩
      · rw [visit_hit after hmatch hcount, searched] at hnone
        cases hcheck : waveform.recheck env context with
        | ok _ =>
          rw [hcheck] at hnone
          cases hnone
        | error error =>
          rw [hcheck] at hnone
          cases hnone
      · exact h
      · rw [visit_broken error after hcount] at hnone
        cases hnone
    · intro h
      obtain ⟨rows, rfl, hcount⟩ := h
      rw [visit_miss hcount]
      rfl
  · intro before error after heq hcount
    rw [hsearch, heq, visit_broken error after hcount]
    rfl

theorem find_kth_match_bit :
    ∃ items, FindsByItems asciiText (.fst bitFst) bitEnv "a" 1 (.text "1") 1 ⟨none, some 5⟩ {}
      items :=
  find_kth_match asciiText (.fst bitFst) bitEnv "a" 1 rfl (.text "1") 1 (Nat.le_refl 1)
    ⟨none, some 5⟩ {}

end VcdTools.Opened
