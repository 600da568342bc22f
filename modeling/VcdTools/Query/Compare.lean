import VcdTools.Query.Context
import VcdTools.Lib.Merge
import Mathlib.Data.String.Basic
import Mathlib.Data.List.Sort

/-! # Comparing two waveforms

`query/compare.rs`, and `SignalMismatch`, `ComparisonOptions`,
`ComparisonResult` and `JsonComparisonResult` of `lib.rs`. The test hook of the
timeline comparison does nothing outside the tests and is left out. -/
namespace VcdTools.Query
open VcdTools.Lib

/-- `TIMELINE_CONTEXT_CHECK_INTERVAL`. -/
def timelineContextCheckInterval : Nat := 4096

/-- What the standard library prints: `impl Display for f64`, and
`str::to_lowercase`, which maps ASCII text letter by letter; and what panics: a
wider field than `format!` takes, and an overflow, where the build checks it. -/
structure StdText where
  floatText : F64 → String
  toLowercase : String → String
  toLowercase_ascii : ∀ s : String, (∀ c ∈ s.toList, c.toNat < 128) →
    (toLowercase s).toList = s.toList.map Char.toLower
  maxWidth : Nat
  overflowChecks : Bool

/-- `str::eq_ignore_ascii_case`. -/
def eqIgnoreAsciiCase (a b : String) : Bool :=
  a.toList.map Char.toLower = b.toList.map Char.toLower

/-- `ChangeValue::normalize`. -/
def normalize (std : StdText) : ChangeValue → String
  | .integer i => Nat.repr i
  | .float f => std.floatText f
  | .text t => std.toLowercase t

/-- `is_unknown`. -/
def isUnknown : ChangeValue → Bool
  | .text text => eqIgnoreAsciiCase text "x" || eqIgnoreAsciiCase text "z"
  | _ => false

/-- `values_match`. -/
def valuesMatch (std : StdText) (first second : ChangeValue) (ignoreUnknown : Bool) : Bool :=
  if ignoreUnknown && (isUnknown first || isUnknown second) then true
  else
    match first, second with
    | .integer a, .integer b => a = b
    | .float a, .float b => a.bits = b.bits
    | .text a, .text b => eqIgnoreAsciiCase a b
    | _, _ => normalize std first = normalize std second

structure SignalMismatch where
  signalName : String
  time : Nat
  value1 : ChangeValue
  value2 : ChangeValue
  isUnknown : Bool
  deriving DecidableEq, Repr

structure ComparisonOptions where
  maxMismatches : Option Nat := none
  signalsOnly : List String := []
  ignoreUnknown : Bool := false
  timeWindow : TimeWindow := ⟨none, none⟩
  deriving DecidableEq, Repr

structure ComparisonResult where
  file1 : String
  file2 : String
  commonSignals : List String
  signalsOnlyInFile1 : List String
  signalsOnlyInFile2 : List String
  mismatches : List SignalMismatch
  totalMismatches : Nat
  signalsWithMismatches : Nat
  passed : Bool
  deriving DecidableEq, Repr

abbrev Timeline := List (Nat × ChangeValue)

abbrev SignalTimelines := List (String × Timeline)

/-- `TimelineProvider`. A provider answers every call of a comparison in the
same way, as its source does while nobody writes to it. -/
structure TimelineProvider where
  orderedSignalNames : List String
  displayName : String
  collectTimelines : List String → ComparisonOptions → QueryContext →
    Except QueryError SignalTimelines
  validateComplete : QueryContext → Except QueryError Unit

/-! ## The comparison of one signal -/

/-- The locals of `compare_signal_timeline_with_hook`; `first` and `second` are
what stands from `i` and `j` on. -/
structure TimelineMerge where
  first : Timeline
  second : Timeline
  current1 : ChangeValue
  current2 : ChangeValue
  workUnits : Nat
  count : Nat
  mismatches : List SignalMismatch

/-- `poll_timeline_context`. -/
def pollTimelineContext (context : QueryContext) (workUnits : Nat) : Except QueryError Nat :=
  let workUnits := saturatingAdd workUnits 1
  if workUnits % timelineContextCheckInterval = 0 then do
    context.check
    return workUnits
  else return workUnits

/-- An inner loop: it polls once for each entry at `time` and keeps its value. -/
def takeTime (context : QueryContext) (time : Nat) (current : ChangeValue) (workUnits : Nat) :
    Timeline → Except QueryError (Timeline × ChangeValue × Nat)
  | [] => .ok ([], current, workUnits)
  | (t, value) :: rest =>
    if t = time then do
      let workUnits ← pollTimelineContext context workUnits
      takeTime context time value workUnits rest
    else .ok ((t, value) :: rest, current, workUnits)

theorem takeTime_ok {context : QueryContext} {time workUnits workUnits' : Nat}
    {current current' : ChangeValue} {entries entries' : Timeline}
    (h : takeTime context time current workUnits entries = .ok (entries', current', workUnits')) :
    entries' = Merge.after time entries ∧ current' = Merge.latest time current entries := by
  induction entries generalizing current workUnits with
  | nil =>
    cases h
    exact ⟨rfl, rfl⟩
  | cons entry rest ih =>
    obtain ⟨t, value⟩ := entry
    rw [takeTime] at h
    by_cases ht : t = time
    · rw [if_pos ht] at h
      cases hpoll : pollTimelineContext context workUnits with
      | error e =>
        rw [hpoll] at h
        cases h
      | ok workUnits =>
        rw [hpoll] at h
        obtain ⟨hentries, hcurrent⟩ := ih h
        rw [hentries, hcurrent, Merge.after, Merge.after, List.dropWhile_cons_of_pos (by simpa),
          Merge.latest, if_pos ht]
        exact ⟨rfl, rfl⟩
    · rw [if_neg ht] at h
      cases h
      rw [Merge.after, List.dropWhile_cons_of_neg (by simpa), Merge.latest, if_neg ht]
      exact ⟨rfl, rfl⟩

variable (std : StdText) (signal : String) (options : ComparisonOptions) (context : QueryContext)

def SignalMismatch.new (signal : String) (time : Nat) (value1 value2 : ChangeValue) :
    SignalMismatch :=
  ⟨signal, time, value1, value2, Query.isUnknown value1 || Query.isUnknown value2⟩

set_option linter.unusedVariables false in
/-- The outer loop of `compare_signal_timeline_with_hook`. -/
def compareLoop (m : TimelineMerge) : Except QueryError TimelineMerge :=
  if m.first = [] ∧ m.second = [] then .ok m
  else
    let time := min (Merge.headTime u64Max m.first) (Merge.headTime u64Max m.second)
    if hstop : time = u64Max then .ok m
    else
      match hfirst : takeTime context time m.current1 m.workUnits m.first with
      | .error error => .error error
      | .ok (first, current1, workUnits) =>
        match hsecond : takeTime context time m.current2 workUnits m.second with
        | .error error => .error error
        | .ok (second, current2, workUnits) =>
          let next : TimelineMerge :=
            { first, second, current1, current2, workUnits
              count := m.count
              mismatches := m.mismatches }
          if valuesMatch std current1 current2 options.ignoreUnknown then compareLoop next
          else
            match context.check with
            | .error error => .error error
            | .ok () =>
              let reported := { next with
                count := next.count + 1
                mismatches := next.mismatches ++ [.new signal time current1 current2] }
              if options.maxMismatches.any fun maximum => reported.count ≥ maximum then
                .ok reported
              else compareLoop reported
termination_by m.first.length + m.second.length
decreasing_by
  all_goals
    have hlt := Merge.length_after_lt u64Max rfl hstop
    rw [← (takeTime_ok hfirst).1, ← (takeTime_ok hsecond).1] at hlt
    exact hlt

/-- `compare_signal_timeline`: the number of mismatches, and the list with them
at its end. -/
def compareSignalTimeline (first second : Timeline) (mismatches : List SignalMismatch) :
    Except QueryError (Nat × List SignalMismatch) := do
  let m ← compareLoop std signal options context
    { first, second, mismatches
      current1 := .text "x"
      current2 := .text "x"
      workUnits := 0
      count := 0 }
  return (m.count, m.mismatches)

/-! ## The comparison of two providers -/

/-- `values.get(signal).map(Vec::as_slice).unwrap_or(&[])`. -/
def SignalTimelines.timeline (values : SignalTimelines) (signal : String) : Timeline :=
  (values.lookup signal).getD []

/-- The loop of `compare_providers`: the mismatches, and how many signals have
some. -/
def compareSignals (values1 values2 : SignalTimelines) :
    List SignalMismatch → Nat → List String → Except QueryError (List SignalMismatch × Nat)
  | mismatches, signalsWithMismatches, [] => .ok (mismatches, signalsWithMismatches)
  | mismatches, signalsWithMismatches, signal :: signals => do
    context.check
    let (count, mismatches) ← compareSignalTimeline std signal options context
      (SignalTimelines.timeline values1 signal) (SignalTimelines.timeline values2 signal) mismatches
    compareSignals values1 values2 mismatches
      (if count > 0 then signalsWithMismatches + 1 else signalsWithMismatches) signals

/-- `common_signals`, sorted by `Ord for str`. -/
def commonSignals (names1 names2 : List String) : List String :=
  (names1.filter fun name => names2.contains name).mergeSort (· ≤ ·)

/-- `signals_to_compare`. -/
def signalsToCompare (options : ComparisonOptions) (common : List String) : List String :=
  if options.signalsOnly.isEmpty then common
  else common.filter fun signal => options.signalsOnly.contains signal

/-- `compare_providers`. -/
def compareProviders (first second : TimelineProvider) (options : ComparisonOptions)
    (context : QueryContext) : Except QueryError ComparisonResult := do
  context.check
  let names1 := first.orderedSignalNames
  let names2 := second.orderedSignalNames
  let common := commonSignals names1 names2
  let signals := signalsToCompare options common
  context.checkSignalCount signals.length
  let values1 ← first.collectTimelines signals options context
  first.validateComplete context
  let values2 ← second.collectTimelines signals options context
  second.validateComplete context
  let (mismatches, signalsWithMismatches) ←
    compareSignals std options context values1 values2 [] 0 signals
  context.check
  first.validateComplete context
  second.validateComplete context
  context.check
  return {
    file1 := first.displayName
    file2 := second.displayName
    commonSignals := common
    signalsOnlyInFile1 := names1.filter fun name => !names2.contains name
    signalsOnlyInFile2 := names2.filter fun name => !names1.contains name
    mismatches := mismatches
    totalMismatches := mismatches.length
    signalsWithMismatches := signalsWithMismatches
    passed := mismatches.isEmpty }

/-! ## The JSON form of a result -/

structure JsonComparisonResult where
  file1 : String
  file2 : String
  commonSignalCount : Nat
  signalsOnlyInFile1 : List String
  signalsOnlyInFile2 : List String
  mismatchesBySignal : List (String × Nat)
  totalMismatches : Nat
  signalsWithMismatches : Nat
  passed : Bool
  deriving DecidableEq, Repr

/-- `*counts.entry(name).or_insert(0) += 1`. -/
def bump (name : String) : List (String × Nat) → List (String × Nat)
  | [] => [(name, 1)]
  | (key, count) :: counts =>
    if key = name then (key, count + 1) :: counts else (key, count) :: bump name counts

/-- `impl From<&ComparisonResult> for JsonComparisonResult`. -/
def JsonComparisonResult.ofResult (result : ComparisonResult) : JsonComparisonResult where
  file1 := result.file1
  file2 := result.file2
  commonSignalCount := result.commonSignals.length
  signalsOnlyInFile1 := result.signalsOnlyInFile1
  signalsOnlyInFile2 := result.signalsOnlyInFile2
  mismatchesBySignal := result.mismatches.foldl (fun counts m => bump m.signalName counts) []
  totalMismatches := result.totalMismatches
  signalsWithMismatches := result.signalsWithMismatches
  passed := result.passed

end VcdTools.Query
