import VcdTools.Cli.Extract
import VcdTools.Query.CompareProviders

/-! # The compare command

`handle_compare` of `main.rs`: what it prints of a result, as one line, as JSON
or as a report that groups the mismatches by their signal. The report is shown
to be the one that goes through the compared signals in order. -/
namespace VcdTools.Cli
open VcdTools.Lib VcdTools.Query

/-- `serde_json::to_string_pretty` prints the structure that is given to it. -/
inductive CompareOutput
  | json (result : JsonComparisonResult)
  | lines (lines : List String)

def doubleRule : String := "=========================================="

def onlyIn (header : String) (signals : List String) : List String :=
  if signals = [] then [] else header :: (signals.map fun sig => "  - " ++ sig) ++ [""]

/-- `mismatches_by_signal`. -/
def mismatchesBySignal (mismatches : List SignalMismatch) : Groups String SignalMismatch :=
  Groups.pushAll [] (mismatches.map fun mm => (mm.signalName, mm))

def mismatchLine (std : StdText) (mm : SignalMismatch) : String :=
  "  Time #" ++ Nat.repr mm.time ++ ": Ref='" ++ displayValue std mm.value1 ++ "' | Actual='" ++
    displayValue std mm.value2 ++ "' " ++
    if mm.isUnknown then "(one or both unknown)" else "❌ MISMATCH"

/-- The lines of one signal; at most ten of its mismatches are shown. -/
def signalLines (std : StdText) (signalName : String) (mismatches : List SignalMismatch) :
    List String :=
  ("Signal: " ++ signalName) :: (mismatches.take 10).map (mismatchLine std) ++
    (if mismatches.length > 10 then
      ["  ... and " ++ Nat.repr (mismatches.length - 10) ++ " more"] else []) ++
    ["  ❌ " ++ Nat.repr mismatches.length ++ " mismatches", ""]

/-- Down to the number of common signals. -/
def compareIntro (result : ComparisonResult) : List String :=
  [doubleRule, "Waveform Comparison Results", doubleRule, "", "Reference: " ++ result.file1,
    "Actual:    " ++ result.file2, ""] ++
  onlyIn "Signals only in reference:" result.signalsOnlyInFile1 ++
  onlyIn "Signals only in actual:" result.signalsOnlyInFile2 ++
  ["Common signals: " ++ Nat.repr result.commonSignals.length, ""]

def compareSummary (result : ComparisonResult) : List String :=
  [doubleRule, "Summary", doubleRule, ""] ++
  (if result.passed then
    ["✅ SUCCESS: All signal values match!", "", "The two waveform files are equivalent."]
  else
    ["❌ FAILURES FOUND", "", "Total mismatches: " ++ Nat.repr result.totalMismatches,
      "Signals with mismatches: " ++ Nat.repr result.signalsWithMismatches ++ " / " ++
        Nat.repr result.commonSignals.length]) ++
  [""]

/-- The section of the signals; a missing key of the map panics. -/
def compareDetails (std : StdText) (result : ComparisonResult) : Except CliError (List String) :=
  if result.passed then
    .ok ["All common signals match (" ++ Nat.repr result.commonSignals.length ++ " total).", ""]
  else do
    let groups := mismatchesBySignal result.mismatches
    let mismatchSignals := groups.keys.mergeSort (· ≤ ·)
    let blocks ← mismatchSignals.mapM fun signalName =>
      match groups.get signalName with
      | some mismatches => .ok (signalLines std signalName mismatches)
      | none => .error .panicked
    return blocks.flatten ++
      ["Matched signals: " ++
        Nat.repr (result.commonSignals.length - result.signalsWithMismatches) ++ " / " ++
        Nat.repr result.commonSignals.length, ""]

/-- `handle_compare`. -/
def handleCompare (std : StdText) (result : ComparisonResult) (outputFormat : Option String) :
    Except CliError CompareOutput :=
  let format := outputFormat.getD "default"
  if format = "json" then .ok (.json (.ofResult result))
  else if format = "compact" then
    .ok (.lines [
      if result.passed then
        "✅ PASS: All " ++ Nat.repr result.commonSignals.length ++ " signals match"
      else
        "❌ FAIL: " ++ Nat.repr result.signalsWithMismatches ++ "/" ++
          Nat.repr result.commonSignals.length ++ " signals have mismatches (" ++
          Nat.repr result.totalMismatches ++ " total)"])
  else if result.commonSignals = [] then
    .ok (.lines (compareIntro result ++ ["⚠️  No common signals to compare!"]))
  else do
    let details ← compareDetails std result
    return .lines (compareIntro result ++
      [doubleRule, "Signal Value Comparison", doubleRule, ""] ++ details ++ compareSummary result)

/-! ## What the report is for -/

/-- What is to be said of a comparison: `different` are the compared signals that
differ, and `reports` where they do. -/
structure Verdict where
  common : List String
  different : List String
  reports : String → List SignalMismatch

namespace Verdict
variable (v : Verdict)

def total : Nat := (v.different.map fun signal => (v.reports signal).length).sum

/-- The common signals that are not reported. -/
def matched : List String := v.common.filter fun signal => signal ∉ v.different

/-- The section of the signals, one signal that differs after the other. -/
def details (std : StdText) : List String :=
  if v.different = [] then
    ["All common signals match (" ++ Nat.repr v.common.length ++ " total).", ""]
  else
    (v.different.flatMap fun signal => signalLines std signal (v.reports signal)) ++
      ["Matched signals: " ++ Nat.repr v.matched.length ++ " / " ++ Nat.repr v.common.length, ""]

def summary : List String :=
  [doubleRule, "Summary", doubleRule, ""] ++
  (if v.different = [] then
    ["✅ SUCCESS: All signal values match!", "", "The two waveform files are equivalent."]
  else
    ["❌ FAILURES FOUND", "", "Total mismatches: " ++ Nat.repr v.total,
      "Signals with mismatches: " ++ Nat.repr v.different.length ++ " / " ++
        Nat.repr v.common.length]) ++
  [""]

def compact : String :=
  if v.different = [] then "✅ PASS: All " ++ Nat.repr v.common.length ++ " signals match"
  else "❌ FAIL: " ++ Nat.repr v.different.length ++ "/" ++ Nat.repr v.common.length ++
    " signals have mismatches (" ++ Nat.repr v.total ++ " total)"

end Verdict

/-- The verdict on two providers that gave these timelines. -/
def verdictOf (std : StdText) (options : ComparisonOptions) (first second : TimelineProvider)
    (timelines1 timelines2 : String → Timeline) : Verdict where
  common := commonSignals first.orderedSignalNames second.orderedSignalNames
  different := mismatched std options timelines1 timelines2 (selectedSignals options first second)
  reports signal := timelineMismatches std signal options (timelines1 signal) (timelines2 signal)

/-- What the three forms of the output say about a comparison. -/
structure Verdict.Told (v : Verdict) (std : StdText) (result : ComparisonResult) : Prop where
  report : ∀ format, format ≠ some "json" → format ≠ some "compact" →
    handleCompare std result format = .ok (.lines (compareIntro result ++
      if v.common = [] then ["⚠️  No common signals to compare!"]
      else [doubleRule, "Signal Value Comparison", doubleRule, ""] ++ v.details std ++ v.summary))
  compact : handleCompare std result (some "compact") = .ok (.lines [v.compact])
  json : ∃ json, handleCompare std result (some "json") = .ok (.json json) ∧
    (∀ signal, json.mismatchesBySignal.lookup signal =
      if signal ∈ v.different then some (v.reports signal).length else none) ∧
    json.commonSignalCount = v.common.length ∧ json.signalsWithMismatches = v.different.length ∧
    json.totalMismatches = v.total ∧ (json.passed = true ↔ v.different = [])

/-! ## The groups of a report -/

variable {std : StdText} {options : ComparisonOptions} {context : QueryContext}
  {first second : TimelineProvider} {timelines1 timelines2 : String → Timeline}

/-- Of the mismatches of distinct signals, those that carry one name are the
report of that signal. -/
theorem filter_allMismatches {signals : List String} (h : signals.Nodup) (signal : String) :
    (allMismatches std options timelines1 timelines2 signals).filter (·.signalName = signal) =
      if signal ∈ signals then
        timelineMismatches std signal options (timelines1 signal) (timelines2 signal)
      else [] := by
  induction signals with
  | nil => rfl
  | cons head rest ih =>
    obtain ⟨hhead, hrest⟩ := List.nodup_cons.mp h
    rw [allMismatches, List.flatMap_cons, List.filter_append]
    rw [allMismatches] at ih
    rw [ih hrest]
    by_cases hsignal : signal = head
    · subst hsignal
      rw [if_neg hhead, if_pos List.mem_cons_self, List.append_nil]
      exact List.filter_eq_self.mpr fun m hm => by simpa using signalName_of_mem hm
    · have hnone : (timelineMismatches std head options (timelines1 head)
          (timelines2 head)).filter (·.signalName = signal) = [] := by
        refine List.filter_eq_nil_iff.mpr fun m hm => ?_
        rw [signalName_of_mem hm]
        simpa using fun hname => hsignal hname.symm
      rw [hnone, List.nil_append]
      simp [hsignal]

theorem getD_mismatchesBySignal (mismatches : List SignalMismatch) (signal : String) :
    (mismatchesBySignal mismatches).getD signal =
      mismatches.filter (·.signalName = signal) := by
  rw [mismatchesBySignal, Groups.getD_pushAll, List.filter_map, List.map_map]
  exact List.map_id _

theorem filled_mismatchesBySignal (mismatches : List SignalMismatch) :
    (mismatchesBySignal mismatches).Filled :=
  Groups.filled_nil.pushAll _

theorem keys_mismatchesBySignal (mismatches : List SignalMismatch) :
    (mismatchesBySignal mismatches).keys.Nodup ∧
      ∀ signal, signal ∈ (mismatchesBySignal mismatches).keys ↔
        signal ∈ mismatches.map (·.signalName) := by
  obtain ⟨hnodup, hmem⟩ := Groups.keys_pushAll
    (mismatches.map fun mm => (mm.signalName, mm)) [] List.Pairwise.nil
  refine ⟨hnodup, fun signal => (hmem signal).trans ?_⟩
  rw [List.map_map]
  simp [Groups.keys]

/-- The counts of the JSON form are the lengths of the groups of the report. -/
theorem bump_groups (groups : Groups String SignalMismatch) (mm : SignalMismatch) :
    bump mm.signalName (groups.map fun group => (group.1, group.2.length)) =
      (groups.push mm.signalName mm).map fun group => (group.1, group.2.length) := by
  induction groups with
  | nil => rfl
  | cons group rest ih =>
    rw [List.map_cons, bump, Groups.push]
    by_cases hkey : group.1 = mm.signalName
    · rw [if_pos hkey, if_pos hkey, List.map_cons, List.length_append]
      rfl
    · rw [if_neg hkey, if_neg hkey, ih, List.map_cons]

theorem bumps_groups (mismatches : List SignalMismatch) (groups : Groups String SignalMismatch) :
    mismatches.foldl (fun counts mm => bump mm.signalName counts)
        (groups.map fun group => (group.1, group.2.length)) =
      (groups.pushAll (mismatches.map fun mm => (mm.signalName, mm))).map
        fun group => (group.1, group.2.length) := by
  induction mismatches generalizing groups with
  | nil => rfl
  | cons mm rest ih =>
    rw [List.foldl_cons, bump_groups, ih]
    rfl

theorem lookup_lengths (groups : Groups String SignalMismatch) (signal : String) :
    (groups.map fun group => (group.1, group.2.length)).lookup signal =
      (groups.get signal).map List.length := by
  induction groups with
  | nil => rfl
  | cons group rest ih =>
    rw [List.map_cons, List.lookup_cons, Groups.get]
    by_cases hkey : group.1 = signal
    · rw [if_pos hkey, hkey, beq_self_eq_true]
      rfl
    · rw [if_neg hkey, beq_eq_false_iff_ne.mpr fun h => hkey h.symm, ih]

/-! ## The report of a comparison -/

theorem sorted_mismatched (hnames : first.orderedSignalNames.Nodup) :
    (mismatched std options timelines1 timelines2
      (selectedSignals options first second)).Pairwise (· < ·) :=
  ((sorted_commonSignals hnames).sublist (signalsToCompare_sublist options _)).filter _

/-- Sorting the keys of the map gives back the order of the comparison. -/
theorem sorted_keys (hnames : first.orderedSignalNames.Nodup) :
    (mismatchesBySignal (allMismatches std options timelines1 timelines2
        (selectedSignals options first second))).keys.mergeSort (· ≤ ·) =
      mismatched std options timelines1 timelines2 (selectedSignals options first second) := by
  obtain ⟨hnodup, hmem⟩ := keys_mismatchesBySignal (allMismatches std options timelines1 timelines2
    (selectedSignals options first second))
  have hsorted := (List.sortedLE_mergeSort.sortedLT_of_nodup
    ((List.mergeSort_perm _ (· ≤ ·)).nodup_iff.mpr hnodup)).pairwise
  refine hsorted.eq_of_mem_iff (sorted_mismatched hnames) fun signal => ?_
  rw [List.mem_mergeSort, hmem, ← List.mem_toFinset, names_of_allMismatches, List.mem_toFinset]

/-- The key of a signal that differs is there, with the signal's report. -/
theorem get_mismatchesBySignal (hnames : first.orderedSignalNames.Nodup) (signal : String) :
    (mismatchesBySignal (comparisonOf std options first second timelines1
        timelines2).mismatches).get signal =
      if signal ∈ (verdictOf std options first second timelines1 timelines2).different then
        some ((verdictOf std options first second timelines1 timelines2).reports signal)
      else none := by
  have hselected : (selectedSignals options first second).Nodup :=
    (signalsToCompare_sublist options _).nodup (sorted_commonSignals hnames).nodup
  rw [(filled_mismatchesBySignal _).get_eq, getD_mismatchesBySignal, comparisonOf,
    filter_allMismatches hselected]
  simp only [verdictOf, mismatched, List.mem_filter, Bool.not_eq_true', List.isEmpty_eq_false_iff]
  by_cases hsignal : signal ∈ selectedSignals options first second
  · simp only [hsignal, true_and, if_true]
    exact (ite_not _ _ _).symm
  · simp [hsignal]

theorem length_allMismatches (signals : List String) :
    (allMismatches std options timelines1 timelines2 signals).length =
      ((mismatched std options timelines1 timelines2 signals).map fun signal =>
        (timelineMismatches std signal options (timelines1 signal) (timelines2 signal)).length).sum := by
  induction signals with
  | nil => rfl
  | cons head rest ih =>
    rw [allMismatches, mismatched] at ih ⊢
    rw [List.flatMap_cons, List.length_append, ih, List.filter_cons]
    cases hreport : timelineMismatches std head options (timelines1 head) (timelines2 head) with
    | nil => simp
    | cons m report => simp [hreport]

theorem mismatched_eq_nil {signals : List String} :
    mismatched std options timelines1 timelines2 signals = [] ↔
      allMismatches std options timelines1 timelines2 signals = [] := by
  simp [mismatched, allMismatches, List.filter_eq_nil_iff]

theorem length_matched (hnames : first.orderedSignalNames.Nodup) :
    (verdictOf std options first second timelines1 timelines2).matched.length =
      (verdictOf std options first second timelines1 timelines2).common.length -
        (verdictOf std options first second timelines1 timelines2).different.length := by
  set v := verdictOf std options first second timelines1 timelines2
  have hsub : v.different.Sublist v.common :=
    List.filter_sublist.trans (signalsToCompare_sublist options _)
  have hdifferent : v.common.filter (fun signal => signal ∈ v.different) = v.different := by
    refine ((sorted_commonSignals hnames).filter _).eq_of_mem_iff (sorted_mismatched hnames)
      fun signal => ?_
    rw [List.mem_filter, decide_eq_true_iff]
    exact and_iff_right_of_imp fun h => hsub.subset h
  have hlength := List.length_eq_length_filter_add (l := v.common) fun signal => signal ∈ v.different
  rw [hdifferent] at hlength
  have hmatched : v.matched = v.common.filter fun signal => !decide (signal ∈ v.different) := by
    simp [Verdict.matched]
  rw [hmatched]
  omega

theorem passed_iff : (comparisonOf std options first second timelines1 timelines2).passed = true ↔
    (verdictOf std options first second timelines1 timelines2).different = [] :=
  List.isEmpty_iff.trans mismatched_eq_nil.symm

/-- The section of the signals goes through those that differ, in order. -/
theorem compareDetails_eq (hnames : first.orderedSignalNames.Nodup) :
    compareDetails std (comparisonOf std options first second timelines1 timelines2) =
      .ok ((verdictOf std options first second timelines1 timelines2).details std) := by
  set result := comparisonOf std options first second timelines1 timelines2 with hresult
  set v := verdictOf std options first second timelines1 timelines2
  have hmatched : v.matched.length =
      result.commonSignals.length - result.signalsWithMismatches := length_matched hnames
  have hkeys : (mismatchesBySignal result.mismatches).keys.mergeSort (· ≤ ·) = v.different :=
    sorted_keys hnames
  have hblocks : (v.different.mapM fun signalName =>
      match (mismatchesBySignal result.mismatches).get signalName with
      | some mismatches => .ok (signalLines std signalName mismatches)
      | none => .error .panicked) =
      (.ok (v.different.map fun signal => signalLines std signal (v.reports signal)) :
        Except CliError _) := by
    refine Fallible.mapM_eq_ok fun signal hsignal => ?_
    rw [hresult, get_mismatchesBySignal hnames, if_pos hsignal]
  have hpassed : result.passed = true ↔ v.different = [] := passed_iff
  rw [compareDetails, Verdict.details]
  by_cases hsame : v.different = []
  · rw [if_pos hsame, if_pos (hpassed.mpr hsame)]
    rfl
  · rw [if_neg hsame, if_neg fun h => hsame (hpassed.mp h)]
    simp only [hkeys, hblocks, bind, Except.bind, pure, Except.pure, hmatched]
    rfl

theorem verdictOf_told (hnames : first.orderedSignalNames.Nodup) :
    (verdictOf std options first second timelines1 timelines2).Told std
      (comparisonOf std options first second timelines1 timelines2) := by
  set result := comparisonOf std options first second timelines1 timelines2 with hresult
  set v := verdictOf std options first second timelines1 timelines2
  have hpassed : result.passed = true ↔ v.different = [] := passed_iff
  have htotal : result.totalMismatches = v.total := length_allMismatches _
  have hdetails : compareDetails std result = .ok (v.details std) := compareDetails_eq hnames
  refine ⟨fun format hjson hcompact => ?_, ?_, .ofResult result, rfl, fun signal => ?_, rfl, rfl,
    htotal, hpassed⟩
  · have hform : format.getD "default" ≠ "json" ∧ format.getD "default" ≠ "compact" := by
      cases format with
      | none => simp
      | some format => exact ⟨fun h => hjson (congrArg some h), fun h => hcompact (congrArg some h)⟩
    have hsummary : compareSummary result = v.summary := by
      rw [compareSummary, Verdict.summary, if_congr hpassed rfl rfl, htotal]
      rfl
    rw [handleCompare, if_neg hform.1, if_neg hform.2, hdetails, hsummary]
    by_cases hcommon : v.common = []
    · rw [if_pos hcommon]
      exact if_pos hcommon
    · rw [if_neg hcommon, ← List.append_assoc, ← List.append_assoc]
      exact if_neg hcommon
  · rw [handleCompare, Verdict.compact, if_congr hpassed rfl rfl, htotal]
    rfl
  · have hcounts : (JsonComparisonResult.ofResult result).mismatchesBySignal =
        (mismatchesBySignal result.mismatches).map fun group => (group.1, group.2.length) :=
      bumps_groups result.mismatches []
    rw [hcounts, lookup_lengths, hresult, get_mismatchesBySignal hnames, apply_ite (Option.map _)]
    rfl

/-- **The output of `compare` is the verdict.** When the comparison of two
providers answers, all three forms say what the timelines of the single signals
say: the report goes through the signals that differ in order, each with its own
mismatches, no key of the map is missed, and the counts of the forms agree. -/
theorem compare_reports (std : StdText) (options : ComparisonOptions) (context : QueryContext)
    (first second : TimelineProvider) (result : ComparisonResult)
    (hnames : first.orderedSignalNames.Nodup)
    (h : compareProviders std first second options context = .ok result) :
    ∃ values1 values2,
      first.collectTimelines (selectedSignals options first second) options context =
        .ok values1 ∧
      second.collectTimelines (selectedSignals options first second) options context =
        .ok values2 ∧
      (verdictOf std options first second (SignalTimelines.timeline values1)
        (SignalTimelines.timeline values2)).Told std result := by
  obtain ⟨-, -, values1, values2, hvalues1, hvalues2, -, -, rfl⟩ := compareProviders_ok h
  exact ⟨values1, values2, hvalues1, hvalues2, verdictOf_told hnames⟩

theorem compare_reports_clock :
    ∃ values1 values2,
      (tableProvider "a.vcd" ["rst", "clk"] clockTimelines).collectTimelines
        (selectedSignals {} (tableProvider "a.vcd" ["rst", "clk"] clockTimelines)
          (tableProvider "b.vcd" ["clk", "data"] stuckTimelines)) {} {} = .ok values1 ∧
      (tableProvider "b.vcd" ["clk", "data"] stuckTimelines).collectTimelines
        (selectedSignals {} (tableProvider "a.vcd" ["rst", "clk"] clockTimelines)
          (tableProvider "b.vcd" ["clk", "data"] stuckTimelines)) {} {} = .ok values2 ∧
      (verdictOf asciiText {} (tableProvider "a.vcd" ["rst", "clk"] clockTimelines)
        (tableProvider "b.vcd" ["clk", "data"] stuckTimelines) (SignalTimelines.timeline values1)
        (SignalTimelines.timeline values2)).Told asciiText
        (comparisonOf asciiText {} (tableProvider "a.vcd" ["rst", "clk"] clockTimelines)
          (tableProvider "b.vcd" ["clk", "data"] stuckTimelines) clockTimelines stuckTimelines) :=
  compare_reports asciiText {} {} (tableProvider "a.vcd" ["rst", "clk"] clockTimelines)
    (tableProvider "b.vcd" ["clk", "data"] stuckTimelines) _ (by decide)
    ((tableProvider_serves (by decide) _ _ _ ⟨rfl, rfl⟩).compare
      (tableProvider_serves (by decide) _ _ _ ⟨rfl, rfl⟩) ⟨⟨rfl, rfl⟩, rfl⟩)

end VcdTools.Cli
