import VcdTools.Query.CompareReference
import VcdTools.Lib.Fallible
import Mathlib.Data.Finset.Card

/-! # The comparison of two providers

What `compare_providers` answers, as one record over the two name lists and the
timelines its providers give, and what follows for the result. -/
namespace VcdTools.Query
open VcdTools.Lib

/-! ## Providers that serve timelines -/

/-- An error-free source with unique names: its timelines in a window, whatever
signals they are asked for with. -/
structure TimelineProvider.Serves (provider : TimelineProvider) (window : TimeWindow)
    (context : QueryContext) (timelines : String → Timeline) : Prop where
  names : provider.orderedSignalNames.Nodup
  collect : ∀ options : ComparisonOptions, options.timeWindow = window →
    ∀ signals : List String, signals.Nodup → signals ⊆ provider.orderedSignalNames →
      ∃ values, provider.collectTimelines signals options context = .ok values ∧
        ∀ signal ∈ signals, SignalTimelines.timeline values signal = timelines signal
  complete : provider.validateComplete context = .ok ()

/-! ## The result -/

variable (std : StdText) (options : ComparisonOptions) (context : QueryContext)

/-- The signals that two providers are compared on. -/
def selectedSignals (first second : TimelineProvider) : List String :=
  signalsToCompare options (commonSignals first.orderedSignalNames second.orderedSignalNames)

/-- The signals that have something to report. -/
def mismatched (timelines1 timelines2 : String → Timeline) (signals : List String) : List String :=
  signals.filter fun signal =>
    !(timelineMismatches std signal options (timelines1 signal) (timelines2 signal)).isEmpty

/-- The result of a comparison whose providers gave these timelines. -/
def comparisonOf (first second : TimelineProvider) (timelines1 timelines2 : String → Timeline) :
    ComparisonResult :=
  let common := commonSignals first.orderedSignalNames second.orderedSignalNames
  let signals := selectedSignals options first second
  let mismatches := allMismatches std options timelines1 timelines2 signals
  { file1 := first.displayName
    file2 := second.displayName
    commonSignals := common
    signalsOnlyInFile1 :=
      first.orderedSignalNames.filter fun name => !second.orderedSignalNames.contains name
    signalsOnlyInFile2 :=
      second.orderedSignalNames.filter fun name => !first.orderedSignalNames.contains name
    mismatches := mismatches
    totalMismatches := mismatches.length
    signalsWithMismatches := (mismatched std options timelines1 timelines2 signals).length
    passed := mismatches.isEmpty }

variable {std options context} {first second : TimelineProvider}
  {timelines1 timelines2 : String → Timeline}

theorem compareSignals_eq (hlive : context.Live) (values1 values2 : SignalTimelines)
    (mismatches : List SignalMismatch) (n : Nat) (signals : List String) :
    compareSignals std options context values1 values2 mismatches n signals =
      .ok (mismatches ++ allMismatches std options (SignalTimelines.timeline values1)
          (SignalTimelines.timeline values2) signals,
        n + (mismatched std options (SignalTimelines.timeline values1)
          (SignalTimelines.timeline values2) signals).length) := by
  induction signals generalizing mismatches n with
  | nil => simp [compareSignals, allMismatches, mismatched]
  | cons signal signals ih =>
    rw [compareSignals, QueryContext.check_live hlive]
    simp only [bind, Except.bind, compareSignalTimeline_eq hlive, ih]
    rw [List.append_assoc, mismatched, mismatched, List.filter_cons]
    cases hreport : timelineMismatches std signal options (SignalTimelines.timeline values1 signal)
      (SignalTimelines.timeline values2 signal) with
    | nil => simp [allMismatches, hreport]
    | cons m rest =>
      simp [allMismatches, hreport]
      omega

/-- The result depends on the timelines of the compared signals only. -/
theorem comparisonOf_congr {timelines1' timelines2' : String → Timeline}
    (h1 : ∀ signal ∈ selectedSignals options first second, timelines1 signal = timelines1' signal)
    (h2 : ∀ signal ∈ selectedSignals options first second, timelines2 signal = timelines2' signal) :
    comparisonOf std options first second timelines1 timelines2 =
      comparisonOf std options first second timelines1' timelines2' := by
  have hreport : ∀ signal ∈ selectedSignals options first second,
      timelineMismatches std signal options (timelines1 signal) (timelines2 signal) =
        timelineMismatches std signal options (timelines1' signal) (timelines2' signal) := by
    intro signal hsignal
    rw [h1 signal hsignal, h2 signal hsignal]
  have hall : allMismatches std options timelines1 timelines2
        (selectedSignals options first second) =
      allMismatches std options timelines1' timelines2' (selectedSignals options first second) :=
    List.flatMap_congr hreport
  have hmismatched : mismatched std options timelines1 timelines2
        (selectedSignals options first second) =
      mismatched std options timelines1' timelines2' (selectedSignals options first second) :=
    List.filter_congr fun signal hsignal => by rw [hreport signal hsignal]
  simp only [comparisonOf, hall, hmismatched]

/-- A comparison that answers has compared the timelines it collected. -/
theorem compareProviders_ok {result : ComparisonResult}
    (h : compareProviders std first second options context = .ok result) :
    context.Live ∧
    context.checkSignalCount (selectedSignals options first second).length = .ok () ∧
    ∃ values1 values2,
      first.collectTimelines (selectedSignals options first second) options context =
        .ok values1 ∧
      second.collectTimelines (selectedSignals options first second) options context =
        .ok values2 ∧
      first.validateComplete context = .ok () ∧ second.validateComplete context = .ok () ∧
      result = comparisonOf std options first second (SignalTimelines.timeline values1)
        (SignalTimelines.timeline values2) := by
  unfold compareProviders at h
  obtain ⟨⟨⟩, hcheck, h⟩ := Fallible.bind_ok_iff.mp h
  have hlive := QueryContext.check_ok.mp hcheck
  obtain ⟨⟨⟩, hcount, h⟩ := Fallible.bind_ok_iff.mp h
  obtain ⟨values1, hvalues1, h⟩ := Fallible.bind_ok_iff.mp h
  obtain ⟨⟨⟩, hcomplete1, h⟩ := Fallible.bind_ok_iff.mp h
  obtain ⟨values2, hvalues2, h⟩ := Fallible.bind_ok_iff.mp h
  obtain ⟨⟨⟩, hcomplete2, h⟩ := Fallible.bind_ok_iff.mp h
  refine ⟨hlive, hcount, values1, values2, hvalues1, hvalues2, hcomplete1, hcomplete2, ?_⟩
  simp only [compareSignals_eq hlive, QueryContext.check_live hlive, hcomplete1, hcomplete2, bind,
    Except.bind, pure, Except.pure, List.nil_append, Nat.zero_add] at h
  exact (Except.ok.inj h).symm

/-- A comparison answers when the context lets it and its providers do. -/
theorem compareProviders_eq (hlive : context.Live) {values1 values2 : SignalTimelines}
    (hcount : context.checkSignalCount (selectedSignals options first second).length = .ok ())
    (hvalues1 : first.collectTimelines (selectedSignals options first second) options context =
      .ok values1)
    (hvalues2 : second.collectTimelines (selectedSignals options first second) options context =
      .ok values2)
    (hcomplete1 : first.validateComplete context = .ok ())
    (hcomplete2 : second.validateComplete context = .ok ()) :
    compareProviders std first second options context =
      .ok (comparisonOf std options first second (SignalTimelines.timeline values1)
        (SignalTimelines.timeline values2)) := by
  rw [selectedSignals] at hcount hvalues1 hvalues2
  unfold compareProviders
  simp only [compareSignals_eq hlive, QueryContext.check_live hlive, hcount, hvalues1, hvalues2,
    hcomplete1, hcomplete2, bind, Except.bind, pure, Except.pure, List.nil_append, Nat.zero_add]
  rfl

/-! ## The signals of a comparison -/

theorem mem_commonSignals {names1 names2 : List String} {name : String} :
    name ∈ commonSignals names1 names2 ↔ name ∈ names1 ∧ name ∈ names2 := by
  rw [commonSignals, List.mem_mergeSort, List.mem_filter, List.contains_iff_mem]

theorem sorted_commonSignals {names1 names2 : List String} (h : names1.Nodup) :
    (commonSignals names1 names2).Pairwise (· < ·) := by
  have hnodup : (commonSignals names1 names2).Nodup :=
    (List.mergeSort_perm _ _).nodup_iff.mpr (h.filter _)
  exact (List.sortedLE_mergeSort.sortedLT_of_nodup hnodup).pairwise

theorem commonSignals_comm {names1 names2 : List String} (h1 : names1.Nodup) (h2 : names2.Nodup) :
    commonSignals names1 names2 = commonSignals names2 names1 :=
  (sorted_commonSignals h1).eq_of_mem_iff (sorted_commonSignals h2) fun name => by
    rw [mem_commonSignals, mem_commonSignals, and_comm]

theorem signalsToCompare_sublist (options : ComparisonOptions) (common : List String) :
    (signalsToCompare options common).Sublist common := by
  unfold signalsToCompare
  split
  · exact List.Sublist.refl common
  · exact List.filter_sublist

theorem TimelineProvider.Serves.compare (h1 : first.Serves options.timeWindow context timelines1)
    (h2 : second.Serves options.timeWindow context timelines2) (hcontext : context.Unlimited) :
    compareProviders std first second options context =
      .ok (comparisonOf std options first second timelines1 timelines2) := by
  have hsublist := signalsToCompare_sublist options
    (commonSignals first.orderedSignalNames second.orderedSignalNames)
  have hnodup := hsublist.nodup (sorted_commonSignals h1.names).nodup
  obtain ⟨values1, hvalues1, htimelines1⟩ := h1.collect options rfl _ hnodup
    fun name hname => (mem_commonSignals.mp (hsublist.subset hname)).1
  obtain ⟨values2, hvalues2, htimelines2⟩ := h2.collect options rfl _ hnodup
    fun name hname => (mem_commonSignals.mp (hsublist.subset hname)).2
  have hcount : ∀ n, context.checkSignalCount n = .ok () := by
    intro n
    rw [QueryContext.checkSignalCount, QueryContext.check_live hcontext.live, hcontext.limits]
    rfl
  rw [compareProviders_eq hcontext.live (hcount _) hvalues1 hvalues2 h1.complete h2.complete,
    comparisonOf_congr htimelines1 htimelines2]

/-! ## The specification of a comparison -/

/-- What a result says about the two providers and their timelines. -/
structure Compared (std : StdText) (options : ComparisonOptions) (context : QueryContext)
    (first second : TimelineProvider) (timelines1 timelines2 : String → Timeline)
    (result : ComparisonResult) : Prop where
  sorted : result.commonSignals.Pairwise (· < ·)
  common : ∀ name, name ∈ result.commonSignals ↔
    name ∈ first.orderedSignalNames ∧ name ∈ second.orderedSignalNames
  onlyIn1 : result.signalsOnlyInFile1 =
    first.orderedSignalNames.filter fun name => name ∉ second.orderedSignalNames
  onlyIn2 : result.signalsOnlyInFile2 =
    second.orderedSignalNames.filter fun name => name ∉ first.orderedSignalNames
  reports : ∀ signal, compareSignalTimeline std signal options context (timelines1 signal)
      (timelines2 signal) [] =
    .ok ((timelineMismatches std signal options (timelines1 signal) (timelines2 signal)).length,
      timelineMismatches std signal options (timelines1 signal) (timelines2 signal))
  mismatches : result.mismatches =
    (result.commonSignals.filter fun signal =>
      options.signalsOnly = [] ∨ signal ∈ options.signalsOnly).flatMap fun signal =>
        timelineMismatches std signal options (timelines1 signal) (timelines2 signal)
  total : result.totalMismatches = result.mismatches.length
  signals : result.signalsWithMismatches = (result.mismatches.map (·.signalName)).toFinset.card
  passed : result.passed = true ↔ result.mismatches = []
  perSignal : ((JsonComparisonResult.ofResult result).mismatchesBySignal.map (·.2)).sum =
    result.totalMismatches

theorem sum_bump (name : String) (counts : List (String × Nat)) :
    ((bump name counts).map (·.2)).sum = (counts.map (·.2)).sum + 1 := by
  induction counts with
  | nil => rfl
  | cons entry counts ih =>
    rw [bump]
    by_cases hkey : entry.1 = name
    · rw [if_pos hkey, List.map_cons, List.sum_cons, List.map_cons, List.sum_cons]
      omega
    · rw [if_neg hkey, List.map_cons, List.sum_cons, List.map_cons, List.sum_cons, ih]
      omega

theorem sum_mismatchesBySignal (mismatches : List SignalMismatch) (counts : List (String × Nat)) :
    ((mismatches.foldl (fun counts m => bump m.signalName counts) counts).map (·.2)).sum =
      (counts.map (·.2)).sum + mismatches.length := by
  induction mismatches generalizing counts with
  | nil => rfl
  | cons m rest ih =>
    rw [List.foldl_cons, ih, sum_bump, List.length_cons]
    omega

theorem signalsToCompare_eq (options : ComparisonOptions) (common : List String) :
    signalsToCompare options common = common.filter fun signal =>
      options.signalsOnly = [] ∨ signal ∈ options.signalsOnly := by
  unfold signalsToCompare
  cases hsignals : options.signalsOnly with
  | nil => simp
  | cons name names => simp

/-- The names of a list of reports are the signals that have something to
report. -/
theorem names_of_allMismatches (signals : List String) :
    ((allMismatches std options timelines1 timelines2 signals).map (·.signalName)).toFinset =
      (mismatched std options timelines1 timelines2 signals).toFinset := by
  ext name
  simp only [allMismatches, mismatched, List.mem_toFinset, List.mem_map, List.mem_flatMap,
    List.mem_filter]
  constructor
  · rintro ⟨m, ⟨signal, hsignal, hm⟩, rfl⟩
    rw [signalName_of_mem hm]
    exact ⟨hsignal, by simpa using List.ne_nil_of_mem hm⟩
  · rintro ⟨hname, hreport⟩
    obtain ⟨m, hm⟩ := List.exists_mem_of_ne_nil _
      (by simpa using hreport : timelineMismatches std name options (timelines1 name)
        (timelines2 name) ≠ [])
    exact ⟨m, ⟨name, hname, hm⟩, signalName_of_mem hm⟩

theorem comparisonOf_compared (hlive : context.Live) (hnames : first.orderedSignalNames.Nodup) :
    Compared std options context first second timelines1 timelines2
      (comparisonOf std options first second timelines1 timelines2) where
  sorted := sorted_commonSignals hnames
  common name := mem_commonSignals
  onlyIn1 := by simp [comparisonOf]
  onlyIn2 := by simp [comparisonOf]
  reports signal := compareSignalTimeline_eq hlive _ _ []
  mismatches := by
    rw [← signalsToCompare_eq]
    rfl
  total := rfl
  signals := by
    have hnodup : (mismatched std options timelines1 timelines2
        (selectedSignals options first second)).Nodup :=
      ((signalsToCompare_sublist options _).nodup (sorted_commonSignals hnames).nodup).filter _
    simp only [comparisonOf]
    rw [names_of_allMismatches, List.toFinset_card_of_nodup hnodup]
  passed := List.isEmpty_iff
  perSignal := by
    have hsum := sum_mismatchesBySignal
      (comparisonOf std options first second timelines1 timelines2).mismatches []
    rw [List.map_nil, List.sum_nil, Nat.zero_add] at hsum
    exact hsum

/-- Lists of wanted signals with the same common names select the same. -/
theorem selectedSignals_congr {signalsOnly : List String} (hne : options.signalsOnly ≠ [])
    (hne' : signalsOnly ≠ [])
    (hsame : ∀ name ∈ commonSignals first.orderedSignalNames second.orderedSignalNames,
      name ∈ signalsOnly ↔ name ∈ options.signalsOnly) :
    selectedSignals { options with signalsOnly } first second =
      selectedSignals options first second := by
  simp only [selectedSignals, signalsToCompare_eq, hne, hne', false_or]
  exact List.filter_congr fun name hname => decide_eq_decide.mpr (hsame name hname)

/-- **`compare_providers` meets its specification.** Two error-free providers
with unique names and an unlimited context: the comparison answers, its result
is the one specified, and a wanted list that names the same common signals in
another order, more than once or next to other names gives the same result. -/
theorem compareProviders_spec (std : StdText) (options : ComparisonOptions)
    (context : QueryContext) (first second : TimelineProvider)
    (timelines1 timelines2 : String → Timeline) (hcontext : context.Unlimited)
    (h1 : first.Serves options.timeWindow context timelines1)
    (h2 : second.Serves options.timeWindow context timelines2) :
    ∃ result, compareProviders std first second options context = .ok result ∧
      Compared std options context first second timelines1 timelines2 result ∧
      ∀ signalsOnly : List String, options.signalsOnly ≠ [] → signalsOnly ≠ [] →
        (∀ name ∈ result.commonSignals, name ∈ signalsOnly ↔ name ∈ options.signalsOnly) →
        compareProviders std first second { options with signalsOnly } context = .ok result := by
  refine ⟨_, h1.compare h2 hcontext, comparisonOf_compared hcontext.live h1.names, ?_⟩
  intro signalsOnly hne hne' hsame
  have hselected : selectedSignals { options with signalsOnly } first second =
      selectedSignals options first second := selectedSignals_congr hne hne' hsame
  have hcompare : compareProviders std first second { options with signalsOnly } context =
      .ok (comparisonOf std { options with signalsOnly } first second timelines1 timelines2) :=
    TimelineProvider.Serves.compare h1 h2 hcontext
  rw [hcompare]
  simp only [comparisonOf, hselected]
  rfl

/-! ## Providers from a table -/

theorem toList_ofList_toLower : ∀ s : String, (∀ c ∈ s.toList, c.toNat < 128) →
    (String.ofList (s.toList.map Char.toLower)).toList = s.toList.map Char.toLower :=
  fun _ _ => String.toList_ofList

/-- Text operations for ASCII text without reals. -/
def asciiText : StdText where
  floatText _ := "0"
  toLowercase s := String.ofList (s.toList.map Char.toLower)
  toLowercase_ascii := toList_ofList_toLower
  maxWidth := 65535
  overflowChecks := true

/-- A provider that serves a table. -/
def tableProvider (name : String) (names : List String) (timelines : String → Timeline) :
    TimelineProvider where
  orderedSignalNames := names
  displayName := name
  collectTimelines signals _ _ := .ok (signals.map fun signal => (signal, timelines signal))
  validateComplete context := context.check

theorem tableProvider_serves {names : List String} (hnames : names.Nodup) (name : String)
    (timelines : String → Timeline) (window : TimeWindow) {context : QueryContext}
    (hlive : context.Live) : (tableProvider name names timelines).Serves window context timelines where
  names := hnames
  collect options hwindow signals hnodup hsubset := by
    refine ⟨_, rfl, fun signal hsignal => ?_⟩
    induction signals with
    | nil => cases hsignal
    | cons head rest ih =>
      rw [SignalTimelines.timeline, List.map_cons, List.lookup_cons]
      by_cases hhead : signal = head
      · subst hhead
        simp
      · rw [beq_eq_false_iff_ne.mpr hhead]
        exact ih (List.nodup_cons.mp hnodup).2 (fun _ h => hsubset (List.mem_cons_of_mem _ h))
          ((List.mem_cons.mp hsignal).resolve_left hhead)
  complete := QueryContext.check_live hlive

/-- A clock with two changes, and one that misses the second. -/
def clockTimelines : String → Timeline
  | "clk" => [(0, .text "0"), (5, .text "1")]
  | _ => []

def stuckTimelines : String → Timeline
  | "clk" => [(0, .text "0")]
  | _ => []

theorem compareProviders_spec_clock :
    ∃ result, compareProviders asciiText (tableProvider "a.vcd" ["rst", "clk"] clockTimelines)
        (tableProvider "b.vcd" ["clk", "data"] stuckTimelines) { signalsOnly := ["clk"] } {} =
        .ok result ∧
      Compared asciiText { signalsOnly := ["clk"] } {}
        (tableProvider "a.vcd" ["rst", "clk"] clockTimelines)
        (tableProvider "b.vcd" ["clk", "data"] stuckTimelines) clockTimelines stuckTimelines
        result ∧
      ∀ signalsOnly : List String, ["clk"] ≠ [] → signalsOnly ≠ [] →
        (∀ name ∈ result.commonSignals, name ∈ signalsOnly ↔ name ∈ ["clk"]) →
        compareProviders asciiText (tableProvider "a.vcd" ["rst", "clk"] clockTimelines)
          (tableProvider "b.vcd" ["clk", "data"] stuckTimelines) { signalsOnly } {} = .ok result :=
  compareProviders_spec asciiText { signalsOnly := ["clk"] } {}
    (tableProvider "a.vcd" ["rst", "clk"] clockTimelines)
    (tableProvider "b.vcd" ["clk", "data"] stuckTimelines) clockTimelines stuckTimelines
    ⟨⟨rfl, rfl⟩, rfl⟩ (tableProvider_serves (by decide) _ _ _ ⟨rfl, rfl⟩)
    (tableProvider_serves (by decide) _ _ _ ⟨rfl, rfl⟩)

end VcdTools.Query
