import VcdTools.Opened.Waveform
import VcdTools.Query.CompareWindow

/-! # Comparing two waveforms in a window

`impl TimelineProvider` for `OpenedVcd` and `OpenedFst` of `query/compare.rs`,
the timelines that they collect from a waveform, and what a window does to the
comparison of two of them. -/
namespace VcdTools.Opened
open VcdTools.Lib VcdTools.Query

variable {η : Type}

/-! ## The providers -/

/-- `timelines.get_mut(&event.signal)`, and the push. -/
def pushEvent (event : TimeValue) : SignalTimelines → SignalTimelines
  | [] => []
  | (signal, timeline) :: rest =>
    if signal = event.signal then (signal, timeline ++ [(event.time, event.value)]) :: rest
    else (signal, timeline) :: pushEvent event rest

/-- The loop over the events of an extraction. -/
def collectEvents (signals : List String) (events : List TimeValue) : SignalTimelines :=
  events.foldl (fun timelines event => pushEvent event timelines)
    (signals.map fun signal => (signal, []))

/-- `OpenedVcd` as a provider; `validated` is what `validate_source` answers. -/
def timelineProviderVcd (opened : OpenedVcd) (displayName : String)
    (validated : Except VcdError Unit) : TimelineProvider where
  orderedSignalNames := opened.catalog.signals.map (·.fullName)
  displayName := displayName
  collectTimelines signals options context := do
    let events ← opened.extractRows signals options.timeWindow context
    return collectEvents signals events
  validateComplete context := do
    context.check
    validated.mapError QueryError.fromVcd
    context.check

/-- `OpenedFst` as a provider. -/
def timelineProviderFst [DecidableEq η] (opened : OpenedFst η) (env : FstEnv η) :
    TimelineProvider where
  orderedSignalNames := opened.signalNames
  displayName := opened.displayPath
  collectTimelines signals options context := do
    let events ← opened.extractWithContext env.hash env.reader env.openings signals
      options.timeWindow context
    return collectEvents signals events
  validateComplete context := do
    context.check
    (opened.validateSource env.hash env.openings.validated).mapError fstToQuery
    context.check

/-! ## The timelines of a waveform -/

/-- The changes of a signal. -/
def AbstractWaveform.timeline (waveform : AbstractWaveform) (name : String) : Timeline :=
  waveform.changes.filterMap fun change =>
    if waveform.catalog name = some change.2.1 then some (change.1, change.2.2) else none

theorem lookup_pushEvent (event : TimeValue) (timelines : SignalTimelines) (signal : String) :
    (pushEvent event timelines).lookup signal =
      if event.signal = signal then
        (timelines.lookup signal).map (· ++ [(event.time, event.value)])
      else timelines.lookup signal := by
  induction timelines with
  | nil =>
    rw [pushEvent, List.lookup_nil]
    split
    · rfl
    · rfl
  | cons entry rest ih =>
    obtain ⟨key, timeline⟩ := entry
    rw [pushEvent]
    by_cases hkey : key = event.signal
    · subst hkey
      rw [if_pos rfl, List.lookup_cons, List.lookup_cons]
      by_cases hsignal : event.signal = signal
      · subst hsignal
        simp
      · rw [beq_eq_false_iff_ne.mpr (Ne.symm hsignal), if_neg hsignal]
    · rw [if_neg hkey, List.lookup_cons, List.lookup_cons]
      cases hsignal : signal == key with
      | true =>
        have hne : event.signal ≠ signal := fun heq => hkey (by rw [heq, eq_of_beq hsignal])
        rw [if_neg hne]
      | false => exact ih

theorem lookup_collect (events : List TimeValue) (timelines : SignalTimelines) (signal : String)
    {timeline : Timeline} (h : timelines.lookup signal = some timeline) :
    (events.foldl (fun timelines event => pushEvent event timelines) timelines).lookup signal =
      some (timeline ++ (events.filter (·.signal = signal)).map fun event =>
        (event.time, event.value)) := by
  induction events generalizing timelines timeline with
  | nil => rw [List.foldl_nil, h, List.filter_nil, List.map_nil, List.append_nil]
  | cons event events ih =>
    have hpush := lookup_pushEvent event timelines signal
    rw [h] at hpush
    rw [List.foldl_cons]
    by_cases hsignal : event.signal = signal
    · rw [if_pos hsignal] at hpush
      rw [ih _ hpush, List.filter_cons_of_pos (by simpa using hsignal), List.append_assoc]
      rfl
    · rw [if_neg hsignal] at hpush
      rw [ih _ hpush, List.filter_cons_of_neg (by simpa using hsignal)]

/-- What a provider collects for a signal: its events. -/
theorem timeline_collectEvents {signals : List String} {signal : String} (hsignal : signal ∈ signals)
    (events : List TimeValue) :
    SignalTimelines.timeline (collectEvents signals events) signal =
      (events.filter (·.signal = signal)).map fun event => (event.time, event.value) := by
  have hlookup : (signals.map fun signal => (signal, ([] : Timeline))).lookup signal = some [] := by
    induction signals with
    | nil => cases hsignal
    | cons head rest ih =>
      rw [List.map_cons, List.lookup_cons]
      by_cases hhead : signal = head
      · subst hhead
        simp
      · rw [beq_eq_false_iff_ne.mpr hhead]
        exact ih ((List.mem_cons.mp hsignal).resolve_left hhead)
  rw [SignalTimelines.timeline, collectEvents, lookup_collect events _ signal hlookup]
  rfl

variable {waveform : AbstractWaveform} {signals : List String} {signal : String}
  {window : TimeWindow} {context : QueryContext}

/-- The rows of a change that carry one of the names. -/
theorem changeRows_named (hnodup : signals.Nodup) (hsignal : signal ∈ signals)
    (change : Nat × IdCode × ChangeValue) :
    ((changeRows (waveform.requested signals) window change).filter (·.signal = signal)).map
        (fun event => (event.time, event.value)) =
      if Covers window change.1 ∧ waveform.catalog signal = some change.2.1 then
        [(change.1, change.2.2)]
      else [] := by
  obtain ⟨time, id, value⟩ := change
  rw [changeRows]
  by_cases hcovers : Covers window time
  · rw [if_pos hcovers, List.filter_map, List.map_map, AbstractWaveform.requested]
    have hname : ((signals.filter fun name => waveform.catalog name = some id).filter
        ((fun event : TimeValue => decide (event.signal = signal)) ∘ fun name => ⟨name, time, value⟩)) =
        if waveform.catalog signal = some id then [signal] else [] := by
      have honce : signals.filter (· = signal) = [signal] := by
        rw [List.filter_eq, List.count_eq_one_of_mem hnodup hsignal]
        rfl
      rw [List.filter_filter]
      by_cases hid : waveform.catalog signal = some id
      · rw [if_pos hid, ← honce]
        refine List.filter_congr fun name _ => ?_
        by_cases hname : name = signal
        · simp [hname, hid]
        · simp [hname]
      · rw [if_neg hid, List.filter_eq_nil_iff]
        intro name _ hboth
        simp only [Function.comp_apply, Bool.and_eq_true, decide_eq_true_eq] at hboth
        exact hid (hboth.1 ▸ hboth.2)
    rw [hname]
    by_cases hid : waveform.catalog signal = some id
    · rw [if_pos hid, if_pos ⟨hcovers, hid⟩]
      rfl
    · rw [if_neg hid, if_neg fun h => hid h.2]
      rfl
  · rw [if_neg hcovers, if_neg fun h => hcovers h.1]
    rfl

/-- **The timeline of a signal**, collected from the rows of an extraction, is what
the window leaves of its changes. -/
theorem timeline_rows (hnodup : signals.Nodup) (hsignal : signal ∈ signals) :
    SignalTimelines.timeline (collectEvents signals
        (waveform.changes.flatMap (changeRows (waveform.requested signals) window))) signal =
      cut window (waveform.timeline signal) := by
  rw [timeline_collectEvents hsignal, AbstractWaveform.timeline, cut]
  generalize waveform.changes = changes
  induction changes with
  | nil => rfl
  | cons change rest ih =>
    rw [List.flatMap_cons, List.filter_append, List.map_append, ih, changeRows_named hnodup hsignal,
      List.filterMap_cons]
    by_cases hid : waveform.catalog signal = some change.2.1
    · rw [if_pos hid]
      by_cases hcovers : Covers window change.1
      · rw [if_pos ⟨hcovers, hid⟩, List.filter_cons_of_pos (by simpa using hcovers)]
        rfl
      · rw [if_neg fun h => hcovers h.1, List.filter_cons_of_neg (by simpa using hcovers)]
        rfl
    · rw [if_neg fun h => hid h.2, if_neg hid]
      rfl

/-! ## What the providers serve -/

variable {vcd : OpenedVcd} {commands : List ParseResult} {fst : OpenedFst η} {env : FstEnv η}
  {handleOf : IdCode → Nat} {callbacks : List FstCallback} {file : FstFile}

theorem PresentsVcd.serves (h : PresentsVcd waveform vcd commands) (hcontext : context.Unlimited)
    (displayName : String) (window : TimeWindow) :
    (timelineProviderVcd vcd displayName (.ok ())).Serves window context
      fun signal => cut window (waveform.timeline signal) where
  names := vcd.catalog.indexed.distinct
  collect options hwindow signals hnodup hsubset := by
    have hfound : ∀ name ∈ signals, (vcd.signal name).isSome := by
      intro name hname
      obtain ⟨signal, hsignal, rfl⟩ := List.mem_map.mp (hsubset hname)
      rw [vcd.signal_eq, SignalCatalog.find, List.find?_isSome]
      exact ⟨signal, hsignal, decide_eq_true rfl⟩
    have hrows := extractRows_ok hcontext h.unchanged h.orderly hfound options.timeWindow
    rw [h.requested, h.changes, hwindow] at hrows
    refine ⟨_, ?_, fun signal hsignal => timeline_rows hnodup hsignal⟩
    simp only [timelineProviderVcd, hwindow, hrows, bind, Except.bind, pure, Except.pure]
  complete := by
    simp only [timelineProviderVcd, QueryContext.check_live hcontext.live, bind, Except.bind,
      Except.mapError]

/-- A catalog of an opened FST, which refuses a name that comes twice. -/
structure ListsFst (fst : OpenedFst η) : Prop where
  distinct : fst.signalNames.Nodup
  found : ∀ name ∈ fst.signalNames, (fst.signal name).isSome

variable [DecidableEq η]

/-- An FST extraction of names that exist, inverted window or not. -/
theorem PresentsFst.extract_ok (h : PresentsFst waveform fst env handleOf callbacks file)
    (hcontext : context.Unlimited) (hfound : ∀ name ∈ signals, (fst.signal name).isSome)
    (window : TimeWindow) :
    fst.extractWithContext env.hash env.reader env.openings signals window context =
      .ok (waveform.changes.flatMap (changeRows (waveform.requested signals) window)) := by
  cases hwindow : inverted window with
  | true => rw [extractWithContext_inverted hcontext hwindow, changeRows_inverted hwindow]
  | false => exact extractWithContext_ok hcontext h hfound hwindow

theorem PresentsFst.serves (h : PresentsFst waveform fst env handleOf callbacks file)
    (hlists : ListsFst fst) (hcontext : context.Unlimited) (window : TimeWindow) :
    (timelineProviderFst fst env).Serves window context
      fun signal => cut window (waveform.timeline signal) where
  names := hlists.distinct
  collect options hwindow signals hnodup hsubset := by
    have hrows := h.extract_ok hcontext (fun name hname => hlists.found name (hsubset hname))
      options.timeWindow
    rw [hwindow] at hrows
    refine ⟨_, ?_, fun signal hsignal => timeline_rows hnodup hsignal⟩
    simp only [timelineProviderFst, hwindow, hrows, bind, Except.bind, pure, Except.pure]
  complete := by
    simp only [timelineProviderFst, h.openings, validateSource_ok h,
      QueryContext.check_live hcontext.live, bind, Except.bind, Except.mapError]

/-! ## The comparison -/

/-- A provider that reads a waveform from one of the backends. -/
inductive Backend (η : Type) [DecidableEq η] (waveform : AbstractWaveform) : TimelineProvider → Prop
  | vcd (opened : OpenedVcd) (commands : List ParseResult) (displayName : String)
      (h : PresentsVcd waveform opened commands) :
      Backend η waveform (timelineProviderVcd opened displayName (.ok ()))
  | fst (opened : OpenedFst η) (env : FstEnv η) (handleOf : IdCode → Nat)
      (callbacks : List FstCallback) (file : FstFile)
      (h : PresentsFst waveform opened env handleOf callbacks file) (hlists : ListsFst opened) :
      Backend η waveform (timelineProviderFst opened env)

theorem Backend.serves {provider : TimelineProvider} (h : Backend η waveform provider)
    (hcontext : context.Unlimited) (window : TimeWindow) :
    provider.Serves window context fun signal => cut window (waveform.timeline signal) := by
  cases h with
  | vcd opened commands displayName h => exact h.serves hcontext displayName window
  | fst opened env handleOf callbacks file h hlists => exact h.serves hlists hcontext window

/-- The timestamps never decrease. -/
structure AbstractWaveform.Chronological (waveform : AbstractWaveform) : Prop where
  ordered : waveform.changes.Pairwise fun a b => a.1 ≤ b.1
  u64 : ∀ change ∈ waveform.changes, change.1 ≤ u64Max

theorem AbstractWaveform.Chronological.timeline (h : waveform.Chronological) (name : String) :
    Query.Chronological (waveform.timeline name) := by
  have hentry : ∀ change : Nat × IdCode × ChangeValue, ∀ entry : Nat × ChangeValue,
      (if waveform.catalog name = some change.2.1 then some (change.1, change.2.2) else none) =
        some entry → entry.1 = change.1 := by
    intro change entry h
    split at h
    · cases h
      rfl
    · cases h
  constructor
  · rw [Merge.Ordered, AbstractWaveform.timeline, List.pairwise_filterMap]
    refine h.ordered.imp fun {a b} hab entry hentry' entry' hentry'' => ?_
    rw [hentry a entry hentry', hentry b entry' hentry'']
    exact hab
  · intro entry hmem
    obtain ⟨change, hchange, heq⟩ := List.mem_filterMap.mp hmem
    rw [hentry change entry heq]
    exact h.u64 change hchange

theorem cut_unbounded (timeline : Timeline) : cut ⟨none, none⟩ timeline = timeline := by
  rw [cut, List.filter_eq_self]
  exact fun entry _ => decide_eq_true ⟨by simp, by simp⟩

/-- The mismatches of the two files at a time of a signal are past what was
before the window. -/
def freshMismatch (window : TimeWindow) (waveform1 waveform2 : AbstractWaveform)
    (m : SignalMismatch) : Bool :=
  freshTime window (waveform1.timeline m.signalName) (waveform2.timeline m.signalName) m.time

variable {waveform1 waveform2 : AbstractWaveform} {first second : TimelineProvider}

/-- The comparison of two backends, in any window. -/
theorem Backend.compare (std : StdText) (options : ComparisonOptions) (window : TimeWindow)
    (h1 : Backend η waveform1 first) (h2 : Backend η waveform2 second)
    (hcontext : context.Unlimited) :
    compareProviders std first second { options with timeWindow := window } context =
      .ok (comparisonOf std { options with timeWindow := window } first second
        (fun signal => cut window (waveform1.timeline signal))
        fun signal => cut window (waveform2.timeline signal)) :=
  TimelineProvider.Serves.compare (h1.serves hcontext window) (h2.serves hcontext window) hcontext

theorem filter_allMismatches (p q : SignalMismatch → Bool) (std : StdText)
    (options : ComparisonOptions) (timelines1 timelines2 timelines1' timelines2' : String → Timeline)
    (signals : List String)
    (h : ∀ signal, (timelineMismatches std signal options (timelines1 signal)
        (timelines2 signal)).filter p =
      (timelineMismatches std signal options (timelines1' signal) (timelines2' signal)).filter q) :
    (allMismatches std options timelines1 timelines2 signals).filter p =
      (allMismatches std options timelines1' timelines2' signals).filter q := by
  rw [allMismatches, allMismatches, List.filter_flatMap, List.filter_flatMap]
  exact List.flatMap_congr fun signal _ => h signal

/-- **A comparison in a window** merges what the window leaves of the timelines,
each of them at `x` until it changes there. It reports nothing outside the
window, and inside, at the times at which nothing from before the window is left
of a signal, what the comparison without a window reports. -/
theorem compare_window (std : StdText) (options : ComparisonOptions) (window : TimeWindow)
    (context : QueryContext) (waveform1 waveform2 : AbstractWaveform)
    (first second : TimelineProvider) (h1 : Backend η waveform1 first)
    (h2 : Backend η waveform2 second) (hordered1 : waveform1.Chronological)
    (hordered2 : waveform2.Chronological) (hcontext : context.Unlimited)
    (hcap : options.maxMismatches = none) :
    ∃ windowed full,
      compareProviders std first second { options with timeWindow := window } context =
        .ok windowed ∧
      compareProviders std first second { options with timeWindow := ⟨none, none⟩ } context =
        .ok full ∧
      full.mismatches = allMismatches std options waveform1.timeline waveform2.timeline
        (selectedSignals options first second) ∧
      windowed.mismatches = allMismatches std options
        (fun signal => cut window (waveform1.timeline signal))
        (fun signal => cut window (waveform2.timeline signal))
        (selectedSignals options first second) ∧
      (∀ m ∈ windowed.mismatches, Covers window m.time) ∧
      windowed.mismatches.filter (freshMismatch window waveform1 waveform2) =
        full.mismatches.filter fun m =>
          decide (Covers window m.time) && freshMismatch window waveform1 waveform2 m := by
  refine ⟨_, _, h1.compare std options window h2 hcontext,
    h1.compare std options ⟨none, none⟩ h2 hcontext, ?_, rfl, ?_, ?_⟩
  · simp only [cut_unbounded]
    rfl
  · intro m hm
    obtain ⟨signal, _, hm⟩ := List.mem_flatMap.mp hm
    exact covers_of_mem (hordered1.timeline signal) (hordered2.timeline signal) hcap hm
  · simp only [comparisonOf, cut_unbounded]
    refine filter_allMismatches _ _ std options _ _ _ _ _ fun signal => ?_
    have hnamed : ∀ {timeline1 timeline2 : Timeline} (p : Nat → Bool → Bool),
        (timelineMismatches std signal options timeline1 timeline2).filter
            (fun m => p m.time (freshMismatch window waveform1 waveform2 m)) =
          (timelineMismatches std signal options timeline1 timeline2).filter fun m =>
            p m.time (freshTime window (waveform1.timeline signal) (waveform2.timeline signal)
              m.time) :=
      fun p => List.filter_congr fun m hm => by rw [freshMismatch, signalName_of_mem hm]
    rw [hnamed fun _ fresh => fresh, hnamed fun time fresh => decide (Covers window time) && fresh]
    exact timelineMismatches_window hcap (hordered1.timeline signal) (hordered2.timeline signal)

/-! ## A value from before the window -/

/-- A waveform with one signal. -/
def clockVcd (commands : List ParseResult) : OpenedVcd where
  catalog :=
    { signals := [⟨⟨33⟩, "clk", 1, .wire, none⟩]
      byName := [("clk", ⟨0⟩)]
      aliasesById := [(⟨33⟩, [⟨0⟩])]
      scopes := []
      indexed := ⟨rfl, by decide⟩ }
  bodyParser := .ok commands
  validateComplete := .ok ()

def clockWaveform (commands : List ParseResult) : AbstractWaveform where
  catalog name := ((clockVcd commands).signal name).map (·.idCode)
  changes := timedChanges 0 commands

theorem clock_backend {commands : List ParseResult} (h : Orderly commands) (displayName : String) :
    Backend Unit (clockWaveform commands)
      (timelineProviderVcd (clockVcd commands) displayName (.ok ())) :=
  .vcd _ commands displayName ⟨fun _ => rfl, ⟨rfl, rfl⟩, h, rfl⟩

/-- A clock that falls at 5, and one that is down from the start. -/
def fallingBody : List ParseResult :=
  [.ok (.timestamp 0), .ok (.changeScalar ⟨33⟩ .v1), .ok (.timestamp 5),
    .ok (.changeScalar ⟨33⟩ .v0)]

def lowBody : List ParseResult := [.ok (.timestamp 0), .ok (.changeScalar ⟨33⟩ .v0)]

theorem fallingBody_orderly : Orderly fallingBody := ⟨by simp [fallingBody], by decide⟩

theorem lowBody_orderly : Orderly lowBody := ⟨by simp [lowBody], by decide⟩

theorem clock_selected (options : ComparisonOptions) (commands commands' : List ParseResult)
    (hall : options.signalsOnly = []) :
    selectedSignals options (timelineProviderVcd (clockVcd commands) "a.vcd" (.ok ()))
      (timelineProviderVcd (clockVcd commands') "b.vcd" (.ok ())) = ["clk"] := by
  have hcommon : commonSignals ["clk"] ["clk"] = ["clk"] := by simp [commonSignals]
  rw [selectedSignals, signalsToCompare, hall]
  exact hcommon

/-- The windowed comparison does not know that the second clock is down. -/
theorem compare_window_invents :
    ∃ windowed full,
      compareProviders asciiText (timelineProviderVcd (clockVcd fallingBody) "a.vcd" (.ok ()))
        (timelineProviderVcd (clockVcd lowBody) "b.vcd" (.ok ()))
        { timeWindow := ⟨some 5, some 5⟩ } {} = .ok windowed ∧
      compareProviders asciiText (timelineProviderVcd (clockVcd fallingBody) "a.vcd" (.ok ()))
        (timelineProviderVcd (clockVcd lowBody) "b.vcd" (.ok ())) {} {} = .ok full ∧
      windowed.mismatches = [⟨"clk", 5, .text "0", .text "x", true⟩] ∧
      full.mismatches = [⟨"clk", 0, .text "1", .text "0", false⟩] := by
  have hcontext : ({} : QueryContext).Unlimited := ⟨⟨rfl, rfl⟩, rfl⟩
  have hcompare (window : TimeWindow) :=
    (clock_backend fallingBody_orderly "a.vcd").compare asciiText {} window
      (clock_backend lowBody_orderly "b.vcd") hcontext
  refine ⟨_, _, hcompare ⟨some 5, some 5⟩, hcompare ⟨none, none⟩, ?_, ?_⟩
  · simp only [comparisonOf]
    rw [clock_selected _ _ _ rfl]
    have hfirst : cut ⟨some 5, some 5⟩ ((clockWaveform fallingBody).timeline "clk") =
        [(5, .text "0")] := by decide
    have hsecond : cut ⟨some 5, some 5⟩ ((clockWaveform lowBody).timeline "clk") = [] := by decide
    have hrounds : Merge.rounds u64Max [(5, ChangeValue.text "0")] ([] : Timeline) (.text "x")
        (.text "x") = [⟨5, .text "0", .text "x"⟩] := by
      rw [Merge.rounds_cons (by decide : 5 = _) (by decide)]
      exact congrArg _ Merge.rounds_nil
    simp only [allMismatches, List.flatMap_cons, List.flatMap_nil, List.append_nil, hfirst, hsecond]
    rw [timelineMismatches, hrounds]
    decide
  · simp only [comparisonOf]
    rw [clock_selected _ _ _ rfl]
    have hfirst : cut ⟨none, none⟩ ((clockWaveform fallingBody).timeline "clk") =
        [(0, .text "1"), (5, .text "0")] := by decide
    have hsecond : cut ⟨none, none⟩ ((clockWaveform lowBody).timeline "clk") =
        [(0, .text "0")] := by decide
    have hlast : Merge.rounds u64Max [(5, ChangeValue.text "0")] ([] : Timeline) (.text "1")
        (.text "0") = [⟨5, .text "0", .text "0"⟩] := by
      rw [Merge.rounds_cons (by decide : 5 = _) (by decide)]
      exact congrArg _ Merge.rounds_nil
    have hrounds : Merge.rounds u64Max [(0, ChangeValue.text "1"), (5, ChangeValue.text "0")]
        [(0, ChangeValue.text "0")] (.text "x") (.text "x") =
        [⟨0, .text "1", .text "0"⟩, ⟨5, .text "0", .text "0"⟩] := by
      rw [Merge.rounds_cons (by decide : 0 = _) (by decide)]
      exact congrArg _ hlast
    simp only [allMismatches, List.flatMap_cons, List.flatMap_nil, List.append_nil, hfirst, hsecond]
    rw [timelineMismatches, hrounds]
    decide

theorem compare_window_clock :
    ∃ windowed full,
      compareProviders asciiText (timelineProviderVcd (clockVcd fallingBody) "a.vcd" (.ok ()))
        (timelineProviderVcd (clockVcd lowBody) "b.vcd" (.ok ()))
        { timeWindow := ⟨some 5, some 5⟩ } {} = .ok windowed ∧
      compareProviders asciiText (timelineProviderVcd (clockVcd fallingBody) "a.vcd" (.ok ()))
        (timelineProviderVcd (clockVcd lowBody) "b.vcd" (.ok ()))
        { timeWindow := ⟨none, none⟩ } {} = .ok full ∧
      full.mismatches = allMismatches asciiText {} (clockWaveform fallingBody).timeline
        (clockWaveform lowBody).timeline
        (selectedSignals {} (timelineProviderVcd (clockVcd fallingBody) "a.vcd" (.ok ()))
          (timelineProviderVcd (clockVcd lowBody) "b.vcd" (.ok ()))) ∧
      windowed.mismatches = allMismatches asciiText {}
        (fun signal => cut ⟨some 5, some 5⟩ ((clockWaveform fallingBody).timeline signal))
        (fun signal => cut ⟨some 5, some 5⟩ ((clockWaveform lowBody).timeline signal))
        (selectedSignals {} (timelineProviderVcd (clockVcd fallingBody) "a.vcd" (.ok ()))
          (timelineProviderVcd (clockVcd lowBody) "b.vcd" (.ok ()))) ∧
      (∀ m ∈ windowed.mismatches, Covers ⟨some 5, some 5⟩ m.time) ∧
      windowed.mismatches.filter
          (freshMismatch ⟨some 5, some 5⟩ (clockWaveform fallingBody) (clockWaveform lowBody)) =
        full.mismatches.filter fun m => decide (Covers ⟨some 5, some 5⟩ m.time) &&
          freshMismatch ⟨some 5, some 5⟩ (clockWaveform fallingBody) (clockWaveform lowBody) m :=
  compare_window asciiText {} ⟨some 5, some 5⟩ {} (clockWaveform fallingBody)
    (clockWaveform lowBody) _ _ (clock_backend fallingBody_orderly "a.vcd")
    (clock_backend lowBody_orderly "b.vcd") ⟨by decide, by decide⟩ ⟨by decide, by decide⟩
    ⟨⟨rfl, rfl⟩, rfl⟩ rfl

end VcdTools.Opened
