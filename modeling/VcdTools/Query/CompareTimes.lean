import VcdTools.Lib.MergeTimes
import VcdTools.Query.CompareProviders

/-! # A comparison by its times

On timelines whose times never decrease the report of a signal can be told
without the merge: the times at which the last values so far do not match. The
time `u64::MAX` stands for the end of a side in the merge, which ends there. -/
namespace VcdTools.Query
open VcdTools.Lib

/-- The value of a signal at a time: that of its last event so far, or `x`. -/
def finalValue (timeline : Timeline) (time : Nat) : ChangeValue :=
  Merge.valueAt time (.text "x") timeline

/-- A timeline of a file whose timestamps never decrease. -/
structure Chronological (timeline : Timeline) : Prop where
  ordered : Merge.Ordered timeline
  u64 : ∀ entry ∈ timeline, entry.1 ≤ u64Max

variable (std : StdText) (signal : String) (options : ComparisonOptions)

/-- The values at a time match. -/
def matchAt (first second : Timeline) (time : Nat) : Bool :=
  valuesMatch std (finalValue first time) (finalValue second time) options.ignoreUnknown

/-- The mismatches at some times. -/
def mismatchesAt (first second : Timeline) (times : List Nat) : List SignalMismatch :=
  (times.filter fun time => !matchAt std options first second time).map fun time =>
    .new signal time (finalValue first time) (finalValue second time)

/-- **The reference**: every distinct time of either timeline is looked at. -/
def timelineReference (first second : Timeline) : List SignalMismatch :=
  mismatchesAt std signal options first second (Merge.times first second)

variable {std signal options} {context : QueryContext} {first second : Timeline}

/-- What the merge reports: the mismatches before `u64::MAX`. -/
theorem unmatched_rounds (hfirst : Chronological first) (hsecond : Chronological second) :
    unmatched std signal options (Merge.rounds u64Max first second (.text "x") (.text "x")) =
      mismatchesAt std signal options first second
        ((Merge.times first second).filter (· ≠ u64Max)) := by
  rw [Merge.rounds_eq_times hfirst.ordered hsecond.ordered hfirst.u64 hsecond.u64, unmatched,
    List.filter_map, List.map_map]
  rfl

theorem mismatchesAt_filter (p : Nat → Bool) (times : List Nat) :
    mismatchesAt std signal options first second (times.filter p) =
      (mismatchesAt std signal options first second times).filter fun m => p m.time := by
  rw [mismatchesAt, mismatchesAt, List.filter_map, List.filter_filter, List.filter_filter]
  exact congrArg _ (List.filter_congr fun time _ => Bool.and_comm _ _)

theorem timelineMismatches_uncapped (hcap : options.maxMismatches = none) :
    timelineMismatches std signal options first second =
      unmatched std signal options (Merge.rounds u64Max first second (.text "x") (.text "x")) := by
  rw [timelineMismatches, hcap]
  rfl

/-- Without a cap the report is the reference before `u64::MAX`. -/
theorem timelineMismatches_eq (hcap : options.maxMismatches = none)
    (hfirst : Chronological first) (hsecond : Chronological second) :
    timelineMismatches std signal options first second =
      (timelineReference std signal options first second).filter fun m => m.time ≠ u64Max := by
  rw [timelineMismatches_uncapped hcap, unmatched_rounds hfirst hsecond]
  exact mismatchesAt_filter _ _

theorem length_timelineMismatches_le (first second : Timeline) :
    (timelineMismatches std signal options first second).length ≤
      first.length + second.length := by
  have hrounds := Merge.length_rounds_le u64Max first second (.text "x") (.text "x")
  have hunmatched : (unmatched std signal options
      (Merge.rounds u64Max first second (.text "x") (.text "x"))).length ≤
      (Merge.rounds u64Max first second (.text "x") (.text "x")).length := by
    rw [unmatched, List.length_map]
    exact List.length_filter_le _ _
  have hcapped : (timelineMismatches std signal options first second).length ≤
      (unmatched std signal options
        (Merge.rounds u64Max first second (.text "x") (.text "x"))).length := by
    unfold timelineMismatches capped
    cases options.maxMismatches with
    | none => exact Nat.le_refl _
    | some n => exact List.length_take_le' _ _
  omega

/-- The reference has a mismatch at `u64::MAX` unless the values match then. -/
theorem reference_before_max :
    (timelineReference std signal options first second).filter (fun m => m.time ≠ u64Max) =
        timelineReference std signal options first second ↔
      (u64Max ∈ Merge.times first second → matchAt std options first second u64Max = true) := by
  rw [List.filter_eq_self]
  constructor
  · intro hall hmem
    by_contra hnot
    have hreported : SignalMismatch.new signal u64Max (finalValue first u64Max)
        (finalValue second u64Max) ∈ timelineReference std signal options first second := by
      refine List.mem_map.mpr ⟨u64Max, List.mem_filter.mpr ⟨hmem, ?_⟩, rfl⟩
      rw [Bool.not_eq_true] at hnot
      rw [hnot]
      rfl
    exact of_decide_eq_true (hall _ hreported) rfl
  · intro hmatch m hm
    obtain ⟨time, htime, rfl⟩ := List.mem_map.mp hm
    obtain ⟨hmem, hnot⟩ := List.mem_filter.mp htime
    refine decide_eq_true fun hmax => ?_
    have hmax : time = u64Max := hmax
    subst hmax
    rw [hmatch hmem] at hnot
    cases hnot

/-- **When the merge equals its reference.** On any two timelines it comes to an
end, with no more mismatches than there are events. On chronological ones and
without a cap it reports the reference exactly when the values at `u64::MAX`
match, or nothing happens then. -/
theorem timeline_merge_iff (std : StdText) (signal : String) (context : QueryContext)
    (hlive : context.Live) :
    (∀ (options : ComparisonOptions) (first second : Timeline) (mismatches : List SignalMismatch),
      ∃ report, compareSignalTimeline std signal options context first second mismatches =
          .ok (report.length, mismatches ++ report) ∧
        report.length ≤ first.length + second.length) ∧
    ∀ (options : ComparisonOptions) (first second : Timeline), options.maxMismatches = none →
      Chronological first → Chronological second →
      ((∀ mismatches : List SignalMismatch,
          compareSignalTimeline std signal options context first second mismatches =
            .ok ((timelineReference std signal options first second).length,
              mismatches ++ timelineReference std signal options first second)) ↔
        (u64Max ∈ Merge.times first second → matchAt std options first second u64Max = true)) := by
  constructor
  · intro options first second mismatches
    exact ⟨_, compareSignalTimeline_eq hlive first second mismatches,
      length_timelineMismatches_le first second⟩
  · intro options first second hcap hfirst hsecond
    rw [← @reference_before_max _ signal, ← timelineMismatches_eq hcap hfirst hsecond]
    constructor
    · intro hall
      have hreport := hall []
      rw [compareSignalTimeline_eq hlive] at hreport
      exact congrArg Prod.snd (Except.ok.inj hreport)
    · intro heq mismatches
      rw [compareSignalTimeline_eq hlive, heq]

/-- A change at `u64::MAX` in one file only. -/
def lastMoment : Timeline := [(u64Max, .text "1")]

theorem lastMoment_chronological : Chronological lastMoment :=
  ⟨List.pairwise_singleton .., by decide⟩

theorem nothing_chronological : Chronological [] := ⟨.nil, by decide⟩

/-- The merge ends at `u64::MAX` and does not report the change. -/
theorem timeline_merge_misses_max :
    Chronological lastMoment ∧ Chronological [] ∧
      compareSignalTimeline asciiText "clk" {} {} lastMoment [] [] = .ok (0, []) ∧
      timelineReference asciiText "clk" {} lastMoment [] =
        [⟨"clk", u64Max, .text "1", .text "x", true⟩] := by
  refine ⟨lastMoment_chronological, nothing_chronological, ?_, ?_⟩
  · rw [compareSignalTimeline_eq ⟨rfl, rfl⟩, timelineMismatches_uncapped rfl,
      Merge.rounds_stop (by decide)]
    rfl
  · have htimes : Merge.times lastMoment ([] : Timeline) = [u64Max] := by
      simp [Merge.times, lastMoment]
    rw [timelineReference, htimes]
    decide

/-- Two clocks of which one rises later. -/
def earlyClock : Timeline := [(0, .text "0"), (5, .text "1")]

def lateClock : Timeline := [(0, .text "0"), (7, .text "1")]

theorem timeline_merge_iff_clock :
    (∃ report, compareSignalTimeline asciiText "clk" {} {} earlyClock lateClock [] =
        .ok (report.length, report) ∧ report.length ≤ 4) ∧
    ∀ mismatches : List SignalMismatch,
      compareSignalTimeline asciiText "clk" {} {} earlyClock lateClock mismatches =
        .ok ((timelineReference asciiText "clk" {} earlyClock lateClock).length,
          mismatches ++ timelineReference asciiText "clk" {} earlyClock lateClock) := by
  obtain ⟨hends, hreference⟩ := timeline_merge_iff asciiText "clk" {} ⟨rfl, rfl⟩
  have hnever : u64Max ∉ Merge.times earlyClock lateClock := by
    rw [Merge.mem_times]
    decide
  exact ⟨hends {} earlyClock lateClock [], (hreference {} earlyClock lateClock rfl
    ⟨by simp [Merge.Ordered, earlyClock], by decide⟩
    ⟨by simp [Merge.Ordered, lateClock], by decide⟩).mpr fun hmem => absurd hmem hnever⟩

/-! ## The cap -/

/-- A cap of a positive number of mismatches takes a first part of the report. -/
theorem capped_some {α : Type*} (n : Nat) (report : List α) :
    capped (some n) 0 report = report.take (max n 1) := by
  rw [capped, Nat.sub_zero]

theorem take_max_one_iff {α : Type*} (n : Nat) (report : List α) :
    report.take (max n 1) = report.take n ↔ 0 < n ∨ report = [] := by
  cases n with
  | zero => simp
  | succ n => simp

theorem unmatched_eq_nil_iff (rounds : List TimelineRound) :
    unmatched std signal options rounds = [] ↔
      ∀ round ∈ rounds, valuesMatch std round.value1 round.value2 options.ignoreUnknown = true := by
  rw [unmatched, List.map_eq_nil_iff, List.filter_eq_nil_iff]
  refine forall₂_congr fun round _ => ?_
  rw [Bool.not_eq_true', Bool.not_eq_false]

/-- **When the cap takes a first part of the report.** The loop looks at the cap
after it has reported a mismatch, so a cap of 0 lets the first one through. -/
theorem cap_prefix_iff (std : StdText) (signal : String) (options : ComparisonOptions)
    (context : QueryContext) (hlive : context.Live) (n : Nat) (first second : Timeline) :
    (∀ mismatches : List SignalMismatch, ∃ report,
      compareSignalTimeline std signal { options with maxMismatches := none } context first second
        mismatches = .ok (report.length, mismatches ++ report) ∧
      compareSignalTimeline std signal { options with maxMismatches := some n } context first
        second mismatches = .ok ((report.take n).length, mismatches ++ report.take n)) ↔
    (0 < n ∨ ∀ round ∈ Merge.rounds u64Max first second (.text "x") (.text "x"),
      valuesMatch std round.value1 round.value2 options.ignoreUnknown = true) := by
  rw [← @unmatched_eq_nil_iff _ signal, ← take_max_one_iff]
  have hnone : timelineMismatches std signal { options with maxMismatches := none } first second =
      unmatched std signal options
        (Merge.rounds u64Max first second (.text "x") (.text "x")) := rfl
  have hsome : timelineMismatches std signal { options with maxMismatches := some n } first
      second = (unmatched std signal options
        (Merge.rounds u64Max first second (.text "x") (.text "x"))).take (max n 1) :=
    capped_some n _
  simp only [compareSignalTimeline_eq hlive, hnone, hsome]
  constructor
  · intro hall
    obtain ⟨report, hreport, hcapped⟩ := hall []
    obtain rfl : unmatched std signal options _ = report :=
      congrArg Prod.snd (Except.ok.inj hreport)
    exact congrArg Prod.snd (Except.ok.inj hcapped)
  · intro heq mismatches
    rw [heq]
    exact ⟨_, rfl, rfl⟩

/-- A cap of 0, and one change in one file. -/
theorem cap_prefix_zero :
    compareSignalTimeline asciiText "clk" { maxMismatches := none } {} [(0, .text "1")] [] [] =
        .ok (1, [⟨"clk", 0, .text "1", .text "x", true⟩]) ∧
      compareSignalTimeline asciiText "clk" { maxMismatches := some 0 } {} [(0, .text "1")] [] [] =
        .ok (1, [⟨"clk", 0, .text "1", .text "x", true⟩]) := by
  have hrounds : Merge.rounds u64Max [(0, ChangeValue.text "1")] ([] : Timeline) (.text "x")
      (.text "x") = [⟨0, .text "1", .text "x"⟩] := by
    rw [Merge.rounds_cons (by decide : 0 = _) (by decide)]
    exact congrArg _ Merge.rounds_nil
  constructor
  · rw [compareSignalTimeline_eq ⟨rfl, rfl⟩, timelineMismatches, hrounds]
    decide
  · rw [compareSignalTimeline_eq ⟨rfl, rfl⟩, timelineMismatches, hrounds]
    decide

theorem cap_prefix_iff_clock :
    (∀ mismatches : List SignalMismatch, ∃ report,
      compareSignalTimeline asciiText "clk" { maxMismatches := none } {} (clockTimelines "clk")
        (stuckTimelines "clk") mismatches = .ok (report.length, mismatches ++ report) ∧
      compareSignalTimeline asciiText "clk" { maxMismatches := some 1 } {} (clockTimelines "clk")
        (stuckTimelines "clk") mismatches =
          .ok ((report.take 1).length, mismatches ++ report.take 1)) ↔
    (0 < 1 ∨ ∀ round ∈ Merge.rounds u64Max (clockTimelines "clk") (stuckTimelines "clk")
        (.text "x") (.text "x"), valuesMatch asciiText round.value1 round.value2 false = true) :=
  cap_prefix_iff asciiText "clk" {} {} ⟨rfl, rfl⟩ 1 (clockTimelines "clk") (stuckTimelines "clk")

end VcdTools.Query
