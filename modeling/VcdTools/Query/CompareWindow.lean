import VcdTools.Query.CompareTimes

/-! # A comparison in a window

A windowed comparison merges what the window leaves of the two timelines, and
both sides start at `x` there. From the time on at which nothing from before the
window is left on either side, it reports what a comparison without a window
does. -/
namespace VcdTools.Query
open VcdTools.Lib

/-- What the window leaves of a timeline. -/
def cut (window : TimeWindow) (timeline : Timeline) : Timeline :=
  timeline.filter fun entry => Covers window entry.1

/-- The signal has changed inside the window, or has not changed at all so far. -/
def Fresh (window : TimeWindow) (timeline : Timeline) (time : Nat) : Prop :=
  (∃ entry ∈ timeline, Covers window entry.1 ∧ entry.1 ≤ time) ∨
    ∀ entry ∈ timeline, time < entry.1

instance (window : TimeWindow) (timeline : Timeline) (time : Nat) :
    Decidable (Fresh window timeline time) :=
  inferInstanceAs (Decidable (_ ∨ _))

variable {std : StdText} {signal : String} {options : ComparisonOptions} {window : TimeWindow}
  {timeline first second : Timeline} {time : Nat}

/-- A window has no holes. -/
theorem Covers.between {a b t : Nat} (ha : Covers window a) (hb : Covers window b) (hat : a ≤ t)
    (htb : t ≤ b) : Covers window t :=
  ⟨fun start hstart => (ha.1 start hstart).trans hat, fun end_ hend => htb.trans (hb.2 end_ hend)⟩

theorem Chronological.cut (h : Chronological timeline) (window : TimeWindow) :
    Chronological (cut window timeline) :=
  ⟨List.Pairwise.filter _ h.ordered, fun entry hentry => h.u64 entry (List.mem_filter.mp hentry).1⟩

/-- Between two times of the window the cut leaves everything. -/
theorem valueAt_cut_of_covers (current : ChangeValue)
    (h : ∀ entry ∈ timeline, entry.1 ≤ time → Covers window entry.1) :
    Merge.valueAt time current (cut window timeline) = Merge.valueAt time current timeline := by
  have hfilter : (cut window timeline).filter (fun entry => entry.1 ≤ time) =
      timeline.filter fun entry => entry.1 ≤ time := by
    rw [cut, List.filter_filter]
    refine List.filter_congr fun entry hentry => ?_
    by_cases hle : entry.1 ≤ time
    · simp only [hle, h entry hentry hle, decide_true, Bool.and_true]
    · simp only [hle, decide_false, Bool.false_and]
  rw [Merge.valueAt, hfilter, Merge.valueAt]

/-- After a change in the window it does not matter what was before. -/
theorem valueAt_cut (hordered : Merge.Ordered timeline) (htime : Covers window time)
    (h : ∃ entry ∈ timeline, Covers window entry.1 ∧ entry.1 ≤ time) (current current' : ChangeValue) :
    Merge.valueAt time current (cut window timeline) = Merge.valueAt time current' timeline := by
  induction timeline generalizing current current' with
  | nil =>
    obtain ⟨entry, hentry, _⟩ := h
    cases hentry
  | cons head rest ih =>
    obtain ⟨entry, hentry, hcovers, hle⟩ := h
    have hhead : Merge.headTime u64Max (head :: rest) ≤ entry.1 :=
      Merge.headTime_le hordered entry hentry
    change head.1 ≤ entry.1 at hhead
    rw [Merge.valueAt_cons_le (hhead.trans hle)]
    by_cases hin : Covers window head.1
    · have hrest : ∀ entry ∈ rest, entry.1 ≤ time → Covers window entry.1 := fun entry hentry =>
        hin.between htime ((List.pairwise_cons.mp hordered).1 entry hentry)
      rw [cut, List.filter_cons_of_pos (by simpa using hin),
        Merge.valueAt_cons_le (hhead.trans hle)]
      exact valueAt_cut_of_covers head.2 hrest
    · rw [cut, List.filter_cons_of_neg (by simpa using hin)]
      refine ih hordered.tail ?_ current head.2
      rcases List.mem_cons.mp hentry with rfl | hentry
      · exact absurd hcovers hin
      · exact ⟨entry, hentry, hcovers, hle⟩

/-- **Where nothing from before the window is left**, the cut has the same value. -/
theorem finalValue_cut (hordered : Merge.Ordered timeline) (htime : Covers window time)
    (hfresh : Fresh window timeline time) :
    finalValue (cut window timeline) time = finalValue timeline time := by
  rcases hfresh with h | h
  · exact valueAt_cut hordered htime h _ _
  · have hcut : ∀ entry ∈ cut window timeline, time < entry.1 := fun entry hentry =>
      h entry (List.mem_filter.mp hentry).1
    rw [finalValue, finalValue, Merge.valueAt_of_gt h, Merge.valueAt_of_gt hcut]

theorem times_cut (window : TimeWindow) (first second : Timeline) :
    Merge.times (cut window first) (cut window second) =
      (Merge.times first second).filter fun time => Covers window time := by
  have hmem : ∀ (timeline : Timeline) (time : Nat),
      time ∈ (cut window timeline).map Prod.fst ↔
        time ∈ timeline.map Prod.fst ∧ Covers window time := by
    intro timeline time
    simp only [cut, List.mem_map, List.mem_filter, decide_eq_true_eq]
    constructor
    · rintro ⟨entry, ⟨hentry, hcovers⟩, rfl⟩
      exact ⟨⟨entry, hentry, rfl⟩, hcovers⟩
    · rintro ⟨⟨entry, hentry, rfl⟩, hcovers⟩
      exact ⟨entry, ⟨hentry, hcovers⟩, rfl⟩
  refine (Merge.times_sorted _ _).eq_of_mem_iff ((Merge.times_sorted _ _).filter _) fun time => ?_
  rw [Merge.mem_times, hmem, hmem, List.mem_filter, Merge.mem_times, decide_eq_true_eq]
  exact or_and_right.symm

theorem mismatchesAt_congr {first' second' : Timeline} {times : List Nat}
    (h : ∀ time ∈ times, finalValue first' time = finalValue first time ∧
      finalValue second' time = finalValue second time) :
    mismatchesAt std signal options first' second' times =
      mismatchesAt std signal options first second times := by
  have hfilter : (times.filter fun time => !matchAt std options first' second' time) =
      times.filter fun time => !matchAt std options first second time :=
    List.filter_congr fun time htime => by
      rw [matchAt, matchAt, (h time htime).1, (h time htime).2]
  rw [mismatchesAt, mismatchesAt, hfilter]
  refine List.map_congr_left fun time htime => ?_
  obtain ⟨h1, h2⟩ := h time (List.mem_filter.mp htime).1
  rw [h1, h2]

/-- The times at which both files are past what was before the window. -/
def freshTime (window : TimeWindow) (first second : Timeline) (time : Nat) : Bool :=
  decide (Fresh window first time) && decide (Fresh window second time)

/-- **The report of a signal in a window**, at the times at which nothing from
before it is left, is the report without a window. -/
theorem timelineMismatches_window (hcap : options.maxMismatches = none)
    (hfirst : Chronological first) (hsecond : Chronological second) :
    (timelineMismatches std signal options (cut window first) (cut window second)).filter
        (fun m => freshTime window first second m.time) =
      (timelineMismatches std signal options first second).filter fun m =>
        decide (Covers window m.time) && freshTime window first second m.time := by
  rw [timelineMismatches_uncapped hcap, timelineMismatches_uncapped hcap,
    unmatched_rounds (hfirst.cut window) (hsecond.cut window), unmatched_rounds hfirst hsecond,
    times_cut, ← mismatchesAt_filter (fun time => freshTime window first second time),
    ← mismatchesAt_filter (fun time =>
      decide (Covers window time) && freshTime window first second time)]
  have htimes : ((((Merge.times first second).filter fun time => Covers window time).filter
      (· ≠ u64Max)).filter fun time => freshTime window first second time) =
      ((Merge.times first second).filter (· ≠ u64Max)).filter fun time =>
        decide (Covers window time) && freshTime window first second time := by
    simp only [List.filter_filter]
    refine List.filter_congr fun time _ => ?_
    cases decide (Covers window time) <;> simp
  rw [htimes]
  refine mismatchesAt_congr fun time htime => ?_
  obtain ⟨_, hpred⟩ := List.mem_filter.mp htime
  obtain ⟨hcovers, hfresh⟩ := Bool.and_eq_true_iff.mp hpred
  obtain ⟨hfresh1, hfresh2⟩ := Bool.and_eq_true_iff.mp hfresh
  exact ⟨finalValue_cut hfirst.ordered (of_decide_eq_true hcovers) (of_decide_eq_true hfresh1),
    finalValue_cut hsecond.ordered (of_decide_eq_true hcovers) (of_decide_eq_true hfresh2)⟩

/-- A windowed report stays in its window. -/
theorem covers_of_mem (hfirst : Chronological first) (hsecond : Chronological second)
    (hcap : options.maxMismatches = none) {m : SignalMismatch}
    (h : m ∈ timelineMismatches std signal options (cut window first) (cut window second)) :
    Covers window m.time := by
  rw [timelineMismatches_eq hcap (hfirst.cut window) (hsecond.cut window)] at h
  obtain ⟨time, htime, rfl⟩ := List.mem_map.mp (List.mem_filter.mp h).1
  have hmem := (List.mem_filter.mp htime).1
  rw [times_cut] at hmem
  exact of_decide_eq_true (List.mem_filter.mp hmem).2

end VcdTools.Query
