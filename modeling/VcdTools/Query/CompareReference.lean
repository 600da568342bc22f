import VcdTools.Query.Compare
import VcdTools.Query.ExtractReference

/-! # What a comparison is

The abstract side of `compare_providers`, over the rounds of a merge. Under an
unlimited context the comparison of a signal reports the rounds whose values do
not match, and the comparison of two providers puts the signals' reports one
after the other. -/
namespace VcdTools.Query
open VcdTools.Lib

/-! ## The report of a signal -/

abbrev TimelineRound := Merge.Round Nat ChangeValue ChangeValue

variable (std : StdText) (signal : String) (options : ComparisonOptions)

/-- The rounds that are reported when nothing caps the report. -/
def unmatched (rounds : List TimelineRound) : List SignalMismatch :=
  (rounds.filter fun round => !valuesMatch std round.value1 round.value2 options.ignoreUnknown).map
    fun round => .new signal round.time round.value1 round.value2

/-- A report whose length is looked at after each mismatch, with `count`
mismatches before it. -/
def capped {α : Type*} (maximum : Option Nat) (count : Nat) (report : List α) : List α :=
  match maximum with
  | none => report
  | some maximum => report.take (max (maximum - count) 1)

/-- The mismatches of two timelines, which both start at `x`. -/
def timelineMismatches (first second : Timeline) : List SignalMismatch :=
  capped options.maxMismatches 0
    (unmatched std signal options (Merge.rounds u64Max first second (.text "x") (.text "x")))

/-- The mismatches of some signals, one signal after the other. -/
def allMismatches (timelines1 timelines2 : String → Timeline) (signals : List String) :
    List SignalMismatch :=
  signals.flatMap fun signal =>
    timelineMismatches std signal options (timelines1 signal) (timelines2 signal)

variable {std signal options} {context : QueryContext}

@[simp] theorem capped_nil {α : Type*} (maximum : Option Nat) (count : Nat) :
    capped maximum count ([] : List α) = [] := by
  cases maximum <;> simp [capped]

/-- A report over the cap ends with the mismatch that reaches it. -/
theorem capped_cons_last {α : Type*} {maximum : Option Nat} {count : Nat}
    (h : (maximum.any fun maximum => count + 1 ≥ maximum) = true) (a : α) (rest : List α) :
    capped maximum count (a :: rest) = [a] := by
  cases maximum with
  | none => cases h
  | some n =>
    have hle : n ≤ count + 1 := by simpa using h
    have hone : max (n - count) 1 = 1 := by omega
    rw [capped, hone]
    rfl

theorem capped_cons {α : Type*} {maximum : Option Nat} {count : Nat}
    (h : ¬ (maximum.any fun maximum => count + 1 ≥ maximum) = true) (a : α) (rest : List α) :
    capped maximum count (a :: rest) = a :: capped maximum (count + 1) rest := by
  cases maximum with
  | none => rfl
  | some n =>
    have hlt : count + 1 < n := by simpa using h
    have hmax : max (n - count) 1 = max (n - (count + 1)) 1 + 1 := by omega
    rw [capped, hmax]
    rfl

theorem unmatched_cons_match {round : TimelineRound} {rounds : List TimelineRound}
    (h : valuesMatch std round.value1 round.value2 options.ignoreUnknown = true) :
    unmatched std signal options (round :: rounds) = unmatched std signal options rounds := by
  rw [unmatched, List.filter_cons_of_neg (by simpa using h), unmatched]

theorem unmatched_cons {round : TimelineRound} {rounds : List TimelineRound}
    (h : ¬ valuesMatch std round.value1 round.value2 options.ignoreUnknown = true) :
    unmatched std signal options (round :: rounds) =
      .new signal round.time round.value1 round.value2 :: unmatched std signal options rounds := by
  rw [unmatched, List.filter_cons_of_pos (by simpa using h), List.map_cons, unmatched]

/-! ## The comparison of one signal -/

/-- What is left of a merge. -/
def TimelineMerge.rounds (m : TimelineMerge) : List TimelineRound :=
  Merge.rounds u64Max m.first m.second m.current1 m.current2

theorem takeTime_live (hlive : context.Live) (time : Nat) (current : ChangeValue)
    (workUnits : Nat) (entries : Timeline) :
    ∃ result, takeTime context time current workUnits entries = .ok result := by
  induction entries generalizing current workUnits with
  | nil => exact ⟨_, rfl⟩
  | cons entry rest ih =>
    rw [takeTime]
    by_cases htime : entry.1 = time
    · have hpoll : ∃ w, pollTimelineContext context workUnits = .ok w := by
        unfold pollTimelineContext
        simp only [QueryContext.check_live hlive]
        split <;> exact ⟨_, rfl⟩
      obtain ⟨w, hw⟩ := hpoll
      rw [if_pos htime, hw]
      exact ih entry.2 w
    · exact ⟨_, if_neg htime⟩

/-- A round of the loop takes the first of the rounds that are left. -/
theorem TimelineMerge.rounds_of_takeTime {m : TimelineMerge} (next : TimelineMerge)
    {time w w₁ w₂ : Nat}
    (htime : time = min (Merge.headTime u64Max m.first) (Merge.headTime u64Max m.second))
    (hstop : ¬ time = u64Max)
    (hfirst : takeTime context time m.current1 w m.first = .ok (next.first, next.current1, w₁))
    (hsecond : takeTime context time m.current2 w₁ m.second =
      .ok (next.second, next.current2, w₂)) :
    m.rounds = ⟨time, next.current1, next.current2⟩ :: next.rounds := by
  obtain ⟨hrest1, hcurrent1⟩ := takeTime_ok hfirst
  obtain ⟨hrest2, hcurrent2⟩ := takeTime_ok hsecond
  rw [rounds, Merge.rounds_cons htime hstop, rounds, hrest1, hrest2, hcurrent1, hcurrent2]

/-- **The merge loop** adds the report of the rounds that are left: by the
induction of the loop itself. -/
theorem compareLoop_live (std : StdText) (signal : String) (options : ComparisonOptions)
    (hlive : context.Live) (m : TimelineMerge) :
    ∃ m', compareLoop std signal options context m = .ok m' ∧
      m'.mismatches = m.mismatches ++
        capped options.maxMismatches m.count (unmatched std signal options m.rounds) ∧
      m'.count = m.count +
        (capped options.maxMismatches m.count (unmatched std signal options m.rounds)).length := by
  fun_induction compareLoop std signal options context m with
  | case1 m hempty =>
    have hrounds : m.rounds = [] := by
      rw [TimelineMerge.rounds, hempty.1, hempty.2, Merge.rounds_nil]
    exact ⟨m, rfl, by simp [hrounds, unmatched], by simp [hrounds, unmatched]⟩
  | case2 m hne time hstop =>
    have hrounds : m.rounds = [] := Merge.rounds_stop hstop
    exact ⟨m, rfl, by simp [hrounds, unmatched], by simp [hrounds, unmatched]⟩
  | case3 m hne time hstop error herror =>
    obtain ⟨result, hok⟩ := takeTime_live hlive time m.current1 m.workUnits m.first
    rw [hok] at herror
    cases herror
  | case4 m hne time hstop first current1 w hfirst error herror =>
    obtain ⟨result, hok⟩ := takeTime_live hlive time m.current2 w m.second
    rw [hok] at herror
    cases herror
  | case5 m hne time hstop first current1 w hfirst second current2 w' hsecond next hmatch ih =>
    rw [TimelineMerge.rounds_of_takeTime next rfl hstop hfirst hsecond,
      unmatched_cons_match hmatch]
    exact ih
  | case6 m hne time hstop first current1 w hfirst second current2 w' hsecond hmatch error herror =>
    exact absurd hlive (QueryContext.not_live_of_check herror)
  | case7 m hne time hstop first current1 w hfirst second current2 w' hsecond next hmatch hcheck
      reported hcap =>
    rw [TimelineMerge.rounds_of_takeTime next rfl hstop hfirst hsecond,
      unmatched_cons hmatch, capped_cons_last hcap]
    exact ⟨reported, rfl, rfl, rfl⟩
  | case8 m hne time hstop first current1 w hfirst second current2 w' hsecond next hmatch hcheck
      reported hcap ih =>
    obtain ⟨m', hm', hmismatches, hcount⟩ := ih
    rw [TimelineMerge.rounds_of_takeTime next rfl hstop hfirst hsecond,
      unmatched_cons hmatch, capped_cons hcap]
    refine ⟨m', hm', ?_, ?_⟩
    · exact hmismatches.trans (List.append_assoc _ _ _)
    · rw [hcount, List.length_cons]
      exact Nat.add_right_comm _ _ _

/-- **The comparison of one signal** puts its report at the end of the list. -/
theorem compareSignalTimeline_eq (hlive : context.Live) (first second : Timeline)
    (mismatches : List SignalMismatch) :
    compareSignalTimeline std signal options context first second mismatches =
      .ok ((timelineMismatches std signal options first second).length,
        mismatches ++ timelineMismatches std signal options first second) := by
  obtain ⟨m', hm', hmismatches, hcount⟩ := compareLoop_live std signal options hlive
    ⟨first, second, .text "x", .text "x", 0, 0, mismatches⟩
  rw [compareSignalTimeline, hm']
  simp only [TimelineMerge.rounds, Nat.zero_add] at hmismatches hcount
  simp only [bind, Except.bind, pure, Except.pure, hmismatches, hcount, timelineMismatches]

/-- Every mismatch of a report carries the name of its signal. -/
theorem signalName_of_mem {first second : Timeline} {m : SignalMismatch}
    (h : m ∈ timelineMismatches std signal options first second) : m.signalName = signal := by
  have hmem : m ∈ unmatched std signal options
      (Merge.rounds u64Max first second (.text "x") (.text "x")) := by
    unfold timelineMismatches capped at h
    cases hmaximum : options.maxMismatches with
    | none => simpa only [hmaximum] using h
    | some n =>
      simp only [hmaximum] at h
      exact List.mem_of_mem_take h
  obtain ⟨round, -, rfl⟩ := List.mem_map.mp hmem
  rfl

end VcdTools.Query
