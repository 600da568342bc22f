import VcdTools.Query.CompareProviders

/-! # Comparison is reflexive and symmetric

`values_match` holds between a value and itself and does not depend on the
order of its values; both go through the rounds of a merge to the result. -/
namespace VcdTools.Query
open VcdTools.Lib

def SignalMismatch.swap (m : SignalMismatch) : SignalMismatch :=
  { m with value1 := m.value2, value2 := m.value1 }

/-- The result with its two files swapped. -/
def ComparisonResult.swap (result : ComparisonResult) : ComparisonResult :=
  { result with
    file1 := result.file2
    file2 := result.file1
    signalsOnlyInFile1 := result.signalsOnlyInFile2
    signalsOnlyInFile2 := result.signalsOnlyInFile1
    mismatches := result.mismatches.map SignalMismatch.swap }

variable {std : StdText} {signal : String} {options : ComparisonOptions} {context : QueryContext}

/-! ## Values -/

/-- Every value matches itself, a NaN by its bits. -/
theorem valuesMatch_self (value : ChangeValue) (ignoreUnknown : Bool) :
    valuesMatch std value value ignoreUnknown = true := by
  unfold valuesMatch
  split
  · rfl
  · cases value <;> simp [eqIgnoreAsciiCase]

theorem eqIgnoreAsciiCase_comm (a b : String) : eqIgnoreAsciiCase a b = eqIgnoreAsciiCase b a := by
  unfold eqIgnoreAsciiCase
  exact decide_eq_decide.mpr eq_comm

theorem valuesMatch_comm (first second : ChangeValue) (ignoreUnknown : Bool) :
    valuesMatch std first second ignoreUnknown = valuesMatch std second first ignoreUnknown := by
  unfold valuesMatch
  rw [Bool.or_comm]
  split
  · rfl
  · cases first <;> cases second <;> simp only [eqIgnoreAsciiCase_comm] <;>
      exact decide_eq_decide.mpr eq_comm

/-! ## Reports -/

theorem capped_map {α β : Type*} (f : α → β) (maximum : Option Nat) (count : Nat)
    (report : List α) :
    capped maximum count (report.map f) = (capped maximum count report).map f := by
  cases maximum with
  | none => rfl
  | some n => exact List.map_take.symm

/-- Swapped rounds report swapped mismatches. -/
theorem unmatched_swap (rounds : List TimelineRound) :
    unmatched std signal options (rounds.map Merge.Round.swap) =
      (unmatched std signal options rounds).map SignalMismatch.swap := by
  induction rounds with
  | nil => rfl
  | cons round rounds ih =>
    rw [List.map_cons]
    by_cases hmatch : valuesMatch std round.value1 round.value2 options.ignoreUnknown = true
    · have hswap : valuesMatch std round.swap.value1 round.swap.value2 options.ignoreUnknown =
          true := (valuesMatch_comm _ _ _).trans hmatch
      rw [unmatched_cons_match hmatch, unmatched_cons_match hswap, ih]
    · have hswap : ¬ valuesMatch std round.swap.value1 round.swap.value2 options.ignoreUnknown =
          true := fun h => hmatch ((valuesMatch_comm _ _ _).trans h)
      rw [unmatched_cons hmatch, unmatched_cons hswap, ih, List.map_cons]
      simp [SignalMismatch.new, SignalMismatch.swap, Merge.Round.swap, Bool.or_comm]

theorem timelineMismatches_swap (first second : Timeline) :
    timelineMismatches std signal options second first =
      (timelineMismatches std signal options first second).map SignalMismatch.swap := by
  rw [timelineMismatches, Merge.rounds_swap, unmatched_swap, capped_map]
  rfl

theorem timelineMismatches_self (timeline : Timeline) :
    timelineMismatches std signal options timeline timeline = [] := by
  have hnone : unmatched std signal options
      (Merge.rounds u64Max timeline timeline (.text "x") (.text "x")) = [] := by
    rw [unmatched, List.map_eq_nil_iff, List.filter_eq_nil_iff]
    intro round hround
    rw [Merge.rounds_self u64Max timeline (.text "x") round hround, valuesMatch_self]
    simp
  rw [timelineMismatches, hnone, capped_nil]

/-! ## Results -/

variable {first second : TimelineProvider} {timelines1 timelines2 : String → Timeline}

theorem allMismatches_swap (timelines1 timelines2 : String → Timeline) (signals : List String) :
    allMismatches std options timelines2 timelines1 signals =
      (allMismatches std options timelines1 timelines2 signals).map SignalMismatch.swap := by
  unfold allMismatches
  rw [List.map_flatMap]
  exact List.flatMap_congr fun signal _ => timelineMismatches_swap _ _

theorem mismatched_comm (timelines1 timelines2 : String → Timeline) (signals : List String) :
    mismatched std options timelines2 timelines1 signals =
      mismatched std options timelines1 timelines2 signals :=
  List.filter_congr fun signal _ => by
    rw [timelineMismatches_swap, List.isEmpty_map]

theorem selectedSignals_comm (h1 : first.orderedSignalNames.Nodup)
    (h2 : second.orderedSignalNames.Nodup) :
    selectedSignals options second first = selectedSignals options first second := by
  rw [selectedSignals, commonSignals_comm h2 h1, selectedSignals]

theorem comparisonOf_swap (h1 : first.orderedSignalNames.Nodup)
    (h2 : second.orderedSignalNames.Nodup) :
    comparisonOf std options second first timelines2 timelines1 =
      (comparisonOf std options first second timelines1 timelines2).swap := by
  simp only [comparisonOf, ComparisonResult.swap, selectedSignals_comm h1 h2,
    commonSignals_comm h2 h1, mismatched_comm timelines1 timelines2]
  rw [allMismatches_swap timelines1 timelines2, List.length_map, List.isEmpty_map]

theorem comparisonOf_self (timelines : String → Timeline) :
    (comparisonOf std options first first timelines timelines).mismatches = [] := by
  simp only [comparisonOf, allMismatches, List.flatMap_eq_nil_iff]
  intro signal _
  exact timelineMismatches_self _

/-- **Comparison is reflexive and symmetric.** Whatever the timelines and the
options: a comparison of a provider with itself passes without a mismatch, and
when two providers are compared, swapping them gives the swapped result. Two
error-free providers are compared under every unlimited context. -/
theorem compareProviders_symmetric (std : StdText) (options : ComparisonOptions)
    (context : QueryContext) (first second : TimelineProvider)
    (h1 : first.orderedSignalNames.Nodup) (h2 : second.orderedSignalNames.Nodup) :
    (∀ result, compareProviders std first first options context = .ok result →
      result.passed = true ∧ result.mismatches = [] ∧ result.totalMismatches = 0) ∧
    (∀ result, compareProviders std first second options context = .ok result →
      compareProviders std second first options context = .ok result.swap) ∧
    (∀ timelines1 timelines2, context.Unlimited →
      first.Serves options.timeWindow context timelines1 →
      second.Serves options.timeWindow context timelines2 →
      ∃ result self, compareProviders std first second options context = .ok result ∧
        compareProviders std first first options context = .ok self) := by
  refine ⟨?_, ?_, ?_⟩
  · intro result hresult
    obtain ⟨-, -, values, values', hvalues, hvalues', -, -, rfl⟩ := compareProviders_ok hresult
    obtain rfl : values = values' := Except.ok.inj (hvalues.symm.trans hvalues')
    have hnone : (comparisonOf std options first first (SignalTimelines.timeline values)
        (SignalTimelines.timeline values)).mismatches = [] := comparisonOf_self _
    exact ⟨List.isEmpty_iff.mpr hnone, hnone, by rw [← List.length_eq_zero_iff] at hnone; exact hnone⟩
  · intro result hresult
    obtain ⟨hlive, hcount, values1, values2, hvalues1, hvalues2, hcomplete1, hcomplete2, rfl⟩ :=
      compareProviders_ok hresult
    rw [← selectedSignals_comm h1 h2] at hcount hvalues1 hvalues2
    rw [compareProviders_eq hlive hcount hvalues2 hvalues1 hcomplete2 hcomplete1,
      comparisonOf_swap h1 h2]
  · intro timelines1 timelines2 hcontext hserves1 hserves2
    exact ⟨_, _, hserves1.compare hserves2 hcontext, hserves1.compare hserves1 hcontext⟩

/-- A provider with a NaN and decreasing times, and one with a text. -/
def nanProvider : TimelineProvider :=
  tableProvider "a.vcd" ["v"] fun _ => [(7, .float ⟨0x7ff8000000000001⟩), (3, .integer 1)]

def textProvider : TimelineProvider := tableProvider "b.vcd" ["w", "v"] fun _ => [(3, .text "Z")]

theorem compareProviders_symmetric_nan :
    (∀ result, compareProviders asciiText nanProvider nanProvider {} {} = .ok result →
      result.passed = true ∧ result.mismatches = [] ∧ result.totalMismatches = 0) ∧
    (∀ result, compareProviders asciiText nanProvider textProvider {} {} = .ok result →
      compareProviders asciiText textProvider nanProvider {} {} = .ok result.swap) ∧
    (∀ timelines1 timelines2, ({} : QueryContext).Unlimited →
      nanProvider.Serves ⟨none, none⟩ {} timelines1 →
      textProvider.Serves ⟨none, none⟩ {} timelines2 →
      ∃ result self, compareProviders asciiText nanProvider textProvider {} {} = .ok result ∧
        compareProviders asciiText nanProvider nanProvider {} {} = .ok self) :=
  compareProviders_symmetric asciiText {} {} nanProvider textProvider (by decide) (by decide)

end VcdTools.Query
