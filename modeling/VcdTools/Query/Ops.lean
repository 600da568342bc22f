import VcdTools.Lib.Visit
import VcdTools.Lib.Words
import VcdTools.Query.Compare
import VcdTools.Query.ExtractCollect
import Mathlib.Logic.Function.Basic

/-! # Finding and counting

`find_nth_occurrence` and `count_toggles` of `query/ops.rs`, on an opened VCD.
Both are loops over an extraction; the bodies of the loops are visitors, which
the FST backend hands to its reader. -/
namespace VcdTools.Query
open VcdTools.Lib

inductive TargetValue
  | integer (value : Nat)
  | text (value : String)
  deriving DecidableEq, Repr

/-- `TargetValue::normalize`. -/
def TargetValue.normalize (std : StdText) : TargetValue → String
  | .integer i => Nat.repr i
  | .text t => std.toLowercase t

/-- `char::to_digit`, for a radix of at most 16. -/
def toDigit (radix : Nat) (c : Char) : Option Nat :=
  let value :=
    if '0' ≤ c ∧ c ≤ '9' then c.toNat - '0'.toNat
    else if 'a' ≤ c ∧ c ≤ 'f' then c.toNat - 'a'.toNat + 10
    else if 'A' ≤ c ∧ c ≤ 'F' then c.toNat - 'A'.toNat + 10
    else radix
  if value < radix then some value else none

/-- `u128::from_str_radix`: at least one digit, with or without a plus sign in
front. -/
def u128FromStrRadix (text : List Char) (radix : Nat) : Option Nat :=
  let digits := if text.head? = some '+' then text.tail else text
  if digits = [] then none
  else digits.foldlM (fun value c => do
    let digit ← toDigit radix c
    if value * radix + digit < 2 ^ 128 then some (value * radix + digit) else none) 0

/-- `parse_target_value`. -/
def parseTargetValue (std : StdText) (raw : String) : TargetValue :=
  let text := std.toLowercase (String.ofList (trim raw.toList))
  let hex := match text.toList with
    | '0' :: 'x' :: hex => u128FromStrRadix hex 16
    | _ => none
  match hex with
  | some value => .integer value
  | none =>
    match u128FromStrRadix text.toList 10 with
    | some value => .integer value
    | none => .text text

/-- `{:0width$x}`. -/
def lowerHex (width n : Nat) : String :=
  let digits := Nat.toDigits 16 n
  String.ofList (List.replicate (width - digits.length) '0' ++ digits)

/-- `impl Display for ChangeValue`. -/
def displayValue (std : StdText) : ChangeValue → String
  | .integer i => Nat.repr i
  | .float f => std.floatText f
  | .text t => t

/-- The digits that `format_value_for_signal` asks for. The sum is a `u32`. -/
def hexWidth (signalSize : Nat) : Nat := (signalSize + 3) % 2 ^ 32 / 4

/-- `format_value_for_signal`; nothing when it panics. -/
def formatValueForSignal (std : StdText) (value : ChangeValue) (signalSize : Nat) :
    Option String :=
  match value with
  | .integer i =>
    if signalSize > 1 then
      if std.overflowChecks ∧ signalSize + 3 > u32Max then none
      else
        let width := hexWidth signalSize
        if width > std.maxWidth then none else some ("0x" ++ lowerHex width i)
    else some (displayValue std value)
  | _ => some (displayValue std value)

/-- The text of a value for which there is one. -/
def formatted (std : StdText) (value : ChangeValue) (signalSize : Nat) : String :=
  match value with
  | .integer i =>
    if signalSize > 1 then "0x" ++ lowerHex (hexWidth signalSize) i
    else displayValue std value
  | _ => displayValue std value

/-- **The value has a text**: it is not an integer of a signal so wide that its sum
overflows, or that its digits are more than `format!` takes. -/
def Formats (std : StdText) (value : ChangeValue) (signalSize : Nat) : Prop :=
  match value with
  | .integer _ => signalSize > 1 →
    ¬ (std.overflowChecks ∧ signalSize + 3 > u32Max) ∧ hexWidth signalSize ≤ std.maxWidth
  | _ => True

instance (std : StdText) (value : ChangeValue) (signalSize : Nat) :
    Decidable (Formats std value signalSize) :=
  match value with
  | .integer _ => inferInstanceAs (Decidable (_ → _))
  | .float _ | .text _ => inferInstanceAs (Decidable True)

/-- **What is formatted**, and what panics. -/
theorem formatValueForSignal_eq (std : StdText) (value : ChangeValue) (signalSize : Nat) :
    formatValueForSignal std value signalSize =
      if Formats std value signalSize then some (formatted std value signalSize) else none := by
  cases value with
  | integer i =>
    unfold formatValueForSignal formatted Formats
    by_cases hsize : signalSize > 1
    · by_cases hsum : std.overflowChecks ∧ signalSize + 3 > u32Max
      · simp [hsize, hsum]
      · by_cases hwidth : hexWidth signalSize > std.maxWidth
        · simp [hsize, hsum, hwidth]
        · simp [hsize, hsum, hwidth, Nat.le_of_not_gt hwidth]
    · simp [hsize]
  | float f => rfl
  | text t => rfl

theorem formatValueForSignal_eq_some {std : StdText} {value : ChangeValue} {signalSize : Nat}
    {text : String} : formatValueForSignal std value signalSize = some text ↔
      Formats std value signalSize ∧ formatted std value signalSize = text := by
  rw [formatValueForSignal_eq]
  split
  · rename_i h
    rw [Option.some.injEq]
    exact (and_iff_right h).symm
  · rename_i h
    exact iff_of_false nofun fun heq => h heq.1

/-- `SelectedChangeStream::validate_current_generation`. -/
def SelectedChangeStream.validateCurrentGeneration (stream : SelectedChangeStream) :
    Except QueryError Unit := do
  stream.context.check
  stream.validateComplete.mapError QueryError.fromVcd
  stream.context.check

/-- `OpenedTimeValueIter::validate_current_generation`. -/
def OpenedTimeValueIter.validateCurrentGeneration (iter : OpenedTimeValueIter) :
    Except QueryError Unit := do
  iter.context.check
  iter.stream.validateCurrentGeneration
  iter.context.check

/-- A loop over an opened iterator, with the visitor for its body. -/
def OpenedTimeValueIter.forEach {τ : Type} (iter : OpenedTimeValueIter)
    (visitor : τ → TimeValue → Except QueryError (Bool × τ)) (visited : τ) :
    Except QueryError (Bool × τ × OpenedTimeValueIter) :=
  iterate OpenedTimeValueIter.next OpenedTimeValueIter.size OpenedTimeValueIter.next_shrinks
    visitor visited iter

/-! ## Finding -/

/-- The matching rows so far, and the one that was asked for. -/
structure Occurrences where
  count : Nat := 0
  found : Option TimeValue := none
  deriving DecidableEq, Repr

/-- A row in search of an occurrence of a value: the search leaves at the one
that is asked for. -/
def nthOccurrence (std : StdText) (normalizedTarget : String) (occurrence : Nat)
    (state : Occurrences) (event : TimeValue) : Except QueryError (Bool × Occurrences) :=
  if normalize std event.value = normalizedTarget then
    let count := state.count + 1
    if count = occurrence then .ok (false, ⟨count, some event⟩)
    else .ok (true, { state with count := count })
  else .ok (true, state)

/-- `OpenedVcd::find_nth_occurrence`. -/
def OpenedVcd.findNthOccurrence (opened : OpenedVcd) (std : StdText) (signal : String)
    (targetValue : TargetValue) (occurrence : Nat) (window : TimeWindow) (context : QueryContext) :
    Except QueryError (Option TimeValue × Nat) := do
  if occurrence < 1 then throw (.vcd .invalidOccurrence)
  context.check
  match opened.signal signal with
  | none => throw (.vcd (.missingSignal signal))
  | some found =>
    let size := found.size
    let events ← opened.extract [signal] window context
    let normalizedTarget := targetValue.normalize std
    match ← events.forEach (nthOccurrence std normalizedTarget occurrence) {} with
    | (true, _, _) => return (none, size)
    | (false, state, events) =>
      events.validateCurrentGeneration
      return (state.found, size)

/-! ## Counting -/

/-- `HashMap<String, _>`, by what it has for each name. -/
abbrev NameMap (α : Type) := String → Option α

/-- Every row has a text in the width of its name. -/
def Printable (std : StdText) (sizes : NameMap Nat) (rows : List TimeValue) : Prop :=
  ∀ row ∈ rows, Formats std row.value ((sizes row.signal).getD 1)

instance (std : StdText) (sizes : NameMap Nat) (rows : List TimeValue) :
    Decidable (Printable std sizes rows) :=
  inferInstanceAs (Decidable (∀ row ∈ rows, _))

/-- `toggle_counts` and `last_values`. -/
structure ToggleCounts where
  toggleCounts : NameMap Nat
  lastValues : NameMap String

/-- A round of the loop of `OpenedVcd::count_toggles`, with the formatted value. -/
def ToggleCounts.count (state : ToggleCounts) (signal formatted : String) : ToggleCounts :=
  let toggleCounts :=
    match state.lastValues signal with
    | some last =>
      if last ≠ "" ∧ last ≠ formatted then
        match state.toggleCounts signal with
        | some count => Function.update state.toggleCounts signal (some (count + 1))
        | none => state.toggleCounts
      else state.toggleCounts
    | none => state.toggleCounts
  { toggleCounts := toggleCounts
    lastValues := Function.update state.lastValues signal (some formatted) }

/-- The body of the loop; nothing when it panics. -/
def ToggleCounts.next (std : StdText) (sizes : NameMap Nat) (state : ToggleCounts)
    (event : TimeValue) : Option ToggleCounts :=
  (formatValueForSignal std event.value ((sizes event.signal).getD 1)).map
    (state.count event.signal)

/-- `targets.iter().map(|name| (name.clone(), value)).collect()`. -/
def forTargets {α : Type} (targets : List String) (value : α) : NameMap α :=
  fun name => if name ∈ targets then some value else none

/-- `sizes`. -/
def OpenedVcd.targetSizes (opened : OpenedVcd) (targets : List String) : NameMap Nat :=
  fun name => if name ∈ targets then (opened.signal name).map (·.size) else none

/-- `OpenedVcd::count_toggles`; nothing when it panics. -/
def OpenedVcd.countToggles (opened : OpenedVcd) (std : StdText) (targets : List String)
    (window : TimeWindow) (context : QueryContext) : Option (Except QueryError (NameMap Nat)) :=
  unwound do
    context.checkSignalCount targets.length
    let sizes := opened.targetSizes targets
    let events ← opened.extract targets window context
    let (_, state, _) ← events.forEach
      (unwinding fun state event => (ToggleCounts.next std sizes state event).map .ok)
      (some ⟨forTargets targets 0, forTargets targets ""⟩)
    return state.map (·.toggleCounts)

end VcdTools.Query
