import Mathlib.Algebra.Ring.Nat

/-! # The crate's value types

`VcdError`, `VcdMeta`, `ChangeValue`, `TimeWindow` and `TimeValue` of `lib.rs`,
with the parts of `std::io::Error` the crate looks at. -/
namespace VcdTools

/-- `u64::MAX`. -/
def u64Max : Nat := 2 ^ 64 - 1

/-- `u64::checked_add(1)`. -/
def checkedSucc (n : Nat) : Option Nat :=
  if n < u64Max then some (n + 1) else none

/-- `u64::saturating_add`. -/
def saturatingAdd (a b : Nat) : Nat := min (a + b) u64Max

theorem checkedSucc_some {n m : Nat} (h : checkedSucc n = some m) : m = n + 1 := by
  unfold checkedSucc at h
  split at h
  · exact (Option.some.inj h).symm
  · cases h

/-- The kinds of `std::io::ErrorKind` that opening, reading and seeking report. -/
inductive ErrorKind
  | notFound | permissionDenied | wouldBlock | invalidInput | invalidData | timedOut
  | interrupted | unexpectedEof | outOfMemory | other
  deriving DecidableEq, Repr

/-- `std::io::Error`: `generationMismatch` says that its payload downcasts to
the crate's `GenerationMismatch`. -/
structure IoError where
  kind : ErrorKind
  message : String
  generationMismatch : Bool := false
  deriving DecidableEq, Repr

inductive VcdError
  | io (error : IoError)
  | missingEndDefinitions
  | duplicateSignal (signal : String)
  | missingSignals (signals : String)
  | missingSignal (signal : String)
  | invalidOccurrence
  | parse (message : String)
  deriving DecidableEq, Repr

/-- `opened::identity::is_generation_mismatch`. -/
def isGenerationMismatch (error : IoError) : Bool := error.generationMismatch

/-- `opened::identity::generation_mismatch_error`. -/
def generationMismatchError : VcdError :=
  .io ⟨.invalidData, "VCD source does not match the opened generation", true⟩

inductive TimescaleUnit
  | s | ms | us | ns | ps | fs
  deriving DecidableEq, Repr

structure Timescale where
  magnitude : Nat
  unit : TimescaleUnit
  deriving DecidableEq, Repr

structure VcdMeta where
  timescale : Option Timescale
  signalCount : Nat
  startTime : Nat
  endTime : Nat
  deriving DecidableEq, Repr

/-- An `f64` by its bits: the crate moves reals around and never computes with
them. -/
structure F64 where
  bits : BitVec 64
  deriving DecidableEq, Repr

/-- `f64::is_nan`. -/
def F64.isNan (value : F64) : Prop := 0x7FF0000000000000 < value.bits.toNat % 2 ^ 63

instance (value : F64) : Decidable value.isNan := inferInstanceAs (Decidable (_ < _))

/-- `f64::is_finite`. -/
def F64.isFinite (value : F64) : Prop := value.bits.toNat % 2 ^ 63 < 0x7FF0000000000000

instance (value : F64) : Decidable value.isFinite := inferInstanceAs (Decidable (_ < _))

inductive ChangeValue
  | integer (value : Nat)
  | float (value : F64)
  | text (value : String)
  deriving DecidableEq, Repr

structure TimeWindow where
  start : Option Nat
  end_ : Option Nat
  deriving DecidableEq, Repr

/-- `TimeWindow::contains`: both ends are inclusive, an absent end is open. -/
def TimeWindow.contains (w : TimeWindow) (time : Nat) : Bool :=
  (match w.start with
    | some start => !decide (time < start)
    | none => true) &&
  (match w.end_ with
    | some end_ => !decide (time > end_)
    | none => true)

structure TimeValue where
  signal : String
  time : Nat
  value : ChangeValue
  deriving DecidableEq, Repr

end VcdTools
