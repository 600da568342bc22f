import VcdTools.Detection
import VcdTools.Lib.Pool
import VcdTools.Lib.Runs
import VcdTools.Server.Protocol

/-! # The generation that the service answers from

`GenerationSlot` of `server/service.rs`, with the opening of a waveform in
`opened/waveform.rs` behind it. Any number of calls of `current` run at once,
while somebody else may put another file in the place of the path. A call opens
the path several times; each opening finds what the path names then. What the
backends make of a file is given by functions of it. -/
namespace VcdTools.Server
open VcdTools.Lib VcdTools.Detection

structure Generation (ω : Type) where
  id : Nat
  waveform : ω

def mapWaveform (error : WaveformDetectionError) : ProtocolError :=
  .new .sourceUnavailable "waveform source unavailable"
    (Json.object [("message", .str error.display)]) true

/-- Where a call of `current` is. From `validating` on it holds the lock. -/
inductive CurrentPc (ω : Type)
  /-- In `lock`. -/
  | waiting
  | validating
  /-- Before `probe_and_validate_fst`. -/
  | probing
  /-- Before the `OpenedVcd::open` of `validate_vcd`, and before its `canonicalize`. -/
  | checking
  | checkingTarget
  /-- Before the `OpenedVcd::open` that counts, and before its `canonicalize`. -/
  | openingVcd
  | openingTarget (waveform : ω)
  | openingFst
  | returned (result : Except ProtocolError (Generation ω))
  | panicked

def CurrentPc.holdsLock {ω : Type} : CurrentPc ω → Bool
  | .waiting | .returned _ | .panicked => false
  | _ => true

/-- `since` and `behind` are history: how often the path had been replaced when
the call began, and how many generations had been handed out. -/
structure CurrentCall (ω : Type) where
  since : Nat
  behind : Nat
  pc : CurrentPc ω

/-- `past` is what the path has named before `path`. `next` counts the values
that `NEXT_GENERATION` has taken: as an `AtomicU64` it is `next` modulo `2 ^ 64`.
`answers` is the history of the generations handed out. -/
structure GenerationSlot (φ ω : Type) where
  past : List φ
  path : φ
  next : Nat
  current : Generation ω
  locked : Option Nat
  poisoned : Bool
  calls : List (CurrentCall ω)
  answers : List (Generation ω)

inductive SlotAction (φ : Type)
  | replace (file : φ)
  /-- Something else in the process takes a generation id. -/
  | fresh
  | call
  | step (i : Nat)

variable {φ ω : Type}

/-- The slot once `open` has put its first generation into it. -/
def GenerationSlot.init (path : φ) (waveform : ω) (id : Nat) : GenerationSlot φ ω where
  past := []
  path := path
  next := id + 1
  current := ⟨id, waveform⟩
  locked := none
  poisoned := false
  calls := []
  answers := []

/-- `GenerationId::fresh`: `None` for the assertion that fails. -/
def GenerationSlot.freshId (s : GenerationSlot φ ω) : Option Nat :=
  if s.next % 2 ^ 64 = u64Max then none else some (s.next % 2 ^ 64)

namespace GenerationSlot
variable (backends : Backends φ ω) (s : GenerationSlot φ ω)

def setCall (i : Nat) (call : CurrentCall ω) (pc : CurrentPc ω) : GenerationSlot φ ω :=
  { s with calls := s.calls.set i { call with pc } }

/-- The call returns, and drops the guard of the lock. -/
def finish (i : Nat) (call : CurrentCall ω) (result : Except ProtocolError (Generation ω)) :
    GenerationSlot φ ω :=
  { s.setCall i call (.returned result) with
    locked := none
    answers := s.answers ++ result.toOption.toList }

/-- The call panics: a guard that is dropped then poisons the lock. -/
def panic (i : Nat) (call : CurrentCall ω) : GenerationSlot φ ω :=
  { s.setCall i call .panicked with locked := none, poisoned := true }

/-- The replacement is put into the slot, under a fresh id. -/
def publish (i : Nat) (call : CurrentCall ω) (waveform : ω) : GenerationSlot φ ω :=
  match s.freshId with
  | none => { s with next := s.next + 1 }.panic i call
  | some id =>
    { s with next := s.next + 1, current := ⟨id, waveform⟩ }.finish i call (.ok ⟨id, waveform⟩)

/-- The next step of a call, but for the lock. -/
def advance (i : Nat) (call : CurrentCall ω) : Option (GenerationSlot φ ω) :=
  match call.pc with
  | .validating =>
    if backends.validateSource s.current.waveform s.path then
      some (s.finish i call (.ok s.current))
    else some (s.setCall i call .probing)
  | .probing =>
    match probeAndValidateFst backends.path (backends.probed s.path) with
    | .error error => some (s.finish i call (.error (mapWaveform error)))
    | .ok true => some (s.setCall i call .openingFst)
    | .ok false => some (s.setCall i call .checking)
  | .checking =>
    match backends.readVcd s.path with
    | none => some (s.panic i call)
    | some (.error message) =>
      some (s.finish i call (.error (mapWaveform (.undetected (boundedMessage message)))))
    | some (.ok _) => some (s.setCall i call .checkingTarget)
  | .checkingTarget =>
    match backends.canonicalize s.path with
    | .error message =>
      some (s.finish i call (.error (mapWaveform (.undetected (boundedMessage message)))))
    | .ok () =>
      match s.freshId with
      | none => some ({ s with next := s.next + 1 }.panic i call)
      | some _ => some ({ s with next := s.next + 1 }.setCall i call .openingVcd)
  | .openingVcd =>
    match backends.readVcd s.path with
    | none => some (s.panic i call)
    | some (.error message) =>
      some (s.finish i call (.error (mapWaveform (.invalid .vcd message))))
    | some (.ok waveform) => some (s.setCall i call (.openingTarget waveform))
  | .openingTarget waveform =>
    match backends.canonicalize s.path with
    | .error message => some (s.finish i call (.error (mapWaveform (.invalid .vcd message))))
    | .ok () => some (s.publish i call waveform)
  | .openingFst =>
    match backends.openFst s.path with
    | .error error => some (s.finish i call (.error (mapWaveform (mapFstOpen error))))
    | .ok waveform => some (s.publish i call waveform)
  | .waiting | .returned _ | .panicked => none

/-- `self.current.lock().expect(..)`. -/
def lock (i : Nat) (call : CurrentCall ω) : Option (GenerationSlot φ ω) :=
  if s.locked.isSome then none
  else if s.poisoned then some (s.setCall i call .panicked)
  else some { s.setCall i call .validating with locked := some i }

def step : SlotAction φ → Option (GenerationSlot φ ω)
  | .replace file => some { s with past := s.past ++ [s.path], path := file }
  | .fresh => some { s with next := s.next + 1 }
  | .call => some { s with calls := s.calls ++ [⟨s.past.length, s.answers.length, .waiting⟩] }
  | .step i => do
    let call ← s.calls[i]?
    match call.pc with
    | .waiting => s.lock i call
    | _ => s.advance backends i call

end GenerationSlot
end VcdTools.Server
