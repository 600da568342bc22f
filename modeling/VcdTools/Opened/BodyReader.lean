import VcdTools.Lib.Buffered
import VcdTools.Opened.HeaderIdentity

/-! # Validating behind a reader

`OpenedBodyReader` of `opened/mod.rs`: a buffered reader whose file is validated
in place, so that its handle has to come back to where the reader is. The other
handle, on the configured path, is the reader's business only for its errors. -/
namespace VcdTools.Opened
open VcdTools.Lib VcdTools.Lib.BufReader

variable {η : Type} [DecidableEq η]

/-- What the functions on a body reader do; the error `none` is a panic. -/
abbrev ReaderAction := Action BufReader (Option VcdError)

/-- The generation that a body reader belongs to: what `OpenedVcdInner` has of it. -/
structure OpenedGeneration (η : Type) where
  identity : FileIdentity η
  fingerprintPolicy : FingerprintPolicy

variable (hash : List UInt8 → η) (file : OpenFile) (generation : OpenedGeneration η)

/-- `validate_open_file` on `get_mut()`. -/
def validateInner : Action BufReader VcdError Unit :=
  BufReader.onHandle
    (generation.identity.validateOpenFile hash file generation.fingerprintPolicy)

/-- `OpenedBodyReader::validate_complete`; `reopened` is what opening the
configured path gives. -/
def validateComplete (reopened : Except IoError OpenFile) : ReaderAction Unit := do
  let position ← (BufReader.streamPosition file).mapError (Option.map VcdError.io)
  let validation ← (validateInner hash file generation).attempt
  let restore ← (BufReader.seek file position).attempt
  Action.lift (validation.mapError some)
  let _ ← Action.lift (restore.mapError fun e : IoError => some (VcdError.io e))
  let current ← Action.lift (reopened.mapError fun e => some (.io e))
  Action.lift ((generation.identity.validateOpenFile hash current generation.fingerprintPolicy
    ⟨0, 0⟩).1.mapError some)

/-- **The seek back fails**: the one that follows the validation of the reader's
own file. -/
def SeekBackFails (self : BufReader) : Prop :=
  ∃ position moved error lost,
    BufReader.streamPosition file self = (.ok position, moved) ∧
      BufReader.seek file position (validateInner hash file generation moved).2 = (.error error, lost)

/-- **A seek back that fails leaves the handle elsewhere**: the validation moved it
to where other bytes come next. -/
def LeftElsewhere (self : BufReader) : Prop :=
  SeekBackFails hash file generation self ∧ ∃ position moved,
    BufReader.streamPosition file self = (.ok position, moved) ∧
      file.content.drop (validateInner hash file generation moved).2.handle.cursor ≠
        file.content.drop self.handle.cursor

variable {hash file generation} {position : Nat} {self : BufReader}
  {reopened : Except IoError OpenFile}

/-- A validation leaves the state after the seek back, and reports its failure. -/
theorem validateComplete_eq {moved : BufReader}
    (h : BufReader.streamPosition file self = (.ok position, moved)) :
    (validateComplete hash file generation reopened self).2 =
        (BufReader.seek file position (validateInner hash file generation moved).2).2 ∧
      (validateComplete hash file generation reopened self).1 ≠ .error none ∧
      ∀ error lost, BufReader.seek file position (validateInner hash file generation moved).2 =
        (.error error, lost) →
          ∃ e, (validateComplete hash file generation reopened self).1 = .error (some e) := by
  have hposition : (BufReader.streamPosition file).mapError (Option.map VcdError.io) self =
      (.ok position, moved) := Action.mapError_ok.mpr h
  unfold validateComplete
  rw [Action.bind_ok hposition, Action.attempt_bind, Action.attempt_bind]
  generalize validateInner hash file generation moved = validated
  generalize BufReader.seek file position validated.2 = restored
  obtain ⟨validation, s₁⟩ := validated
  obtain ⟨restore, s₂⟩ := restored
  cases validation with
  | error e => exact ⟨rfl, fun h => (by cases h), fun _ _ _ => ⟨e, rfl⟩⟩
  | ok u =>
    cases restore with
    | error e => exact ⟨rfl, fun h => (by cases h), fun _ _ _ => ⟨.io e, rfl⟩⟩
    | ok p =>
      cases reopened with
      | error e => exact ⟨rfl, fun h => (by cases h), fun _ _ h => (by cases h)⟩
      | ok current =>
        refine ⟨rfl, fun h => ?_, fun _ _ h => (by cases h)⟩
        have hlast : (generation.identity.validateOpenFile hash current generation.fingerprintPolicy
            ⟨0, 0⟩).1.mapError some = .error none := h
        generalize (generation.identity.validateOpenFile hash current generation.fingerprintPolicy
          ⟨0, 0⟩).1 = result at hlast
        cases result <;> cases hlast

theorem validateComplete_lost {e : IoError} {moved : BufReader}
    (h : BufReader.streamPosition file self = (.error (some e), moved)) :
    validateComplete hash file generation reopened self = (.error (some (.io e)), moved) := by
  have hfailed : (BufReader.streamPosition file).mapError (Option.map VcdError.io) self =
      (.error (some (.io e)), moved) := by
    rw [Action.mapError, h]
    rfl
  rw [validateComplete, Action.bind_error hfailed]

/-- **A seek back that succeeds leaves the reader where it was.** -/
theorem at_validateComplete (h : At file position self)
    (hback : ¬ SeekBackFails hash file generation self) :
    At file position (validateComplete hash file generation reopened self).2 := by
  obtain ⟨e, moved, hposition, hat⟩ | ⟨moved, hposition, hat⟩ := h.streamPosition
  · rw [validateComplete_lost hposition]
    exact hat
  · rw [(validateComplete_eq hposition).1]
    rcases hseek : BufReader.seek file position (validateInner hash file generation moved).2 with
      ⟨result, next⟩
    cases result with
    | error e => exact absurd ⟨position, moved, e, next, hposition, hseek⟩ hback
    | ok p => exact seek_ok hseek

/-- The handle of a reader at a position is never behind its buffer. -/
theorem validateComplete_not_panicked (h : At file position self) :
    (validateComplete hash file generation reopened self).1 ≠ .error none := by
  obtain ⟨e, moved, hposition, -⟩ | ⟨moved, hposition, -⟩ := h.streamPosition
  · rw [validateComplete_lost hposition]
    exact fun h => (by cases h)
  · exact (validateComplete_eq hposition).2.1

variable (hash file generation) in
/-- The validation does not touch what is read ahead. -/
theorem validateInner_buffer (self : BufReader) :
    (validateInner hash file generation self).2.buffer = self.buffer := rfl

/-- A seek back that fails leaves the reader with its buffer, and its handle where
the validation put it. -/
theorem lost_eq {moved lost : BufReader} {e : IoError}
    (hseek : BufReader.seek file position (validateInner hash file generation moved).2 =
      (.error e, lost)) :
    lost.buffer = moved.buffer ∧
      lost.handle.cursor = (validateInner hash file generation moved).2.handle.cursor := by
  unfold BufReader.seek at hseek
  split at hseek
  · cases hseek
  · rename_i hcall
    cases hseek
    exact ⟨validateInner_buffer hash file generation moved, File.call_error hcall⟩

/-- **Reading is undisturbed exactly when the handle is not left elsewhere.** -/
theorem undisturbed_validateComplete (h : At file position self) :
    Undisturbed file bufferCapacity position
        (validateComplete hash file generation reopened self).2 ↔
      ¬ LeftElsewhere hash file generation self := by
  rw [undisturbed_iff bufferCapacity_pos]
  by_cases hback : SeekBackFails hash file generation self
  · obtain ⟨p, moved, error, lost, hposition, hseek⟩ := hback
    obtain ⟨hbuffer, hcursor⟩ := lost_eq hseek
    have hmoved : moved.buffer = self.buffer := streamPosition_buffer hposition
    have hstate : (validateComplete hash file generation reopened self).2 = lost := by
      rw [(validateComplete_eq hposition).1, hseek]
    rw [hstate, hbuffer, hcursor, hmoved, ← h.cursor]
    constructor
    · rintro ⟨-, hrest⟩ ⟨-, p', moved', hposition', hne⟩
      rw [hposition] at hposition'
      cases hposition'
      exact hne hrest
    · intro helse
      refine ⟨h.buffered, Classical.not_not.mp fun hne => helse ?_⟩
      exact ⟨⟨p, moved, error, lost, hposition, hseek⟩, p, moved, hposition, hne⟩
  · have hat : At file position (validateComplete hash file generation reopened self).2 :=
      at_validateComplete h hback
    refine iff_of_true ⟨hat.buffered, by rw [hat.cursor]⟩ fun helse => hback helse.1

/-! ## Every reader -/

/-- The readers that `body_reader` makes, after any reads, seeks and validations. -/
inductive ReachableReader (hash : List UInt8 → η) (file : OpenFile)
    (generation : OpenedGeneration η) : BufReader → Prop
  | opened {s s' : Handle} :
    generation.identity.validateOpenFile hash file generation.fingerprintPolicy s = (.ok (), s') →
      ReachableReader hash file generation ⟨[], s'⟩
  | used {self : BufReader} (use : Use) : ReachableReader hash file generation self →
      ReachableReader hash file generation (deliver file bufferCapacity self use).2
  | sought {self : BufReader} (position : Nat) : ReachableReader hash file generation self →
      ReachableReader hash file generation (BufReader.seek file position self).2
  | validated {self : BufReader} (reopened : Except IoError OpenFile) :
      ReachableReader hash file generation self → ¬ SeekBackFails hash file generation self →
        ReachableReader hash file generation (validateComplete hash file generation reopened self).2

/-- **A reader is at a position, whatever was done with it.** -/
theorem ReachableReader.exists_at (h : ReachableReader hash file generation self) :
    ∃ position, At file position self := by
  induction h with
  | opened _ => exact ⟨_, .of_empty rfl⟩
  | used use _ ih =>
    obtain ⟨position, hat⟩ := ih
    exact ⟨_, (hat.deliver bufferCapacity_pos use).2⟩
  | sought target _ ih =>
    obtain ⟨position, hat⟩ := ih
    rcases hseek : BufReader.seek file target _ with ⟨result, next⟩
    cases result with
    | error e => exact ⟨position, hat.seek_error hseek⟩
    | ok p => exact ⟨target, seek_ok hseek⟩
  | validated reopened _ hback ih =>
    obtain ⟨position, hat⟩ := ih
    exact ⟨position, at_validateComplete hat hback⟩

/-- **When validating disturbs reading.** Every reader is at a position, and a
validation does not panic there. Reading goes on from the position, whatever later
calls do, exactly when the seek back to it does not fail with the handle elsewhere;
where that seek fails, an error says so. -/
theorem validate_complete_undisturbed (h : At file position self) :
    (∀ reader, ReachableReader hash file generation reader → ∃ position, At file position reader) ∧
      (validateComplete hash file generation reopened self).1 ≠ .error none ∧
      (Undisturbed file bufferCapacity position
          (validateComplete hash file generation reopened self).2 ↔
        ¬ LeftElsewhere hash file generation self) ∧
      (¬ SeekBackFails hash file generation self → Delivers file bufferCapacity position
        (validateComplete hash file generation reopened self).2) ∧
      (SeekBackFails hash file generation self →
        ∃ e, (validateComplete hash file generation reopened self).1 = .error (some e)) := by
  refine ⟨fun reader hreader => hreader.exists_at, validateComplete_not_panicked h,
    undisturbed_validateComplete h, fun hback => ?_, ?_⟩
  · exact (at_validateComplete h hback).delivers (by decide)
  · intro ⟨position, moved, error, lost, hposition, hseek⟩
    exact (validateComplete_eq hposition).2.2 error lost hseek

/-- A seek back on a file whose calls do not fail does not. -/
theorem not_seekBackFails (hhealthy : file.Healthy) (self : BufReader) :
    ¬ SeekBackFails hash file generation self := by
  intro ⟨position, moved, error, lost, _, hseek⟩
  rw [BufReader.seek, File.seek, hhealthy.call] at hseek
  cases hseek

/-- A file of five bytes that is longer than it was, on a system that fails the
calls of `fails`. -/
def grownFile (fails : Nat → Option IoError) : OpenFile where
  content := [1, 2, 3, 4, 5]
  fails := fails
  counts _ := 1
  metadata _ := ⟨5, none, 0, 0⟩

/-- What was recorded of it when it had four bytes, one of them header. -/
def grownGeneration : OpenedGeneration (List UInt8) where
  identity := ⟨4, none, 1, [1], samplesText [1, 2, 3, 4], none, 0, 0⟩
  fingerprintPolicy := .metadataAndSamples

/-- A reader that consumed the first byte of the body. -/
def partlyConsumed : BufReader := ⟨[3, 4, 5], ⟨5, 0⟩⟩

theorem at_partlyConsumed (fails : Nat → Option IoError) : At (grownFile fails) 2 partlyConsumed :=
  ⟨List.prefix_refl _, rfl⟩

/-- A rejected validation leaves a partly consumed buffer's bytes to be read. -/
theorem validate_complete_undisturbed_grown :
    Undisturbed (grownFile fun _ => none) bufferCapacity 2
      (validateComplete id (grownFile fun _ => none) grownGeneration
        (.ok (grownFile fun _ => none)) partlyConsumed).2 :=
  (validate_complete_undisturbed (at_partlyConsumed _)).2.2.1.mpr
    fun h => not_seekBackFails (fun _ => rfl) partlyConsumed h.1

/-- Where the fourth call fails, the seek back does, and the first byte of the
body is read once more behind the last. -/
theorem validate_complete_disturbed :
    let file := grownFile fun n => if n = 3 then some ⟨.other, "", false⟩ else none
    At file 2 partlyConsumed ∧ ¬ Delivers file bufferCapacity 2
      (validateComplete id file grownGeneration (.ok file) partlyConsumed).2 := by
  refine ⟨at_partlyConsumed _, fun h => ?_⟩
  have hbytes := h.bytes [.consume 3, .fillBuf, .consume 1]
  revert hbytes
  decide

end VcdTools.Opened
