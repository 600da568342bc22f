import VcdTools.Opened.Fst

/-! # Which format a waveform has

`waveform.rs`: the format is that of the content, never of the name, and a hint
only asserts it. `fst-reader` and the opening of the VCD backend are what they
answer for the file that the path names. -/
namespace VcdTools.Detection
open VcdTools.Opened (takeBytes Caught FstError)

def maxDetectionInputBytes : Nat := 8 * 1024 * 1024 * 1024

def fstGzipWrapperBlock : UInt8 := 254

def maxErrorMessageBytes : Nat := 512

inductive WaveformFormat
  | vcd | fst
  deriving DecidableEq, Repr

inductive WaveformFormatHint
  | auto | vcd | fst
  deriving DecidableEq, Repr

/-- `impl From<WaveformFormat> for WaveformFormatHint`. -/
def WaveformFormatHint.of : WaveformFormat → WaveformFormatHint
  | .vcd => .vcd
  | .fst => .fst

def WaveformFormat.display : WaveformFormat → String
  | .vcd => "vcd"
  | .fst => "fst"

inductive WaveformDetectionError
  | io (path : String) (source : IoError)
  | explicitMismatch (requested detected : WaveformFormat)
  | invalid (format : WaveformFormat) (message : String)
  | unsupportedFst (message : String)
  | resourceLimit (actual limit : Nat)
  | fstParserPanicked
  | undetected (message : String)
  deriving DecidableEq, Repr

/-- `impl Display for WaveformDetectionError`. -/
def WaveformDetectionError.display : WaveformDetectionError → String
  | .io path source => "failed to read waveform " ++ path ++ ": " ++ source.message
  | .explicitMismatch requested detected =>
    requested.display ++ " format was requested, but the input is valid " ++ detected.display
  | .invalid format message => "input is not a valid " ++ format.display ++ " waveform: " ++ message
  | .unsupportedFst message => "unsupported FST input: " ++ message
  | .resourceLimit actual limit =>
    "waveform input exceeds the format-detection limit (" ++ Nat.repr actual ++ " > " ++
      Nat.repr limit ++ " bytes)"
  | .fstParserPanicked => "FST parser failed while validating the input"
  | .undetected message => "could not detect a VCD or FST waveform: " ++ message

/-- `bounded_message`: the text up to the last character boundary in reach. -/
def boundedMessage (message : String) : String :=
  if message.utf8ByteSize ≤ maxErrorMessageBytes then message
  else String.ofList (takeBytes maxErrorMessageBytes message.toList) ++ "…"

/-- What the calls on a file that is probed come to. `looksLikeFst` is
`is_fst_file`, `none` for a panic, and `reader` is `FstReader::open`. -/
structure Probed where
  length : Except IoError Nat
  first : Except IoError (Option UInt8)
  rewind : Except IoError Unit
  looksLikeFst : Option Bool
  rewindAgain : Except IoError Unit
  reader : Caught

def gzipWrapped : WaveformDetectionError :=
  .unsupportedFst ("whole-file gzip wrappers are disabled because fst-reader decompresses them " ++
    "entirely in memory")

/-- `probe_and_validate_fst`. -/
def probeAndValidateFst (path : String) (file : Except IoError Probed) :
    Except WaveformDetectionError Bool := do
  let file ← file.mapError (.io path)
  let length ← file.length.mapError (.io path)
  if length > maxDetectionInputBytes then throw (.resourceLimit length maxDetectionInputBytes)
  let first ← file.first.mapError (.io path)
  file.rewind.mapError (.io path)
  if first = some fstGzipWrapperBlock then throw gzipWrapped
  match file.looksLikeFst with
  | none => throw .fstParserPanicked
  | some false => return false
  | some true =>
    file.rewindAgain.mapError (.io path)
    match file.reader with
    | .panicked => throw .fstParserPanicked
    | .failed message => throw (.invalid .fst (boundedMessage message))
    | .done => return true

/-- `validate_vcd`; `opened` is the text of the error of `OpenedVcd::open`. -/
def validateVcd (opened : Except String Unit) : Except WaveformDetectionError Unit :=
  opened.mapError fun message => .invalid .vcd (boundedMessage message)

/-- `detect_waveform_format`, after the probe. -/
def classify (looksLikeFst : Bool) (opened : Except String Unit) (hint : WaveformFormatHint) :
    Except WaveformDetectionError WaveformFormat :=
  if looksLikeFst then
    if hint = .vcd then .error (.explicitMismatch .vcd .fst) else .ok .fst
  else if hint = .fst then
    match validateVcd opened with
    | .ok () => .error (.explicitMismatch .fst .vcd)
    | .error _ => .error (.invalid .fst "FST signature not found")
  else
    match validateVcd opened with
    | .ok () => .ok .vcd
    | .error (.invalid _ message) =>
      if hint = .vcd then .error (.invalid .vcd message) else .error (.undetected message)
    | .error error => .error error

/-! ## Opening -/

/-- `map_fst_open`. -/
def mapFstOpen : FstError → WaveformDetectionError
  | .resourceLimit _ limit actual => .resourceLimit actual limit
  | .unsupportedInput message | .unsupportedValue message => .unsupportedFst message
  | .parserPanicked => .fstParserPanicked
  | error => .invalid .fst error.display

/-- What the crate makes of what a path names at one instant (`φ`), for opened
waveforms of type `ω`. The errors of the VCD backend are their texts; `none` is a
panic. -/
structure Backends (φ ω : Type) where
  path : String
  probed : φ → Except IoError Probed
  /-- `OpenedVcd::open` up to `canonicalize`. -/
  readVcd : φ → Option (Except String ω)
  canonicalize : φ → Except String Unit
  openFst : φ → Except FstError ω
  validateSource : ω → φ → Bool

namespace Backends
variable {φ ω : Type} (backends : Backends φ ω) (file : φ)

/-- `OpenedVcd::open` of a path that stays what it is. -/
def openVcd : Option (Except String ω) :=
  (backends.readVcd file).map fun read => do
    let waveform ← read
    backends.canonicalize file
    return waveform

/-- `detect_waveform_format` of such a path; the VCD backend is not asked about
an FST. -/
def detect (hint : WaveformFormatHint) : Option (Except WaveformDetectionError WaveformFormat) :=
  match probeAndValidateFst backends.path (backends.probed file) with
  | .error error => some (.error error)
  | .ok true => some (classify true (.ok ()) hint)
  | .ok false =>
    (backends.openVcd file).map fun opened => classify false (opened.map fun _ => ()) hint

/-- `OpenedWaveform::open_with_hint` of such a path. -/
def openWithHint (hint : WaveformFormatHint) : Option (Except WaveformDetectionError ω) :=
  match backends.detect file hint with
  | none => none
  | some (.error error) => some (.error error)
  | some (.ok .vcd) => (backends.openVcd file).map fun opened => opened.mapError (.invalid .vcd)
  | some (.ok .fst) => some ((backends.openFst file).mapError mapFstOpen)

end Backends

/-! ## What a hint does -/

theorem classify_ok_iff {looksLikeFst : Bool} {opened : Except String Unit}
    {format other : WaveformFormat} :
    classify looksLikeFst opened (.of format) = .ok other ↔
      other = format ∧ classify looksLikeFst opened .auto = .ok format := by
  cases looksLikeFst with
  | true | false =>
    cases opened with
    | error _ | ok _ =>
      cases format with
      | vcd | fst =>
        cases other <;> simp [classify, validateVcd, Except.mapError, WaveformFormatHint.of]

theorem classify_mismatch_iff {looksLikeFst : Bool} {opened : Except String Unit}
    {format requested detected : WaveformFormat} :
    classify looksLikeFst opened (.of format) = .error (.explicitMismatch requested detected) ↔
      requested = format ∧ detected ≠ format ∧
        classify looksLikeFst opened .auto = .ok detected := by
  cases looksLikeFst with
  | true | false =>
    cases opened with
    | error _ | ok _ =>
      cases format with
      | vcd | fst =>
        cases requested <;> cases detected <;>
          simp [classify, validateVcd, Except.mapError, WaveformFormatHint.of]

/-- What the probe refuses a file with. -/
inductive Refusal (path : String) : WaveformDetectionError → Prop
  | io (source : IoError) : Refusal path (.io path source)
  | resourceLimit (length : Nat) : Refusal path (.resourceLimit length maxDetectionInputBytes)
  | gzipWrapped : Refusal path gzipWrapped
  | parserPanicked : Refusal path .fstParserPanicked
  | invalid (message : String) : Refusal path (.invalid .fst (boundedMessage message))

theorem probe_refusal {path : String} {file : Except IoError Probed}
    {error : WaveformDetectionError} (h : probeAndValidateFst path file = .error error) :
    Refusal path error := by
  cases file with
  | error source => cases h; exact .io source
  | ok file =>
    obtain ⟨length, first, rewind, looksLikeFst, rewindAgain, reader⟩ := file
    cases length with
    | error source => cases h; exact .io source
    | ok length =>
      simp only [probeAndValidateFst, Except.mapError, bind, Except.bind] at h
      split at h
      · cases h; exact .resourceLimit length
      · cases first with
        | error source => cases h; exact .io source
        | ok first =>
          cases rewind with
          | error source => cases h; exact .io source
          | ok _ =>
            simp only [pure, Except.pure] at h
            split at h
            · cases h; exact .gzipWrapped
            · rcases looksLikeFst with _ | _ | _
              · cases h; exact .parserPanicked
              · cases h
              · cases rewindAgain with
                | error source => cases h; exact .io source
                | ok _ =>
                  cases reader with
                  | panicked => cases h; exact .parserPanicked
                  | failed message => cases h; exact .invalid message
                  | done => cases h

theorem utf8ByteSize_takeBytes (limit : Nat) (cs : List Char) :
    (String.ofList (takeBytes limit cs)).utf8ByteSize ≤ limit := by
  induction cs generalizing limit with
  | nil => exact Nat.zero_le _
  | cons c cs ih =>
    rw [takeBytes]
    split
    · rename_i hfits
      have hsplit : String.ofList (c :: takeBytes (limit - c.utf8Size) cs) =
          String.singleton c ++ String.ofList (takeBytes (limit - c.utf8Size) cs) := by
        rw [← String.toList_inj, String.toList_append, String.toList_ofList, String.toList_ofList]
        simp
      have hrest := ih (limit - c.utf8Size)
      rw [hsplit, String.utf8ByteSize_append, String.utf8ByteSize_singleton]
      omega
    · exact Nat.zero_le _

/-- The bytes that a quoted message takes at most: the limit and an ellipsis. -/
def quotedBytes : Nat := maxErrorMessageBytes + "…".utf8ByteSize

theorem boundedMessage_le (message : String) :
    (boundedMessage message).utf8ByteSize ≤ quotedBytes := by
  unfold boundedMessage
  split
  · rename_i hshort
    exact Nat.le_trans hshort (Nat.le_add_right _ _)
  · rw [String.utf8ByteSize_append]
    exact Nat.add_le_add_right (utf8ByteSize_takeBytes _ _) _

/-- The message that an error quotes. -/
def WaveformDetectionError.quoted : WaveformDetectionError → Option String
  | .invalid _ message | .undetected message => some message
  | _ => none

namespace Backends
variable {φ ω : Type} {backends : Backends φ ω} {file : φ}

theorem detect_ok_iff {format other : WaveformFormat} :
    backends.detect file (.of format) = some (.ok other) ↔
      other = format ∧ backends.detect file .auto = some (.ok format) := by
  unfold detect
  split
  · simp
  · simp only [Option.some.injEq, classify_ok_iff]
  · cases backends.openVcd file with
    | none => simp
    | some opened => simp only [Option.map_some, Option.some.injEq, classify_ok_iff]

theorem detect_mismatch_iff {format requested detected : WaveformFormat} :
    backends.detect file (.of format) = some (.error (.explicitMismatch requested detected)) ↔
      requested = format ∧ detected ≠ format ∧
        backends.detect file .auto = some (.ok detected) := by
  unfold detect
  split
  · rename_i error hprobe
    have hrefusal := probe_refusal hprobe
    have hne : error ≠ .explicitMismatch requested detected := by
      rintro rfl
      cases hrefusal
    simp [hne]
  · simp only [Option.some.injEq, classify_mismatch_iff]
  · cases backends.openVcd file with
    | none => simp
    | some opened => simp only [Option.map_some, Option.some.injEq, classify_mismatch_iff]

theorem detect_panics_iff {hint : WaveformFormatHint} :
    backends.detect file hint = none ↔ backends.detect file .auto = none := by
  unfold detect
  split
  · simp
  · simp
  · simp only [Option.map_eq_none_iff]

/-- **What a hint does**, for a path that stays what it is. -/
structure HintAsserts (backends : Backends φ ω) (file : φ) (format : WaveformFormat) : Prop where
  /-- It never changes what is opened. -/
  opens : ∀ waveform, backends.openWithHint file (.of format) = some (.ok waveform) ↔
    backends.openWithHint file .auto = some (.ok waveform) ∧
      backends.detect file .auto = some (.ok format)
  mismatch : ∀ requested detected, backends.openWithHint file (.of format) =
      some (.error (.explicitMismatch requested detected)) ↔
    requested = format ∧ detected ≠ format ∧ backends.detect file .auto = some (.ok detected)
  panics : backends.openWithHint file (.of format) = none ↔
    backends.openWithHint file .auto = none
  /-- A file that the probe refuses is refused alike. -/
  refuses : ∀ error, probeAndValidateFst backends.path (backends.probed file) = .error error →
    ∀ hint, backends.openWithHint file hint = some (.error error)
  bounded : ∀ hint error message, backends.detect file hint = some (.error error) →
    error.quoted = some message → message.utf8ByteSize ≤ quotedBytes

theorem openWithHint_eq {hint : WaveformFormatHint} {format : WaveformFormat}
    (h : backends.detect file hint = some (.ok format))
    (h' : backends.detect file .auto = some (.ok format)) :
    backends.openWithHint file hint = backends.openWithHint file .auto := by
  rw [openWithHint, openWithHint, h, h']

theorem mapFstOpen_ne (error : FstError) (requested detected : WaveformFormat) :
    mapFstOpen error ≠ .explicitMismatch requested detected := by
  cases error <;> nofun

/-- What is opened has been detected. -/
theorem openWithHint_ok {hint : WaveformFormatHint} {waveform : ω}
    (h : backends.openWithHint file hint = some (.ok waveform)) :
    ∃ format, backends.detect file hint = some (.ok format) := by
  unfold openWithHint at h
  split at h
  · cases h
  · cases h
  · rename_i hdetect
    exact ⟨_, hdetect⟩
  · rename_i hdetect
    exact ⟨_, hdetect⟩

theorem openWithHint_mismatch {hint : WaveformFormatHint} {requested detected : WaveformFormat} :
    backends.openWithHint file hint = some (.error (.explicitMismatch requested detected)) ↔
      backends.detect file hint = some (.error (.explicitMismatch requested detected)) := by
  unfold openWithHint
  cases backends.detect file hint with
  | none => simp
  | some found =>
    cases found with
    | error error => simp
    | ok format =>
      cases format with
      | vcd =>
        cases backends.openVcd file with
        | none => simp
        | some opened => cases opened <;> simp [Except.mapError]
      | fst =>
        cases backends.openFst file with
        | error error => simp [Except.mapError, mapFstOpen_ne]
        | ok waveform => simp [Except.mapError]

/-- The VCD backend has been asked about what is detected as a VCD. -/
theorem openVcd_of_detect {hint : WaveformFormatHint}
    (h : backends.detect file hint = some (.ok .vcd)) : backends.openVcd file ≠ none := by
  unfold detect at h
  split at h
  · cases h
  · simp only [classify, if_true, Option.some.injEq] at h
    split at h <;> cases h
  · intro hnone
    rw [hnone] at h
    cases h

theorem openWithHint_none_iff {hint : WaveformFormatHint} :
    backends.openWithHint file hint = none ↔ backends.detect file hint = none := by
  unfold openWithHint
  cases hdetect : backends.detect file hint with
  | none => simp
  | some found =>
    cases found with
    | error error => simp
    | ok format =>
      cases format with
      | vcd => simpa using openVcd_of_detect hdetect
      | fst => simp

theorem classify_quoted {looksLikeFst : Bool} {opened : Except String Unit}
    {hint : WaveformFormatHint} {error : WaveformDetectionError} {message : String}
    (h : classify looksLikeFst opened hint = .error error) (hquoted : error.quoted = some message) :
    message.utf8ByteSize ≤ quotedBytes := by
  cases looksLikeFst with
  | true =>
    cases hint with
    | vcd => cases h; cases hquoted
    | auto | fst => cases h
  | false =>
    cases opened with
    | ok _ =>
      cases hint with
      | fst => cases h; cases hquoted
      | auto | vcd => cases h
    | error text =>
      cases hint with
      | fst =>
        cases h
        cases hquoted
        decide
      | auto | vcd =>
        cases h
        cases hquoted
        exact boundedMessage_le text

theorem detect_quoted {hint : WaveformFormatHint} {error : WaveformDetectionError}
    {message : String} (h : backends.detect file hint = some (.error error))
    (hquoted : error.quoted = some message) : message.utf8ByteSize ≤ quotedBytes := by
  unfold detect at h
  split at h
  · rename_i hprobe
    cases h
    cases probe_refusal hprobe with
    | invalid text =>
      cases hquoted
      exact boundedMessage_le text
    | io _ | resourceLimit _ | gzipWrapped | parserPanicked => cases hquoted
  · exact classify_quoted (Option.some.inj h) hquoted
  · cases hopened : backends.openVcd file with
    | none => rw [hopened] at h; cases h
    | some opened =>
      rw [hopened] at h
      exact classify_quoted (Option.some.inj h) hquoted

/-- **A hint only asserts** the format that the content has. -/
theorem hint_asserts (backends : Backends φ ω) (file : φ) (format : WaveformFormat) :
    HintAsserts backends file format where
  opens := fun waveform => by
    constructor
    · intro h
      obtain ⟨other, hdetect⟩ := openWithHint_ok h
      obtain ⟨rfl, hauto⟩ := detect_ok_iff.mp hdetect
      exact ⟨(openWithHint_eq hdetect hauto) ▸ h, hauto⟩
    · rintro ⟨h, hauto⟩
      exact (openWithHint_eq (detect_ok_iff.mpr ⟨rfl, hauto⟩) hauto).trans h
  mismatch := fun requested detected => openWithHint_mismatch.trans detect_mismatch_iff
  panics := openWithHint_none_iff.trans (detect_panics_iff.trans openWithHint_none_iff.symm)
  refuses := fun error hprobe hint => by rw [openWithHint, detect, hprobe]
  bounded := fun _ _ _ => detect_quoted

end Backends
end VcdTools.Detection
