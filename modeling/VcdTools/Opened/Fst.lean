import VcdTools.Query.Extract

/-! # The FST backend

`opened/fst.rs`: the opened catalog, the identity check and the selected read.
`fst-reader` and BLAKE3 are not part of this repository: a reader is what a
file makes it answer, and the fingerprint is any function of the sampled bytes. -/
namespace VcdTools.Opened
open VcdTools.Lib VcdTools.Query

/-- `MAX_ERROR_BYTES`. -/
def maxErrorBytes : Nat := 512

/-- The longest first part of a text within so many bytes. -/
def takeBytes : Nat → List Char → List Char
  | _, [] => []
  | limit, c :: cs => if c.utf8Size ≤ limit then c :: takeBytes (limit - c.utf8Size) cs else []

/-- `bounded`. -/
def bounded (text : String) : String :=
  if text.utf8ByteSize ≤ maxErrorBytes then text
  else String.ofList (takeBytes maxErrorBytes text.toList) ++ "…"

inductive FstError
  | io (path : String) (source : IoError)
  | parse (message : String)
  | duplicateSignal (signal : String)
  | missingSignal (signal : String)
  | unsupportedInput (message : String)
  | unsupportedValue (message : String)
  | resourceLimit (kind : String) (limit actual : Nat)
  | staleSource
  | parserPanicked
  deriving DecidableEq, Repr

/-- `impl Display for FstError`. -/
def FstError.display : FstError → String
  | .io path source => "failed to access FST " ++ path ++ ": " ++ source.message
  | .parse message => "FST parser error: " ++ message
  | .duplicateSignal signal => "duplicate FST signal name: " ++ signal
  | .missingSignal signal => "FST signal not found: " ++ signal
  | .unsupportedInput message => "unsupported FST input: " ++ message
  | .unsupportedValue message => "unsupported FST value: " ++ message
  | .resourceLimit kind limit actual =>
    "FST resource limit exceeded for " ++ kind ++ ": " ++ Nat.repr actual ++ " > " ++ Nat.repr limit
  | .staleSource => "FST source changed since it was opened"
  | .parserPanicked => "FST parser panicked"

/-- `fst_to_query`. -/
def fstToQuery : FstError → QueryError
  | .staleSource => .staleSource generationMismatchError
  | .io _ source => .sourceUnavailable source
  | .missingSignal signal => .signalNotFound signal
  | .unsupportedInput message | .unsupportedValue message => .unsupportedWaveform message
  | error => .fst error.display

/-! ## Values -/

inductive FstSignalType
  | digital | real | genericString
  deriving DecidableEq, Repr

/-- `fst_reader::FstSignalValue`. -/
inductive FstSignalValue
  | string (bytes : ByteArray)
  | real (value : F64)

/-- `u128::from_str_radix(text, 2)` on a text of zeros and ones. -/
def u128FromBinary (digits : List Char) : Option Nat :=
  digits.foldlM (fun acc digit =>
    let next := 2 * acc + (if digit = '1' then 1 else 0)
    if next < 2 ^ 128 then some next else none) 0

/-- `fst_value`. -/
def fstValue (value : FstSignalValue) (signalType : FstSignalType) : Except FstError ChangeValue :=
  match value with
  | .real value => .ok (.float value)
  | .string bytes =>
    match String.fromUTF8? bytes with
    | none => .error (.unsupportedValue "generic string is not valid UTF-8")
    | some text =>
      if signalType = .digital ∧ text.utf8ByteSize > 1 ∧ text.utf8ByteSize ≤ 128 ∧
          text.toList.all (fun c => c = '0' || c = '1') then
        match u128FromBinary text.toList with
        | some value => .ok (.integer value)
        | none => .ok (.text text)
      else .ok (.text text)

/-! ## The opened waveform -/

structure FstSignal where
  name : String
  handleIndex : Nat
  width : Nat
  signalType : FstSignalType
  isAlias : Bool
  deriving DecidableEq, Repr

/-- `FstMeta` without its version, date and counts. -/
structure FstMeta where
  startTime : Nat
  endTime : Nat
  timescaleExponent : Int
  timescale : Option Timescale
  deriving DecidableEq, Repr

/-- What stands at a path: its bytes and its modification time. -/
structure FstFile where
  bytes : List UInt8
  modified : Option Nat
  deriving DecidableEq, Repr

structure FstIdentity (η : Type) where
  len : Nat
  modified : Option Nat
  sample : η
  deriving DecidableEq, Repr

/-- The 64 KiB of the sampling buffer. -/
def sampleBytes : Nat := 64 * 1024

variable {η : Type}

/-- `FstIdentity::from_file`: the first block, and the last one of a file that
is longer than a block. -/
def FstIdentity.fromFile (hash : List UInt8 → η) (file : FstFile) : FstIdentity η where
  len := file.bytes.length
  modified := file.modified
  sample := hash (file.bytes.take sampleBytes ++
    if file.bytes.length > sampleBytes then file.bytes.drop (file.bytes.length - sampleBytes)
    else [])

structure OpenedFst (η : Type) where
  displayPath : String
  identity : FstIdentity η
  header : FstMeta
  signals : List FstSignal
  byName : List (String × Nat)

/-- `OpenedFst::signal`. -/
def OpenedFst.signal (opened : OpenedFst η) (name : String) : Option FstSignal :=
  (opened.byName.lookup name).bind fun index => opened.signals[index]?

/-- `OpenedFst::signal_names`. -/
def OpenedFst.signalNames (opened : OpenedFst η) : List String := opened.signals.map (·.name)

/-- What an attempt to open the path finds. -/
abbrev Opening := Except IoError FstFile

/-- `OpenedFst::validate_source`. -/
def OpenedFst.validateSource [DecidableEq η] (opened : OpenedFst η) (hash : List UInt8 → η) (path : Opening) :
    Except FstError Unit :=
  match path with
  | .error source => .error (.io opened.displayPath source)
  | .ok file =>
    if opened.identity = FstIdentity.fromFile hash file then .ok () else .error .staleSource

/-! ## The selected read -/

structure FstFilter where
  start : Nat
  end_ : Option Nat
  include_ : Option (List Nat)
  deriving DecidableEq, Repr

/-- The answer of a call into `fst-reader` below `catch_unwind`. -/
inductive Caught
  | panicked
  | failed (message : String)
  | done
  deriving DecidableEq, Repr

abbrev FstCallback := Nat × Nat × FstSignalValue

/-- `fst_reader::FstReader`: how opening a file goes, and for a filter the
callbacks (time, handle, value) of `read_signals` and how it ends when none of
them fails. -/
structure FstReader where
  open_ : FstFile → Caught
  readSignals : FstFile → FstFilter → List FstCallback × Caught

/-- `handles`, `names_by_handle` and `type_by_handle`. -/
structure FstSelection where
  handles : List Nat
  namesByHandle : Groups Nat String
  typeByHandle : List (Nat × FstSignalType)

/-- The loop over the targets. -/
def OpenedFst.selectLoop (opened : OpenedFst η) (selection : FstSelection) :
    List String → Except QueryError FstSelection
  | [] => .ok selection
  | target :: targets =>
    match opened.signal target with
    | none => .error (.signalNotFound target)
    | some signal =>
      opened.selectLoop
        { handles := if selection.handles.contains signal.handleIndex then selection.handles
            else selection.handles ++ [signal.handleIndex]
          namesByHandle := selection.namesByHandle.push signal.handleIndex target
          typeByHandle := (signal.handleIndex, signal.signalType) :: selection.typeByHandle }
        targets

def OpenedFst.select (opened : OpenedFst η) (targets : List String) :
    Except QueryError FstSelection :=
  opened.selectLoop ⟨[], [], []⟩ targets

/-- `FstCallbackError`; a stop leaves what the visitor has seen. -/
inductive FstCallbackError (σ : Type)
  | query (error : QueryError)
  | stop (visited : σ)

/-- The counters of a read, and the visitor's state. -/
structure FstRead (σ : Type) where
  rowCount : Nat
  work : Nat
  bytes : Nat
  visited : σ

variable {σ : Type} (context : QueryContext)
  (visitor : σ → TimeValue → Except QueryError (Bool × σ))

/-- One round of the callback's loop over the names of its handle. -/
def FstRead.row (read : FstRead σ) (row : TimeValue) :
    Except (FstCallbackError σ) (FstRead σ) := do
  let nextRows := saturatingAdd read.rowCount 1
  (OpenedTimeValueIter.checkLimit .rows context.limits.maxRows nextRows).mapError .query
  let nextBytes := saturatingAdd read.bytes (logicalEventBytes row.signal row.value)
  (OpenedTimeValueIter.checkLimit .resultBytes context.limits.maxResultBytes nextBytes).mapError
    .query
  let (more, visited) ← (visitor read.visited row).mapError .query
  if more then
    return { read with rowCount := nextRows, bytes := nextBytes, visited := visited }
  else throw (.stop visited)

/-- The callback of `read_signals`. -/
def FstRead.callback (selection : FstSelection) (start end_ : Nat) (read : FstRead σ) :
    FstCallback → Except (FstCallbackError σ) (FstRead σ)
  | (time, handle, value) => do
    let read := { read with work := saturatingAdd read.work 1 }
    context.check.mapError .query
    (OpenedTimeValueIter.checkLimit .commands context.limits.maxCommands read.work).mapError .query
    if time < start ∨ time > end_ then return read
    match selection.namesByHandle.get handle with
    | none => return read
    | some names =>
      let signalType := (selection.typeByHandle.lookup handle).getD .digital
      let value ← (fstValue value signalType).mapError fun error => .query (fstToQuery error)
      names.foldlM (fun read name => read.row context visitor ⟨name, time, value⟩) read

/-- What is done with the answer of `read_signals`. -/
def finishRead (read : Except (FstCallbackError σ) (FstRead σ)) (ending : Caught) :
    Except QueryError σ :=
  match read with
  | .error (.query error) => .error error
  | .error (.stop visited) => .ok visited
  | .ok read =>
    match ending with
    | .panicked => .error (.fst "FST parser panicked while reading signal data")
    | .failed message => .error (.fst (bounded message))
    | .done => .ok read.visited

/-- The part of `visit_changes_until_with_context` that has the reopened file. -/
def readFile (reader : FstReader) (selection : FstSelection) (start end_ : Nat) (file : FstFile)
    (visited : σ) : Except QueryError σ :=
  match reader.open_ file with
  | .panicked => .error (.fst "FST parser panicked while reopening source")
  | .failed message => .error (.fst (bounded message))
  | .done =>
    let (callbacks, ending) := reader.readSignals file ⟨start, some end_, some selection.handles⟩
    finishRead (callbacks.foldlM (FstRead.callback context visitor selection start end_)
      ⟨0, 0, 0, visited⟩) ending

/-- `start > end`, where both are given. -/
def inverted (window : TimeWindow) : Bool :=
  match window.start, window.end_ with
  | some start, some end_ => start > end_
  | _, _ => false

/-- What the three openings of one query find at the path: the first check, the
read, and the last check. -/
structure Openings where
  validated : Opening
  read : Opening
  revalidated : Opening

/-- `OpenedFst::visit_changes_until_with_context`. -/
def OpenedFst.visitChangesUntil [DecidableEq η] (opened : OpenedFst η) (hash : List UInt8 → η)
    (reader : FstReader) (openings : Openings) (targets : List String) (window : TimeWindow) (visited : σ) :
    Except QueryError σ := do
  context.checkSignalCount targets.length
  if inverted window then return visited
  let selection ← opened.select targets
  context.check
  (opened.validateSource hash openings.validated).mapError fstToQuery
  let file ← openings.read.mapError .sourceUnavailable
  let visited ← readFile context visitor reader selection (window.start.getD 0)
    (window.end_.getD opened.header.endTime) file visited
  context.check
  (opened.validateSource hash openings.revalidated).mapError fstToQuery
  return visited

/-- `OpenedFst::extract_with_context`. -/
def OpenedFst.extractWithContext [DecidableEq η] (opened : OpenedFst η) (hash : List UInt8 → η)
    (reader : FstReader) (openings : Openings) (targets : List String) (window : TimeWindow) (context : QueryContext) :
    Except QueryError (List TimeValue) :=
  opened.visitChangesUntil context (fun rows row => .ok (true, rows ++ [row])) hash reader openings
    targets window []

end VcdTools.Opened
