import VcdTools.Server.Output

/-! # The list and extract handlers

`StreamOutput`, the frame sizing and the two streaming handlers of
`server/service.rs`. A handler is a dispatcher's program: it is given what it
reads from the waveform and the clock (`Visit` and the `Env` structures) and
decides which frames to send from the answers to its sends. -/
namespace VcdTools.Server
open VcdTools.Query VcdTools.Lib

/-! ## Sizing -/

structure CappedCounter where
  cap : Nat
  written : Nat
  exceeded : Bool

def CappedCounter.new (lineCap : Nat) : CappedCounter where
  cap := lineCap - 1
  written := 0
  exceeded := false

def CappedCounter.write (counter : CappedCounter) (buffer : List Char) : CappedCounter × Bool :=
  let attempted := saturatingAdd counter.written (Json.bytes buffer)
  if attempted > counter.cap then ({ counter with exceeded := true }, false)
  else ({ counter with written := attempted }, true)

def limitError (kind : String) (limit actual : Nat) : ProtocolError :=
  .new .limitExceeded "query limit exceeded"
    (Json.object [("kind", .str kind), ("limit", .str (Nat.repr limit)),
      ("actual", .str (Nat.repr actual))]) false

def internalSerialization : ProtocolError :=
  .new .internal "response serialization failed" (Json.object []) false

/-- `none` for a frame over the limit. -/
def tryFrameBytes (ser : Json.Serializer) (frame : ResponseFrame) (frameLimit : Nat) :
    Except ProtocolError (Option Nat) :=
  match Json.writeAll CappedCounter.write (.new frameLimit) (ser.pieces frame.toJson) with
  | (counter, true) => .ok (some (counter.written + 1))
  | (counter, false) => if counter.exceeded then .ok none else .error internalSerialization

def frameBytes (ser : Json.Serializer) (frame : ResponseFrame) (frameLimit : Nat) :
    Except ProtocolError Nat := do
  match ← tryFrameBytes ser frame frameLimit with
  | some bytes => .ok bytes
  | none => .error (limitError "encoded_frame_bytes" frameLimit (frameLimit + 1))

def ensureResponseBudget (current next limit : Nat) : Except ProtocolError Unit :=
  let actual := saturatingAdd (saturatingAdd current next) terminalFrameReserveBytes
  if actual > limit then .error (limitError "response_bytes" limit actual) else .ok ()

/-! ## The stream -/

structure StreamOutput where
  id : String
  nextSeq : Nat
  encodedBytes : Nat
  rows : Nat
  responseLimit : Nat
  frameLimit : Nat

def sendFrame (frame : ResponseFrame) : Dispatch Unit := .call frame .done

def StreamOutput.begin (ser : Json.Serializer) (id schema : String)
    (generation responseLimit frameLimit : Nat) : Dispatch StreamOutput := do
  let frame := ResponseFrame.ofBegin id schema (Nat.repr generation)
  let bytes ← .lift (frameBytes ser frame frameLimit)
  .lift (ensureResponseBudget 0 bytes responseLimit)
  sendFrame frame
  return { id, nextSeq := 1, encodedBytes := bytes, rows := 0, responseLimit, frameLimit }

/-- The stream after a chunk of `bytes` with `rows` rows; `next_seq.checked_add`
may overflow. -/
def StreamOutput.advance (stream : StreamOutput) (bytes rows : Nat) :
    Except ProtocolError StreamOutput :=
  if stream.nextSeq < u32Max then
    .ok { stream with
      encodedBytes := saturatingAdd stream.encodedBytes bytes
      rows := saturatingAdd stream.rows rows
      nextSeq := stream.nextSeq + 1 }
  else .error (.new .internal "response sequence overflow" (Json.object []) false)

def StreamOutput.sendRowsSplit (ser : Json.Serializer) (stream : StreamOutput)
    (rows : List Json) (h : rows ≠ []) : Dispatch StreamOutput :=
  let frame := ResponseFrame.ofChunk stream.id stream.nextSeq rows
  match tryFrameBytes ser frame stream.frameLimit with
  | .error error => .fail error
  | .ok none =>
    if hone : rows.length = 1 then
      .fail (limitError "chunk_bytes" stream.frameLimit (stream.frameLimit + 1))
    else
      have hlen := List.length_pos_of_ne_nil h
      (sendRowsSplit ser stream (rows.take (rows.length / 2))
        (List.ne_nil_of_length_pos (by rw [List.length_take]; omega))).bind fun stream =>
      sendRowsSplit ser stream (rows.drop (rows.length / 2))
        (List.ne_nil_of_length_pos (by rw [List.length_drop]; omega))
  | .ok (some bytes) => do
    .lift (ensureResponseBudget stream.encodedBytes bytes stream.responseLimit)
    sendFrame frame
    .lift (stream.advance bytes rows.length)
termination_by rows.length
decreasing_by
  · rw [List.length_take]
    omega
  · rw [List.length_drop]
    omega

def StreamOutput.sendRows (ser : Json.Serializer) (stream : StreamOutput) (rows : List Json) :
    Dispatch StreamOutput :=
  if h : rows = [] then pure stream else stream.sendRowsSplit ser rows h

def StreamOutput.stats (stream : StreamOutput) (elapsedMs commands : Nat) : StreamStats where
  rows := Nat.repr stream.rows
  encodedBytes := "0"
  elapsedMs := Nat.repr elapsedMs
  commands := Nat.repr commands
  backend := "stream"

def StreamOutput.finish (ser : Json.Serializer) (stream : StreamOutput)
    (elapsedMs commands : Nat) : Dispatch Unit := do
  let frame ← .lift (match ResponseFrame.endSuccess stream.id stream.nextSeq
      (stream.stats elapsedMs commands) stream.encodedBytes with
    | some frame => .ok frame
    | none => .error internalSerialization)
  let bytes ← .lift (frameBytes ser frame stream.frameLimit)
  if saturatingAdd stream.encodedBytes bytes > stream.responseLimit then
    .fail (limitError "response_bytes" stream.responseLimit
      (saturatingAdd stream.encodedBytes bytes))
  else sendFrame frame

/-! ## The query of a request -/

structure ServiceConfig where
  maxSignals : Nat
  maxRows : Nat
  maxResponseBytes : Nat
  maxCommands : Nat

def lowerLimit (kind : String) (requested : Option Nat) (configured : Nat) :
    Except ProtocolError Nat :=
  let value := requested.getD configured
  if value > configured then
    .error (.badRequest (kind ++ " may only lower the configured maximum"))
  else .ok value

/-- `query_context`, without the deadline and the token: the query's limits and
the response limit. -/
def queryLimits (config : ServiceConfig) (commands rows response : Option Nat) :
    Except ProtocolError (QueryLimits × Nat) := do
  let commands ← lowerLimit "commands" commands config.maxCommands
  let rows ← lowerLimit "rows" rows config.maxRows
  let response ← lowerLimit "response_bytes" response config.maxResponseBytes
  if response < terminalFrameReserveBytes then
    .error (.badRequest "max_response_bytes must reserve at least 4096 terminal bytes")
  else .ok ({ maxSignals := some config.maxSignals, maxRows := some rows,
              maxResultBytes := some response, maxCommands := some commands }, response)

/-! ## Rows on their way out -/

/-- What a visit of the waveform hands to its visitor, and how it ends when the
visitor never fails. -/
structure Visit (ρ : Type) where
  items : List ρ
  result : Except QueryError Unit

/-- A visitor's program: it sends like a handler and fails like a query. -/
abbrev Visiting (α : Type) := Proc ResponseFrame (Except ProtocolError Unit) QueryError α

def Visit.run {σ ρ : Type} (v : Visit ρ) (visitor : σ → ρ → Visiting σ) (s : σ) :
    Visiting σ := do
  let s ← Proc.fold visitor s v.items
  .lift v.result
  return s

/-- A stream and the rows buffered for its next chunk. -/
structure Buffered where
  stream : StreamOutput
  rows : List Json

/-- The end of both visitors: a full buffer is sent from inside the visit, and
the error of that send becomes an internal query error. -/
def Buffered.push (ser : Json.Serializer) (b : Buffered) (row : Json) : Visiting Buffered :=
  let rows := b.rows ++ [row]
  if rows.length = chunkRows then
    ((b.stream.sendRows ser rows).mapError fun error => .internal error.display).bind
      fun stream => pure ⟨stream, []⟩
  else pure ⟨b.stream, rows⟩

/-- The flush after the visit. -/
def Buffered.flush (ser : Json.Serializer) (b : Buffered) : Dispatch StreamOutput :=
  if b.rows.isEmpty then pure b.stream else b.stream.sendRows ser b.rows

/-! ## list -/

structure ListParams where
  filter : Option String
  maxRows : Option Nat
  maxResponseBytes : Option Nat

/-- What a list request reads: the generation or the error of `current`, the
visit of the signal names, the last `validate_source` and `check`, the clock.
None of them resolves a name. -/
structure ListEnv where
  current : Except ProtocolError UInt64
  visit : Visit String
  validateSource : Except QueryError Unit
  check : Except QueryError Unit
  elapsedMs : BitVec 128
  resolves : ∀ error, visit.result = .error error ∨ validateSource = .error error ∨
    check = .error error → error.listsNames = false

/-- `str::contains`. -/
def containsStr (name filter : String) : Bool :=
  name.toList.tails.any fun tail => filter.toList.isPrefixOf tail

def ListParams.keeps (params : ListParams) (name : String) : Bool :=
  params.filter.all fun filter => containsStr name filter

def listVisitor (ser : Json.Serializer) (params : ListParams) (maxRows : Nat) (b : Buffered)
    (name : String) : Visiting Buffered :=
  if params.keeps name then
    if b.stream.rows + b.rows.length ≥ maxRows then
      .fail (.limitExceeded .rows maxRows (saturatingAdd maxRows 1))
    else b.push ser (.str name)
  else pure b

def listRequest (ser : Json.Serializer) (config : ServiceConfig) (frameLimit : Nat) (id : String)
    (params : ListParams) (env : ListEnv) : Dispatch Unit := do
  let (limits, responseLimit) ←
    .lift (queryLimits config none params.maxRows params.maxResponseBytes)
  let generation ← .lift env.current
  let stream ← StreamOutput.begin ser id "signal_name.v1" generation.toNat responseLimit frameLimit
  let maxRows := limits.maxRows.getD config.maxRows
  let b ← (env.visit.run (listVisitor ser params maxRows) ⟨stream, []⟩).mapError
    protocolErrorFromQuery
  let stream ← b.flush ser
  .lift (env.validateSource.mapError protocolErrorFromQuery)
  .lift (env.check.mapError protocolErrorFromQuery)
  stream.finish ser env.elapsedMs.toNat 0

/-! ## extract -/

structure ExtractParams where
  signals : List String
  start : Option Nat
  end_ : Option Nat
  maxCommands : Option Nat
  maxRows : Option Nat
  maxResponseBytes : Option Nat

/-- What an extract request reads. `acquire` is the wait for the scan gate,
whose only errors are those of the request's context; `floatText` is the text
of an `f64`. The visit starts once every signal has a width, so it misses none. -/
structure ExtractEnv where
  current : Except ProtocolError UInt64
  width : String → Option Nat
  acquire : Except QueryError Unit
  visit : Visit TimeValue
  floatText : F64 → String
  elapsedMs : BitVec 128
  acquires : ∀ error, acquire = .error error → error = .cancelled ∨ error = .deadlineExceeded
  resolves : ∀ error, visit.result = .error error → error.listsNames = false

theorem ok_acquires : ∀ error : QueryError, (.ok () : Except QueryError Unit) = .error error →
    error = .cancelled ∨ error = .deadlineExceeded := nofun

theorem ok_resolves : ∀ error : QueryError, (.ok () : Except QueryError Unit) = .error error →
    error.listsNames = false := nofun

/-- `{:016x}`. -/
def hex16 (n : Nat) : String :=
  let digits := Nat.toDigits 16 n
  .ofList (List.replicate (16 - digits.length) '0' ++ digits)

def wireValue (floatText : F64 → String) : ChangeValue → Json
  | .integer value => Json.object [("kind", .str "integer"), ("text", .str (Nat.repr value))]
  | .float value => Json.object [("kind", .str "float"), ("text", .str (floatText value)),
      ("bits", .str (hex16 value.bits.toNat))]
  | .text value => Json.object [("kind", .str "text"), ("text", .str value)]

/-- A `TimeValueRow`. -/
def timeValueRow (env : ExtractEnv) (event : TimeValue) : Json :=
  Json.object [("signal", .str event.signal), ("time", .str (Nat.repr event.time)),
    ("width", .str (Nat.repr ((env.width event.signal).getD 1))),
    ("value", wireValue env.floatText event.value)]

/-- The state of the extract visitor: the buffer and `emitted`. -/
def extractVisitor (ser : Json.Serializer) (env : ExtractEnv) (s : Buffered × UInt64)
    (event : TimeValue) : Visiting (Buffered × UInt64) := do
  let b ← s.1.push ser (timeValueRow env event)
  return (b, s.2 + 1)

def extractRequest (ser : Json.Serializer) (config : ServiceConfig) (frameLimit : Nat)
    (id : String) (params : ExtractParams) (env : ExtractEnv) : Dispatch Unit := do
  let (_, responseLimit) ← .lift
    (queryLimits config params.maxCommands params.maxRows params.maxResponseBytes)
  let generation ← .lift env.current
  match params.signals.find? fun signal => (env.width signal).isNone with
  | some missing => .fail (protocolErrorFromQuery (.signalNotFound missing))
  | none =>
    let stream ← StreamOutput.begin ser id "time_value.v1" generation.toNat responseLimit
      frameLimit
    .lift (env.acquire.mapError protocolErrorFromQuery)
    let (b, emitted) ← (env.visit.run (extractVisitor ser env) (⟨stream, []⟩, 0)).mapError
      protocolErrorFromQuery
    let stream ← b.flush ser
    stream.finish ser env.elapsedMs.toNat emitted.toNat

end VcdTools.Server
