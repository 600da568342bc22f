import VcdTools.Lib.Json
import VcdTools.Query.Context

/-! # Response frames and protocol errors

The response half of `server/protocol.rs`: error codes, bounded error
messages and details, the five frames with their JSON text, and the mapping of
query errors. A frame's text is the compact JSON of its struct; objects made
with `json!` or `to_value` are sorted maps. -/
namespace VcdTools.Server
open VcdTools.Query VcdTools.Lib

def protocolVersion : Nat := 1
def maxRequestIdBytes : Nat := 128
def terminalFrameReserveBytes : Nat := 4096
def chunkRows : Nat := 1024
def chunkBytes : Nat := 262144
def maxErrorMessageBytes : Nat := 256
def maxErrorDetailStringBytes : Nat := 256
def maxErrorDetailItems : Nat := 8
def maxErrorDetailFields : Nat := 16

inductive ProtocolErrorCode
  | badRequest | unsupportedVersion | unknownMethod | duplicateRequestId | signalNotFound
  | invalidWindow | invalidOccurrence | limitExceeded | queueFull | cancelled
  | deadlineExceeded | staleSource | sourceUnavailable | parseError | fstError | internal
  deriving DecidableEq, Repr

def ProtocolErrorCode.asStr : ProtocolErrorCode → String
  | .badRequest => "BAD_REQUEST"
  | .unsupportedVersion => "UNSUPPORTED_VERSION"
  | .unknownMethod => "UNKNOWN_METHOD"
  | .duplicateRequestId => "DUPLICATE_REQUEST_ID"
  | .signalNotFound => "SIGNAL_NOT_FOUND"
  | .invalidWindow => "INVALID_WINDOW"
  | .invalidOccurrence => "INVALID_OCCURRENCE"
  | .limitExceeded => "LIMIT_EXCEEDED"
  | .queueFull => "QUEUE_FULL"
  | .cancelled => "CANCELLED"
  | .deadlineExceeded => "DEADLINE_EXCEEDED"
  | .staleSource => "STALE_SOURCE"
  | .sourceUnavailable => "SOURCE_UNAVAILABLE"
  | .parseError => "PARSE_ERROR"
  | .fstError => "FST_ERROR"
  | .internal => "INTERNAL"

/-! ## Errors -/

/-- The longest prefix of at most `max` bytes that ends at a character boundary. -/
def takeBytes : Nat → List Char → List Char
  | _, [] => []
  | max, c :: cs => if c.utf8Size ≤ max then c :: takeBytes (max - c.utf8Size) cs else []

def ellipsis : Char := '…'

def truncateUtf8 (text : String) (maxBytes : Nat) : String :=
  if Json.strBytes text ≤ maxBytes then text
  else .ofList (takeBytes (maxBytes - ellipsis.utf8Size) text.toList ++ [ellipsis])

mutual
/-- `bound_error_details`, `levels` above the depth where it cuts. -/
def boundErrorDetails : Nat → Json → Json
  | 0, _ => .str "…"
  | _ + 1, .str text => .str (truncateUtf8 text maxErrorDetailStringBytes)
  | levels + 1, .arr values => .arr (boundItems levels maxErrorDetailItems values)
  | levels + 1, .obj fields => Json.object (boundFields levels maxErrorDetailFields fields)
  | _ + 1, value => value

def boundItems : Nat → Nat → List Json → List Json
  | _, 0, _ => []
  | _, _, [] => []
  | levels, n + 1, value :: values =>
    boundErrorDetails levels value :: boundItems levels n values

def boundFields : Nat → Nat → List (String × Json) → List (String × Json)
  | _, 0, _ => []
  | _, _, [] => []
  | levels, n + 1, (key, value) :: fields =>
    (truncateUtf8 key maxErrorDetailStringBytes, boundErrorDetails levels value) ::
      boundFields levels n fields
end

structure ProtocolError where
  code : ProtocolErrorCode
  message : String
  details : Json
  retryable : Bool

def ProtocolError.new (code : ProtocolErrorCode) (message : String) (details : Json)
    (retryable : Bool) : ProtocolError where
  code := code
  message := truncateUtf8 message maxErrorMessageBytes
  details := boundErrorDetails 4 details
  retryable := retryable

def ProtocolError.badRequest (message : String) : ProtocolError :=
  .new .badRequest message (Json.object []) false

def ProtocolError.duplicateRequestId (id : String) : ProtocolError :=
  .new .duplicateRequestId "request ID is already active" (Json.object [("id", .str id)]) false

def ProtocolError.invalidOccurrence : ProtocolError :=
  .new .invalidOccurrence "occurrence must be >= 1" (Json.object []) false

/-- `impl Display for ProtocolError`. -/
def ProtocolError.display (error : ProtocolError) : String :=
  error.code.asStr ++ ": " ++ error.message

def limitKindName : QueryLimitKind → String
  | .signals => "signals"
  | .rows => "rows"
  | .resultBytes => "result_bytes"
  | .commands => "commands"

def protocolErrorFromVcd : VcdError → ProtocolError
  | .missingSignal signal => .new .signalNotFound "one or more signals were not found"
      (Json.object [("signals", .arr [.str signal])]) false
  | .missingSignals signals => .new .signalNotFound "one or more signals were not found"
      (Json.object [("signals", .arr ((signals.splitOn ", ").map .str))]) false
  | .invalidOccurrence => .invalidOccurrence
  | .io _ => .new .sourceUnavailable "source unavailable" (Json.object []) true
  | .missingEndDefinitions | .duplicateSignal _ | .parse _ =>
    .new .parseError "VCD parse error" (Json.object []) false

def protocolErrorFromQuery : QueryError → ProtocolError
  | .cancelled => .new .cancelled "query cancelled" (Json.object []) false
  | .deadlineExceeded => .new .deadlineExceeded "query deadline exceeded" (Json.object []) true
  | .limitExceeded kind limit actual => .new .limitExceeded "query limit exceeded"
      (Json.object [("kind", .str (limitKindName kind)), ("limit", .str (Nat.repr limit)),
        ("actual", .str (Nat.repr actual))]) false
  | .staleSource _ => .new .staleSource "source changed during query" (Json.object []) true
  | .queueFull => .new .queueFull "query queue is full" (Json.object []) true
  | .sourceUnavailable _ => .new .sourceUnavailable "source unavailable" (Json.object []) true
  | .signalNotFound signal => .new .signalNotFound "one or more signals were not found"
      (Json.object [("signals", .arr [.str signal])]) false
  | .vcd error => protocolErrorFromVcd error
  | .fst _ => .new .fstError "FST parse error" (Json.object [("format", .str "fst")]) false
  | .unsupportedWaveform _ => .new .parseError "unsupported waveform input" (Json.object []) false
  | .internal _ => .new .internal "internal server error" (Json.object []) false

/-! ## Frames -/

structure StreamStats where
  rows : String
  encodedBytes : String
  elapsedMs : String
  commands : String
  backend : String

structure ResultFrame where
  v : Nat
  id : String
  seq : Nat
  frameType : String
  ok : Bool
  result : Json

structure ErrorFrame where
  v : Nat
  id : Option String
  seq : Nat
  frameType : String
  ok : Bool
  error : ProtocolError

structure BeginFrame where
  v : Nat
  id : String
  seq : Nat
  frameType : String
  schema : String
  generation : String

structure ChunkFrame where
  v : Nat
  id : String
  seq : Nat
  frameType : String
  rows : List Json

structure EndFrame where
  v : Nat
  id : String
  seq : Nat
  frameType : String
  complete : Bool
  stats : Option StreamStats
  error : Option ProtocolError

inductive ResponseFrame
  | result (frame : ResultFrame)
  | error (frame : ErrorFrame)
  | begin (frame : BeginFrame)
  | chunk (frame : ChunkFrame)
  | end_ (frame : EndFrame)

def ResponseFrame.ofResult (id : String) (result : Json) : ResponseFrame :=
  .result { v := protocolVersion, id, seq := 0, frameType := "result", ok := true, result }

def ResponseFrame.ofError (id : Option String) (seq : Nat) (error : ProtocolError) :
    ResponseFrame :=
  .error { v := protocolVersion, id, seq, frameType := "error", ok := false, error }

def ResponseFrame.ofBegin (id schema generation : String) : ResponseFrame :=
  .begin { v := protocolVersion, id, seq := 0, frameType := "begin", schema, generation }

def ResponseFrame.ofChunk (id : String) (seq : Nat) (rows : List Json) : ResponseFrame :=
  .chunk { v := protocolVersion, id, seq, frameType := "chunk", rows }

def ResponseFrame.endError (id : String) (seq : Nat) (error : ProtocolError) : ResponseFrame :=
  .end_ { v := protocolVersion, id, seq, frameType := "end", complete := false, stats := none,
          error := some error }

def ProtocolError.toJson (error : ProtocolError) : Json :=
  .obj [("code", .str error.code.asStr), ("message", .str error.message),
    ("details", error.details), ("retryable", .bool error.retryable)]

def StreamStats.toJson (stats : StreamStats) : Json :=
  .obj [("rows", .str stats.rows), ("encoded_bytes", .str stats.encodedBytes),
    ("elapsed_ms", .str stats.elapsedMs), ("commands", .str stats.commands),
    ("backend", .str stats.backend)]

/-- The fields in the order of the struct; an absent `stats` or `error` of an
end frame is skipped. -/
def ResponseFrame.toJson : ResponseFrame → Json
  | .result f => .obj [("v", .num f.v), ("id", .str f.id), ("seq", .num f.seq),
      ("type", .str f.frameType), ("ok", .bool f.ok), ("result", f.result)]
  | .error f => .obj [("v", .num f.v), ("id", f.id.elim .null .str), ("seq", .num f.seq),
      ("type", .str f.frameType), ("ok", .bool f.ok), ("error", f.error.toJson)]
  | .begin f => .obj [("v", .num f.v), ("id", .str f.id), ("seq", .num f.seq),
      ("type", .str f.frameType), ("schema", .str f.schema), ("generation", .str f.generation)]
  | .chunk f => .obj [("v", .num f.v), ("id", .str f.id), ("seq", .num f.seq),
      ("type", .str f.frameType), ("rows", .arr f.rows)]
  | .end_ f => .obj ([("v", .num f.v), ("id", .str f.id), ("seq", .num f.seq),
      ("type", .str f.frameType), ("complete", .bool f.complete)] ++
      (f.stats.elim [] fun stats => [("stats", stats.toJson)]) ++
      (f.error.elim [] fun error => [("error", error.toJson)]))

/-- `encoded_json_line_bytes`: the text and its newline. -/
def encodedJsonLineBytes (frame : ResponseFrame) : Nat := frame.toJson.size + 1

/-- One turn of the loop of `end_success` with `fuel` turns left. -/
def endSuccessFrom (frame : Nat → ResponseFrame) (priorEncodedBytes : Nat) :
    Nat → Nat → Option ResponseFrame
  | 0, _ => none
  | fuel + 1, candidate =>
    let total := priorEncodedBytes + encodedJsonLineBytes (frame candidate)
    -- checked_add
    if total > u64Max then none
    else if total = candidate then some (frame candidate)
    else endSuccessFrom frame priorEncodedBytes fuel total

/-- `end_success`: an end frame that states the size of the stream it ends;
`none` for its serialization errors. -/
def ResponseFrame.endSuccess (id : String) (seq : Nat) (stats : StreamStats)
    (priorEncodedBytes : Nat) : Option ResponseFrame :=
  let frame candidate := ResponseFrame.end_
    { v := protocolVersion, id, seq, frameType := "end", complete := true,
      stats := some { stats with encodedBytes := Nat.repr candidate }, error := none }
  endSuccessFrom frame priorEncodedBytes 32 0

end VcdTools.Server
