import VcdTools.Lib.Decimal
import VcdTools.Server.RequestJson
import VcdTools.Server.Service

/-! # Requests

The request half of `server/protocol.rs`: the parameters of the eight methods,
their JSON, and `decode_request` with the checks it makes on the way. `usize`
has the 64 bits of the server's targets. -/
namespace VcdTools.Server

def ProtocolError.unsupportedVersion : ProtocolError :=
  .new .unsupportedVersion "unsupported protocol version"
    (Lib.Json.object [("supported_versions", .arr [.str "1"])]) false

def ProtocolError.unknownMethod (method : String) : ProtocolError :=
  .new .unknownMethod "unknown method" (Lib.Json.object [("method", .str method)]) false

def ProtocolError.invalidWindow : ProtocolError :=
  .new .invalidWindow "start must be less than or equal to end" (Lib.Json.object []) false

namespace Requests
open VcdTools.Lib

structure ListParams where
  filter : Option String
  maxRows : Option UInt64
  maxResponseBytes : Option UInt64
  timeoutMs : Option UInt64
  deriving DecidableEq, Repr

structure MetadataParams where
  timeoutMs : Option UInt64
  maxCommands : Option UInt64
  deriving DecidableEq, Repr

structure ExtractParams where
  signals : List String
  start : Option UInt64
  end_ : Option UInt64
  maxRows : Option UInt64
  maxResponseBytes : Option UInt64
  maxCommands : Option UInt64
  timeoutMs : Option UInt64
  deriving DecidableEq, Repr

structure FindParams where
  signal : String
  value : String
  occurrence : UInt64
  start : Option UInt64
  end_ : Option UInt64
  maxCommands : Option UInt64
  maxResponseBytes : Option UInt64
  timeoutMs : Option UInt64
  deriving DecidableEq, Repr

structure TogglesParams where
  signals : List String
  start : Option UInt64
  end_ : Option UInt64
  maxCommands : Option UInt64
  maxResponseBytes : Option UInt64
  timeoutMs : Option UInt64
  deriving DecidableEq, Repr

structure CancelParams where
  requestId : String
  deriving DecidableEq, Repr

inductive RequestMethod
  | ping
  | describe
  | list (params : ListParams)
  | metadata (params : MetadataParams)
  | extract (params : ExtractParams)
  | find (params : FindParams)
  | toggles (params : TogglesParams)
  | cancel (params : CancelParams)
  deriving DecidableEq, Repr

def RequestMethod.name : RequestMethod → String
  | .ping => "ping"
  | .describe => "describe"
  | .list _ => "list"
  | .metadata _ => "metadata"
  | .extract _ => "extract"
  | .find _ => "find"
  | .toggles _ => "toggles"
  | .cancel _ => "cancel"

structure Request where
  id : String
  method : RequestMethod
  deriving DecidableEq, Repr

/-- What the service is handed of a list request. -/
def ListParams.handled (params : ListParams) : Server.ListParams where
  filter := params.filter
  maxRows := params.maxRows.map UInt64.toNat
  maxResponseBytes := params.maxResponseBytes.map UInt64.toNat

/-- What the service is handed of an extract request. -/
def ExtractParams.handled (params : ExtractParams) : Server.ExtractParams where
  signals := params.signals
  start := params.start.map UInt64.toNat
  end_ := params.end_.map UInt64.toNat
  maxCommands := params.maxCommands.map UInt64.toNat
  maxRows := params.maxRows.map UInt64.toNat
  maxResponseBytes := params.maxResponseBytes.map UInt64.toNat

/-! ## Serialization -/

/-- `decimal_usize::serialize`. -/
def decimalUsize (value : UInt64) : JsonValue := .string (Nat.repr value.toNat)

/-- `option_decimal::serialize`, with the field skipped when there is no value. -/
def optionDecimal (value : Option UInt64) : Option JsonValue :=
  value.map fun value => .string (Nat.repr value.toNat)

def strings (values : List String) : JsonValue := .array (values.map .string)

def ListParams.slots (params : ListParams) : List (String × Option JsonValue) :=
  [("filter", params.filter.map .string),
    ("max_rows", optionDecimal params.maxRows),
    ("max_response_bytes", optionDecimal params.maxResponseBytes),
    ("timeout_ms", optionDecimal params.timeoutMs)]

def MetadataParams.slots (params : MetadataParams) : List (String × Option JsonValue) :=
  [("timeout_ms", optionDecimal params.timeoutMs),
    ("max_commands", optionDecimal params.maxCommands)]

def ExtractParams.slots (params : ExtractParams) : List (String × Option JsonValue) :=
  [("signals", some (strings params.signals)),
    ("start", optionDecimal params.start),
    ("end", optionDecimal params.end_),
    ("max_rows", optionDecimal params.maxRows),
    ("max_response_bytes", optionDecimal params.maxResponseBytes),
    ("max_commands", optionDecimal params.maxCommands),
    ("timeout_ms", optionDecimal params.timeoutMs)]

def FindParams.slots (params : FindParams) : List (String × Option JsonValue) :=
  [("signal", some (.string params.signal)),
    ("value", some (.string params.value)),
    ("occurrence", some (decimalUsize params.occurrence)),
    ("start", optionDecimal params.start),
    ("end", optionDecimal params.end_),
    ("max_commands", optionDecimal params.maxCommands),
    ("max_response_bytes", optionDecimal params.maxResponseBytes),
    ("timeout_ms", optionDecimal params.timeoutMs)]

def TogglesParams.slots (params : TogglesParams) : List (String × Option JsonValue) :=
  [("signals", some (strings params.signals)),
    ("start", optionDecimal params.start),
    ("end", optionDecimal params.end_),
    ("max_commands", optionDecimal params.maxCommands),
    ("max_response_bytes", optionDecimal params.maxResponseBytes),
    ("timeout_ms", optionDecimal params.timeoutMs)]

def CancelParams.slots (params : CancelParams) : List (String × Option JsonValue) :=
  [("request_id", some (.string params.requestId))]

def RequestMethod.slots : RequestMethod → List (String × Option JsonValue)
  | .ping => []
  | .describe => []
  | .list params => params.slots
  | .metadata params => params.slots
  | .extract params => params.slots
  | .find params => params.slots
  | .toggles params => params.slots
  | .cancel params => params.slots

/-- `params_value`: the fields that are there, as a map. -/
def RequestMethod.paramsValue (method : RequestMethod) : JsonValue :=
  .object (Fields.ofList (Fields.present method.slots))

mutual
/-- The events of a value's own text. -/
def JsonValue.events : JsonValue → Events
  | .null => .null
  | .bool value => .bool value
  | .number value => .number value
  | .string value => .string value
  | .array values => .seq (itemEvents values) none
  | .object fields => .map (entryEvents fields) none

def itemEvents : List JsonValue → List Events
  | [] => []
  | value :: values => value.events :: itemEvents values

def entryEvents : List (String × JsonValue) → List (String × Events)
  | [] => []
  | (key, value) :: fields => (key, value.events) :: entryEvents fields
end

/-- `impl Serialize for Request`. -/
def Request.serialize (request : Request) : Events :=
  .map [("v", .number (.posInt 1)), ("id", .string request.id),
    ("method", .string request.method.name), ("params", request.method.paramsValue.events)] none

/-- The JSON encoding of a request. -/
def Request.encode (serde : SerdeJson) (request : Request) : String :=
  serde.print request.serialize

/-! ## Checks on values -/

def validateRequestId (id : String) : Except ProtocolError PUnit :=
  if id.isEmpty then .error (.badRequest "request ID must not be empty")
  else if Json.strBytes id > maxRequestIdBytes then
    .error (.badRequest "request ID exceeds 128 bytes")
  else .ok ⟨⟩

def validateSignals (signals : List String) : Except ProtocolError PUnit :=
  if signals.isEmpty then .error (.badRequest "signals must not be empty")
  else if signals.any String.isEmpty then
    .error (.badRequest "signal names must not be empty")
  else .ok ⟨⟩

def validateWindow : Option UInt64 → Option UInt64 → Except ProtocolError PUnit
  | some start, some end_ => if start > end_ then .error .invalidWindow else .ok ⟨⟩
  | _, _ => .ok ⟨⟩

def validateResponseLimit : Option UInt64 → Except ProtocolError PUnit
  | some limit =>
    if limit.toNat < terminalFrameReserveBytes then
      .error (.badRequest "max_response_bytes must reserve at least 4096 terminal bytes")
    else .ok ⟨⟩
  | none => .ok ⟨⟩

def validateDecimal (value field : String) : Except ProtocolError PUnit :=
  if value.isEmpty ∨ ¬ value.toList.all Char.isDigit ∨
      (Json.strBytes value > 1 ∧ value.toList.head? = some '0') then
    .error (.badRequest (field ++ " must be a canonical unsigned decimal string"))
  else .ok ⟨⟩

/-- `str::parse` on a row of digits. -/
def parseU64 (digits : String) : Option UInt64 :=
  if Decimal.value digits.toList ≤ u64Max then some (.ofNat (Decimal.value digits.toList))
  else none

def parseDecimalU64 (value field : String) : Except ProtocolError UInt64 := do
  validateDecimal value field
  match parseU64 value with
  | some number => .ok number
  | none => .error (.badRequest (field ++ " overflows u64"))

def parseDecimalUsize (value field : String) : Except ProtocolError UInt64 :=
  parseDecimalU64 value field

def expectObject (value : JsonValue) (name : String) :
    Except ProtocolError (List (String × JsonValue)) :=
  match value with
  | .object fields => .ok fields
  | _ => .error (.badRequest (name ++ " must be an object"))

/-! ## Taking fields -/

abbrev Params := Fields.Take String JsonValue ProtocolError

def takeRequired (field : String) : Params JsonValue := do
  let value ← Fields.take field
  Fields.check (match value with
    | some value => .ok value
    | none => .error (.badRequest ("missing required field " ++ field)))

def takeString (field : String) : Params String := do
  let value ← takeRequired field
  Fields.check (match value with
    | .string value => .ok value
    | _ => .error (.badRequest (field ++ " must be a string")))

def takeOptionalString (field : String) : Params (Option String) := do
  let value ← Fields.take field
  Fields.check (match value with
    | none => .ok none
    | some (.string value) => .ok (some value)
    | some _ => .error (.badRequest (field ++ " must be a string")))

/-- `take_optional_decimal` and `take_optional_decimal_usize`, by their parser. -/
def takeOptionalParsed (parse : String → String → Except ProtocolError UInt64) (field : String) :
    Params (Option UInt64) := do
  let value ← Fields.take field
  Fields.check (match value with
    | none => .ok none
    | some (.string value) => (parse value field).map some
    | some _ => .error (.badRequest (field ++ " must be a decimal string")))

def takeOptionalDecimal (field : String) : Params (Option UInt64) :=
  takeOptionalParsed parseDecimalU64 field

def takeOptionalDecimalUsize (field : String) : Params (Option UInt64) :=
  takeOptionalParsed parseDecimalUsize field

/-- The entries of an array, collected until one is not a string. -/
def stringEntries (field : String) : List JsonValue → Except ProtocolError (List String)
  | [] => .ok []
  | .string value :: values => (stringEntries field values).map (value :: ·)
  | _ :: _ => .error (.badRequest (field ++ " entries must be strings"))

def takeRequiredStrings (field : String) : Params (List String) := do
  let value ← takeRequired field
  Fields.check (match value with
    | .array values => stringEntries field values
    | _ => .error (.badRequest (field ++ " must be an array")))

/-- Complains of the first field that is left. -/
def rejectUnknown : Params PUnit
  | [] => .ok (⟨⟩, [])
  | (field, _) :: _ => .error (.badRequest ("unknown method parameter " ++ field))

/-! ## The methods -/

def parseList : Params ListParams := do
  let filter ← takeOptionalString "filter"
  let maxRows ← takeOptionalDecimal "max_rows"
  let maxResponseBytes ← takeOptionalDecimal "max_response_bytes"
  let timeoutMs ← takeOptionalDecimal "timeout_ms"
  rejectUnknown
  Fields.check (validateResponseLimit maxResponseBytes)
  pure { filter, maxRows, maxResponseBytes, timeoutMs }

def parseMetadata : Params MetadataParams := do
  let timeoutMs ← takeOptionalDecimal "timeout_ms"
  let maxCommands ← takeOptionalDecimal "max_commands"
  rejectUnknown
  pure { timeoutMs, maxCommands }

def parseExtract : Params ExtractParams := do
  let signals ← takeRequiredStrings "signals"
  Fields.check (validateSignals signals)
  let start ← takeOptionalDecimal "start"
  let end_ ← takeOptionalDecimal "end"
  let maxRows ← takeOptionalDecimal "max_rows"
  let maxResponseBytes ← takeOptionalDecimal "max_response_bytes"
  let maxCommands ← takeOptionalDecimal "max_commands"
  let timeoutMs ← takeOptionalDecimal "timeout_ms"
  rejectUnknown
  Fields.check (validateWindow start end_)
  Fields.check (validateResponseLimit maxResponseBytes)
  pure { signals, start, end_, maxRows, maxResponseBytes, maxCommands, timeoutMs }

def parseFind : Params FindParams := do
  let signal ← takeString "signal"
  Fields.check (if signal.isEmpty then .error (.badRequest "signal must not be empty")
    else .ok PUnit.unit)
  let occurrence ← takeOptionalDecimalUsize "occurrence"
  let occurrence := occurrence.getD 1
  Fields.check (if occurrence = 0 then .error .invalidOccurrence else .ok PUnit.unit)
  let value ← takeString "value"
  let start ← takeOptionalDecimal "start"
  let end_ ← takeOptionalDecimal "end"
  let maxCommands ← takeOptionalDecimal "max_commands"
  let maxResponseBytes ← takeOptionalDecimal "max_response_bytes"
  let timeoutMs ← takeOptionalDecimal "timeout_ms"
  rejectUnknown
  Fields.check (validateWindow start end_)
  Fields.check (validateResponseLimit maxResponseBytes)
  pure { signal, value, occurrence, start, end_, maxCommands, maxResponseBytes, timeoutMs }

def parseToggles : Params TogglesParams := do
  let signals ← takeRequiredStrings "signals"
  Fields.check (validateSignals signals)
  let start ← takeOptionalDecimal "start"
  let end_ ← takeOptionalDecimal "end"
  let maxCommands ← takeOptionalDecimal "max_commands"
  let maxResponseBytes ← takeOptionalDecimal "max_response_bytes"
  let timeoutMs ← takeOptionalDecimal "timeout_ms"
  rejectUnknown
  Fields.check (validateWindow start end_)
  Fields.check (validateResponseLimit maxResponseBytes)
  pure { signals, start, end_, maxCommands, maxResponseBytes, timeoutMs }

def parseCancel : Params CancelParams := do
  let requestId ← takeString "request_id"
  Fields.check (validateRequestId requestId)
  rejectUnknown
  pure { requestId }

def parseMethod (name : String) : Params RequestMethod :=
  match name with
  | "ping" => do
    rejectUnknown
    pure .ping
  | "describe" => do
    rejectUnknown
    pure .describe
  | "list" => RequestMethod.list <$> parseList
  | "metadata" => RequestMethod.metadata <$> parseMetadata
  | "extract" => RequestMethod.extract <$> parseExtract
  | "find" => RequestMethod.find <$> parseFind
  | "toggles" => RequestMethod.toggles <$> parseToggles
  | "cancel" => RequestMethod.cancel <$> parseCancel
  | _ => Fields.check (.error (.unknownMethod name))

/-! ## The envelope -/

def checkVersion : JsonValue → Except ProtocolError PUnit
  | .number number =>
    if number.asU64 = some (.ofNat protocolVersion) then .ok ⟨⟩ else .error .unsupportedVersion
  | _ => .error (.badRequest "v must be JSON number 1")

/-- The body of `decode_request`. Unknown top-level envelope fields are
intentionally ignored. -/
def decodeEnvelope : Params Request := do
  let version ← takeRequired "v"
  Fields.check (checkVersion version)
  let id ← takeString "id"
  Fields.check (validateRequestId id)
  let methodName ← takeString "method"
  let params ← takeRequired "params"
  let params ← Fields.check (expectObject params "params")
  let method ← Fields.check (Fields.decode (parseMethod methodName) params)
  pure { id, method }

def decodeRequest (serde : SerdeJson) (line : String) : Except ProtocolError Request := do
  let value ← parseStrictJson serde line
  let envelope ← expectObject value "request envelope"
  Fields.decode decodeEnvelope envelope

def Request.validateInactive (request : Request) (isActive : String → Bool) :
    Except ProtocolError PUnit :=
  if isActive request.id then .error (.duplicateRequestId request.id) else .ok ⟨⟩

def decodeRequestWithActive (serde : SerdeJson) (line : String) (isActive : String → Bool) :
    Except ProtocolError Request := do
  let request ← decodeRequest serde line
  request.validateInactive isActive
  .ok request

end Requests
end VcdTools.Server
