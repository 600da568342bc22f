import VcdTools.Server.ErrorFrames
import VcdTools.Server.MetadataRequests

/-! # What the server says of itself

`ServiceConfig::validate`, and `describe` of `server/service.rs` with the limits
that it advertises. -/
namespace VcdTools.Server
open VcdTools.Lib

/-! ## The configuration -/

def hardMaxSignals : Nat := 65536
def hardMaxRows : Nat := 16000000
def hardMaxResponseBytes : Nat := 1073741824
def hardMaxCommands : Nat := 4000000000

/-- `ServiceConfig::validate`. -/
def ServiceConfig.validate (config : ServiceConfig) : Except String Unit :=
  if config.maxSignals = 0 ∨ config.maxSignals > hardMaxSignals ∨
      config.maxRows = 0 ∨ config.maxRows > hardMaxRows ∨
      config.maxResponseBytes < terminalFrameReserveBytes ∨
      config.maxResponseBytes > hardMaxResponseBytes ∨
      config.maxCommands = 0 ∨ config.maxCommands > hardMaxCommands then
    .error "server query limits are outside supported bounds"
  else .ok ()

/-- `impl Default for ServiceConfig`. -/
def ServiceConfig.default : ServiceConfig where
  maxSignals := 4096
  maxRows := 1000000
  maxResponseBytes := 268435456
  maxCommands := 1000000000

/-- `impl Default for RuntimeConfig`. -/
def RuntimeConfig.default : RuntimeConfig where
  maxConnections := 32
  maxActiveRequestsPerConnection := 8
  workers := 4
  queueDepth := 64
  outputChunks := 8
  requestLineBytes := maxRequestLineBytes
  maxEncodedFrameBytes := chunkBytes
  maxTimeoutMs := 120000

/-- The defaults are accepted. -/
theorem default_ok : ServiceConfig.default.validate = .ok () ∧
    RuntimeConfig.default.validate some = .ok () := by
  constructor <;> decide

theorem ServiceConfig.validate_bytes {config : ServiceConfig} (h : config.validate = .ok ()) :
    terminalFrameReserveBytes ≤ config.maxResponseBytes ∧
      config.maxResponseBytes ≤ hardMaxResponseBytes := by
  unfold ServiceConfig.validate at h
  split at h
  · cases h
  · omega

/-! ## describe -/

def methods : List String :=
  ["ping", "describe", "list", "metadata", "extract", "find", "toggles", "cancel"]

def schemas : List String := ["signal_name.v1", "time_value.v1"]

structure ServerLimits where
  connections : String
  activeRequestsPerConnection : String
  workers : String
  queuedJobs : String
  outputChunksPerConnection : String
  requestLineBytes : String
  requestIdBytes : String
  signalsPerQuery : String
  responseRows : String
  responseBytes : String
  commands : String
  timeoutMs : String
  chunkRows : String
  chunkBytes : String
  simultaneousExpensiveScans : String

structure SecurityCapabilities where
  transport : String
  socketMode : String
  peerUidCheck : Bool

structure DistributionCapabilities where
  nativeServe : Bool
  pythonConsoleServe : Bool

structure DescribeResult where
  protocol : String
  generation : String
  sourceFormat : String
  signalCount : String
  timescale : Option Timescale
  sourceSize : String
  immutableSource : Bool
  methods : List String
  schemas : List String
  backends : List String
  limits : ServerLimits
  security : SecurityCapabilities
  distribution : DistributionCapabilities

/-- What `describe` asks the opened waveform for. -/
structure Described where
  generation : UInt64
  format : String
  signalCount : Nat
  timescale : Option Timescale
  sourceSize : UInt64

/-- The limits of `VcdService::describe`. -/
def serverLimits (runtime : RuntimeConfig) (limits : ServiceConfig) : ServerLimits where
  connections := Nat.repr runtime.maxConnections
  activeRequestsPerConnection := Nat.repr runtime.maxActiveRequestsPerConnection
  workers := Nat.repr runtime.workers
  queuedJobs := Nat.repr runtime.queueDepth
  outputChunksPerConnection := Nat.repr runtime.outputChunks
  requestLineBytes := Nat.repr runtime.requestLineBytes
  requestIdBytes := Nat.repr maxRequestIdBytes
  signalsPerQuery := Nat.repr limits.maxSignals
  responseRows := Nat.repr limits.maxRows
  responseBytes := Nat.repr limits.maxResponseBytes
  commands := Nat.repr limits.maxCommands
  timeoutMs := Nat.repr runtime.maxTimeoutMs
  chunkRows := Nat.repr chunkRows
  chunkBytes := Nat.repr chunkBytes
  simultaneousExpensiveScans := "1"

/-- `VcdService::describe`. -/
def describe (runtime : RuntimeConfig) (limits : ServiceConfig) (opened : Described) :
    DescribeResult where
  protocol := "1"
  generation := Nat.repr opened.generation.toNat
  sourceFormat := opened.format
  signalCount := Nat.repr opened.signalCount
  timescale := opened.timescale
  sourceSize := Nat.repr opened.sourceSize.toNat
  immutableSource := true
  methods := methods
  schemas := schemas
  backends := ["stream"]
  limits := serverLimits runtime limits
  security := { transport := "unix", socketMode := "0600", peerUidCheck := false }
  distribution := { nativeServe := true, pythonConsoleServe := true }

def ServerLimits.toJson (limits : ServerLimits) : Json :=
  Json.object [("connections", .str limits.connections),
    ("active_requests_per_connection", .str limits.activeRequestsPerConnection),
    ("workers", .str limits.workers), ("queued_jobs", .str limits.queuedJobs),
    ("output_chunks_per_connection", .str limits.outputChunksPerConnection),
    ("request_line_bytes", .str limits.requestLineBytes),
    ("request_id_bytes", .str limits.requestIdBytes),
    ("signals_per_query", .str limits.signalsPerQuery),
    ("response_rows", .str limits.responseRows), ("response_bytes", .str limits.responseBytes),
    ("commands", .str limits.commands), ("timeout_ms", .str limits.timeoutMs),
    ("chunk_rows", .str limits.chunkRows), ("chunk_bytes", .str limits.chunkBytes),
    ("simultaneous_expensive_scans", .str limits.simultaneousExpensiveScans)]

def DescribeResult.toJson (result : DescribeResult) : Json :=
  Json.object [("protocol", .str result.protocol), ("generation", .str result.generation),
    ("source_format", .str result.sourceFormat), ("signal_count", .str result.signalCount),
    ("timescale", result.timescale.elim .null wireTimescale),
    ("source_size", .str result.sourceSize), ("immutable_source", .bool result.immutableSource),
    ("methods", .arr (result.methods.map .str)), ("schemas", .arr (result.schemas.map .str)),
    ("backends", .arr (result.backends.map .str)), ("limits", result.limits.toJson),
    ("security", Json.object [("transport", .str result.security.transport),
      ("socket_mode", .str result.security.socketMode),
      ("peer_uid_check", .bool result.security.peerUidCheck)]),
    ("distribution", Json.object [("native_serve", .bool result.distribution.nativeServe),
      ("python_console_serve", .bool result.distribution.pythonConsoleServe)])]

end VcdTools.Server
