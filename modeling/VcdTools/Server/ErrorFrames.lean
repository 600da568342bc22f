import VcdTools.Lib.Joined
import VcdTools.Server.FrameSize

/-! # The size of error frames

The details of an error are cut to items and bytes before they are escaped for
JSON, while the reserve for a terminal frame is for the bytes after it. Of the
errors of queries, the one that lists missing signals can outgrow it. -/
namespace VcdTools.Server
open VcdTools.Query VcdTools.Lib Json

/-! ## The configuration -/

def maxRequestLineBytes : Nat := 1048576
def hardMaxConnections : Nat := 256
def hardMaxActiveRequestsPerConnection : Nat := 64
def hardMaxWorkers : Nat := 64
def hardMaxQueueDepth : Nat := 4096
def hardMaxOutputChunks : Nat := 256
def hardMaxTimeoutMs : Nat := 3600000

structure RuntimeConfig where
  maxConnections : Nat
  maxActiveRequestsPerConnection : Nat
  workers : Nat
  queueDepth : Nat
  outputChunks : Nat
  requestLineBytes : Nat
  maxEncodedFrameBytes : Nat
  maxTimeoutMs : Nat

/-- `RuntimeConfig::validate`; `checkedAdd` is that of the instant it runs at. -/
def RuntimeConfig.validate (config : RuntimeConfig) (checkedAdd : Nat → Option Nat) :
    Except String Unit :=
  if config.maxConnections = 0 ∨ config.maxConnections > hardMaxConnections ∨
      config.maxActiveRequestsPerConnection = 0 ∨
      config.maxActiveRequestsPerConnection > hardMaxActiveRequestsPerConnection ∨
      config.workers = 0 ∨ config.workers > hardMaxWorkers ∨
      config.queueDepth = 0 ∨ config.queueDepth > hardMaxQueueDepth ∨
      config.outputChunks = 0 ∨ config.outputChunks > hardMaxOutputChunks ∨
      config.requestLineBytes = 0 ∨ config.requestLineBytes > maxRequestLineBytes ∨
      config.maxEncodedFrameBytes < terminalFrameReserveBytes ∨
      config.maxEncodedFrameBytes > chunkBytes ∨
      config.maxTimeoutMs = 0 ∨ config.maxTimeoutMs > hardMaxTimeoutMs ∨
      checkedAdd config.maxTimeoutMs = none then
    .error "server runtime limits are outside supported bounds"
  else .ok ()

/-! ## What fits -/

/-- The bytes of a text between the quotes of its JSON string. -/
def escapedBytes (text : String) : Nat := bytes (escape text.toList)

/-- The names that an error lists: the first eight, each cut to 256 bytes. -/
def listedNames (signals : String) : List String :=
  ((signals.splitOn ", ").take maxErrorDetailItems).map
    fun name => truncateUtf8 name maxErrorDetailStringBytes

/-- The bytes of a list of names, with their quotes and commas. -/
def listBytes (names : List String) : Nat := (names.map fun name => escapedBytes name + 3).sum

/-- The room that the rest of a terminal frame leaves for the id and a list of
names. -/
def roomForNames : OutputLifecycle → Nat
  | .notStarted => 3921
  | .streaming nextSeq => 3918 - digits nextSeq
  | .terminal => 0

/-- **Which error frames fit**: all but those that list names whose escapes take
too much room. -/
def Roomy (id : String) (lifecycle : OutputLifecycle) : QueryError → Prop
  | .vcd (.missingSignals signals) =>
    escapedBytes id + listBytes (listedNames signals) ≤ roomForNames lifecycle
  | _ => True

/-- An output that a server can have: a valid id, a sequence number of its type. -/
structure OutputSink.Proper (output : OutputSink) : Prop where
  idOk : strBytes output.requestId ≤ maxRequestIdBytes
  seqOk : ∀ nextSeq, output.lifecycle = .streaming nextSeq → nextSeq ≤ u32Max

/-- **When the terminal frame of an error fits**, by its size and by what
becomes of the connection. -/
structure TerminalFits (output : OutputSink) (error : QueryError) : Prop where
  size : ∀ frame, output.terminalFrame (protocolErrorFromQuery error) = some frame →
    (encodedJsonLineBytes frame ≤ terminalFrameReserveBytes ↔
      Roomy output.requestId output.lifecycle error)
  /-- No accepted configuration has the client disconnected for the size. -/
  kept : output.lifecycle ≠ .terminal →
    ((∀ config checkedAdd ser, RuntimeConfig.validate config checkedAdd = .ok () →
      (OutputSink.requireTerminal ser
        { output with maxEncodedFrameBytes := config.maxEncodedFrameBytes } false
        (protocolErrorFromQuery error)).disconnected = false) ↔
      Roomy output.requestId output.lifecycle error)

/-! ## The error that lists names -/

theorem boundItems_str (levels n : Nat) (names : List String) :
    boundItems (levels + 1) n (names.map .str) =
      ((names.take n).map fun name => truncateUtf8 name maxErrorDetailStringBytes).map .str := by
  induction names generalizing n with
  | nil => cases n <;> rfl
  | cons name names ih =>
    cases n with
    | zero => rfl
    | succ n =>
      rw [List.map_cons, boundItems, ih, List.take_succ_cons, List.map_cons, List.map_cons]
      rfl

/-- The details that list the names of an error. -/
theorem missingSignals_details (signals : String) :
    (protocolErrorFromQuery (.vcd (.missingSignals signals))).details =
      .obj [("signals", .arr ((listedNames signals).map .str))] := by
  have hdetails : (protocolErrorFromQuery (.vcd (.missingSignals signals))).details =
      .obj [("signals", .arr (boundItems 2 maxErrorDetailItems
        ((signals.splitOn ", ").map .str)))] := rfl
  rw [hdetails, boundItems_str]
  rfl

theorem listedNames_ne_nil (signals : String) : listedNames signals ≠ [] := by
  obtain ⟨name, names, h⟩ := List.exists_cons_of_ne_nil (Joined.splitOn_ne_nil signals ", ")
  rw [listedNames, h]
  exact List.cons_ne_nil _ _

theorem size_names (signals : String) :
    size (.arr ((listedNames signals).map .str)) = 1 + listBytes (listedNames signals) := by
  have hsize : ((fun e => size e + 1) ∘ Json.str) = fun name => escapedBytes name + 3 := by
    funext name
    rw [Function.comp_apply, size_str, string_bytes, escapedBytes]
    omega
  rw [size_arr (by simpa using listedNames_ne_nil signals), List.map_map, hsize, listBytes]

/-- The size of the error that lists the names. -/
theorem missingSignals_size (signals : String) :
    (protocolErrorFromQuery (.vcd (.missingSignals signals))).toJson.size =
      116 + listBytes (listedNames signals) := by
  have hcode : bytes (string ProtocolErrorCode.signalNotFound.asStr) = 18 := by decide
  have hmessage : bytes (string "one or more signals were not found") = 36 := by decide
  have herror : (protocolErrorFromQuery (.vcd (.missingSignals signals))).toJson =
      .obj [("code", .str ProtocolErrorCode.signalNotFound.asStr),
        ("message", .str "one or more signals were not found"),
        ("details", .obj [("signals", .arr ((listedNames signals).map .str))]),
        ("retryable", .bool false)] := by
    rw [ProtocolError.toJson, missingSignals_details]
    rfl
  rw [herror]
  simp only [size_obj_cons, renderFields_cons, renderFields_nil, size_str, errorKeyBytes, hcode,
    hmessage, size_false, size_names]
  omega

/-- The terminal frame of an error, around the error and the id. -/
theorem terminalFrame_size {output : OutputSink} (hproper : output.Proper) {error : ProtocolError}
    {frame : ResponseFrame} (hframe : output.terminalFrame error = some frame) :
    encodedJsonLineBytes frame + roomForNames output.lifecycle =
      escapedBytes output.requestId + error.toJson.size + 3980 := by
  have hid : bytes (string output.requestId) = 2 + escapedBytes output.requestId :=
    string_bytes output.requestId
  unfold OutputSink.terminalFrame at hframe
  cases hlifecycle : output.lifecycle with
  | notStarted =>
    rw [hlifecycle] at hframe
    cases hframe
    simp only [encodedJsonLineBytes, ResponseFrame.ofError, ResponseFrame.toJson, Option.elim,
      size_obj_cons, renderFields_cons, renderFields_nil, size_num, size_str, keyBytes,
      digits_version, hid, digits_zero, size_false, roomForNames]
    omega
  | streaming nextSeq =>
    have hseq := digits_u32 (hproper.seqOk nextSeq hlifecycle)
    rw [hlifecycle] at hframe
    cases hframe
    simp only [encodedJsonLineBytes, ResponseFrame.endError, ResponseFrame.toJson, Option.elim,
      List.append_nil, List.cons_append, List.nil_append, size_obj_cons, renderFields_cons,
      renderFields_nil, size_num, size_str, keyBytes, digits_version, hid, size_false,
      roomForNames]
    omega
  | terminal =>
    rw [hlifecycle] at hframe
    cases hframe

/-- Every other error is small. -/
theorem terminalFrame_modest {output : OutputSink} (hproper : output.Proper) {error : QueryError}
    (herror : error.listsNames = false) {frame : ResponseFrame}
    (hframe : output.terminalFrame (protocolErrorFromQuery error) = some frame) :
    encodedJsonLineBytes frame ≤ terminalFrameReserveBytes := by
  have hmodest := modest_fromQuery herror
  unfold OutputSink.terminalFrame at hframe
  cases hlifecycle : output.lifecycle with
  | notStarted =>
    rw [hlifecycle] at hframe
    cases hframe
    exact error_small hproper.idOk hmodest
  | streaming nextSeq =>
    have hseq := hproper.seqOk nextSeq hlifecycle
    rw [hlifecycle] at hframe
    cases hframe
    exact endError_small hproper.idOk hseq hmodest
  | terminal =>
    rw [hlifecycle] at hframe
    cases hframe

theorem roomy_of_not_listing {id : String} {lifecycle : OutputLifecycle} {error : QueryError}
    (herror : error.listsNames = false) : Roomy id lifecycle error := by
  unfold Roomy
  split
  · cases herror
  · trivial

/-- The frame of an error fits exactly when it is roomy. -/
theorem terminalFrame_fits_iff {output : OutputSink} (hproper : output.Proper) {error : QueryError}
    {frame : ResponseFrame}
    (hframe : output.terminalFrame (protocolErrorFromQuery error) = some frame) :
    encodedJsonLineBytes frame ≤ terminalFrameReserveBytes ↔
      Roomy output.requestId output.lifecycle error := by
  by_cases hlists : error.listsNames = true
  · obtain ⟨signals, rfl⟩ : ∃ signals, error = .vcd (.missingSignals signals) := by
      cases error with
      | vcd error =>
        cases error with
        | missingSignals signals => exact ⟨signals, rfl⟩
        | _ => cases hlists
      | _ => cases hlists
    have hsize := terminalFrame_size hproper hframe
    rw [missingSignals_size] at hsize
    unfold Roomy terminalFrameReserveBytes
    simp only
    omega
  · have hlists : error.listsNames = false := by simpa using hlists
    exact ⟨fun _ => roomy_of_not_listing hlists, fun _ => terminalFrame_modest hproper hlists hframe⟩

/-! ## The connection -/

theorem RuntimeConfig.validate_frameBytes {config : RuntimeConfig} {checkedAdd : Nat → Option Nat}
    (h : config.validate checkedAdd = .ok ()) :
    terminalFrameReserveBytes ≤ config.maxEncodedFrameBytes ∧
      config.maxEncodedFrameBytes ≤ chunkBytes := by
  unfold RuntimeConfig.validate at h
  split at h
  · cases h
  · omega

/-- A configuration with frames as small as they may be. -/
def smallestFrames : RuntimeConfig where
  maxConnections := 32
  maxActiveRequestsPerConnection := 8
  workers := 4
  queueDepth := 64
  outputChunks := 8
  requestLineBytes := maxRequestLineBytes
  maxEncodedFrameBytes := terminalFrameReserveBytes
  maxTimeoutMs := 120000

theorem smallestFrames_ok : smallestFrames.validate some = .ok () := by decide

/-- `required_terminal` keeps the connection exactly for a frame within the
limit. -/
theorem requireTerminal_kept_iff {ser : Json.Serializer} {output : OutputSink}
    {error : ProtocolError} {frame : ResponseFrame} (hpos : 0 < output.maxEncodedFrameBytes)
    (hmax : output.maxEncodedFrameBytes ≤ u64Max)
    (hframe : output.terminalFrame error = some frame) :
    (output.requireTerminal ser false error).disconnected = false ↔
      encodedJsonLineBytes frame ≤ output.maxEncodedFrameBytes := by
  unfold OutputSink.requireTerminal
  simp only [hframe]
  cases hline : output.encodeBounded ser frame with
  | ok line => exact ⟨fun _ => ((encodeBounded_iff hpos hmax).mp hline).1, fun _ => rfl⟩
  | error error =>
    constructor
    · exact fun h => (by cases h)
    · intro hle
      rw [(encodeBounded_iff hpos hmax).mpr ⟨hle, rfl⟩] at hline
      cases hline

/-- **An error's terminal frame fits the reserve** exactly when the error does
not list names that take too much room when escaped, and only then is the client
safe from being disconnected for the frame's size. -/
theorem terminal_fits_iff (output : OutputSink) (hproper : output.Proper) (error : QueryError) :
    TerminalFits output error := by
  refine ⟨fun frame hframe => terminalFrame_fits_iff hproper hframe, fun hopen => ?_⟩
  obtain ⟨frame, hframe⟩ : ∃ frame,
      output.terminalFrame (protocolErrorFromQuery error) = some frame := by
    unfold OutputSink.terminalFrame
    cases hlifecycle : output.lifecycle with
    | notStarted => exact ⟨_, rfl⟩
    | streaming nextSeq => exact ⟨_, rfl⟩
    | terminal => exact absurd hlifecycle hopen
  rw [← terminalFrame_fits_iff hproper hframe]
  have hkept : ∀ config checkedAdd ser, RuntimeConfig.validate config checkedAdd = .ok () →
      ((OutputSink.requireTerminal ser
        { output with maxEncodedFrameBytes := config.maxEncodedFrameBytes } false
        (protocolErrorFromQuery error)).disconnected = false ↔
      encodedJsonLineBytes frame ≤ config.maxEncodedFrameBytes) := by
    intro config checkedAdd ser hvalid
    obtain ⟨hlo, hhi⟩ := RuntimeConfig.validate_frameBytes hvalid
    unfold terminalFrameReserveBytes at hlo
    unfold chunkBytes at hhi
    refine requireTerminal_kept_iff ?_ ?_ hframe
    · exact Nat.lt_of_lt_of_le (by decide) hlo
    · exact Nat.le_trans hhi (by decide)
  constructor
  · exact fun h => (hkept smallestFrames some .whole smallestFrames_ok).mp
      (h smallestFrames some .whole smallestFrames_ok)
  · intro hfits config checkedAdd ser hvalid
    exact (hkept config checkedAdd ser hvalid).mpr
      (Nat.le_trans hfits (RuntimeConfig.validate_frameBytes hvalid).1)

/-! ## Names that outgrow it -/

/-- An output at its start. -/
def freshOutput : OutputSink where
  requestId := "a"
  lifecycle := .notStarted
  maxEncodedFrameBytes := terminalFrameReserveBytes
  enqueued := []

theorem freshOutput_proper : freshOutput.Proper :=
  ⟨by decide, fun _ h => (by cases h)⟩

theorem terminal_fits_fresh :
    TerminalFits freshOutput (.vcd (.missingSignals "top.a, top.b")) :=
  terminal_fits_iff freshOutput freshOutput_proper _

theorem bytes_escape_replicate (n : Nat) (c : Char) :
    bytes (escape (List.replicate n c)) = n * bytes (escapeChar c) := by
  induction n with
  | zero => rw [Nat.zero_mul]; rfl
  | succ n ih =>
    rw [List.replicate_succ, escape, List.flatMap_cons, bytes_append, Nat.succ_mul, Nat.add_comm]
    exact congrArg (· + _) ih

/-- A name of as many bytes as are listed, each a control character. -/
def controlName : List Char := List.replicate 256 (Char.ofNat 1)

/-- Three such names, as an extraction joins them. -/
def controlNames : String :=
  String.ofList ([',', ' '].intercalate [controlName, controlName, controlName])

theorem listedNames_controlNames :
    listedNames controlNames = List.replicate 3 (String.ofList controlName) := by
  have hsplit : controlNames.splitOn ", " = List.replicate 3 (String.ofList controlName) := by
    refine Joined.splitOn_intercalate (a := ',') (b := ' ') (by decide) (List.cons_ne_nil _ _) ?_
    intro name hname
    rw [show name = controlName by simpa using hname]
    exact fun h => absurd (List.eq_of_mem_replicate h) (by decide)
  have hone : (Char.ofNat 1).utf8Size = 1 := by decide
  have hshort : strBytes (String.ofList controlName) ≤ 256 := by
    rw [strBytes, String.toList_ofList, controlName, bytes, List.map_replicate,
      List.sum_replicate_nat, hone]
  rw [listedNames, hsplit]
  simp only [List.take_replicate, List.map_replicate]
  rw [show truncateUtf8 (String.ofList controlName) maxErrorDetailStringBytes =
    String.ofList controlName from truncateUtf8_short hshort]
  rfl

theorem control_names_over :
    ¬ ∀ (output : OutputSink), output.Proper → ∀ (error : QueryError) (frame : ResponseFrame),
      output.terminalFrame (protocolErrorFromQuery error) = some frame →
        encodedJsonLineBytes frame ≤ terminalFrameReserveBytes := by
  intro hall
  have hfits := hall freshOutput freshOutput_proper (.vcd (.missingSignals controlNames)) _ rfl
  have hroomy := (terminalFrame_fits_iff freshOutput_proper rfl).mp hfits
  have hsix : bytes (escapeChar (Char.ofNat 1)) = 6 := by decide
  have hname : escapedBytes (String.ofList controlName) = 1536 := by
    rw [escapedBytes, String.toList_ofList, controlName, bytes_escape_replicate, hsix]
  have hlist : listBytes (listedNames controlNames) = 4617 := by
    rw [listedNames_controlNames, listBytes, List.map_replicate, List.sum_replicate_nat, hname]
  unfold Roomy roomForNames at hroomy
  simp only [hlist] at hroomy
  have hroom : escapedBytes freshOutput.requestId + 4617 ≤ 3921 := hroomy
  omega

end VcdTools.Server
