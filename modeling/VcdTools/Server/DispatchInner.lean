import VcdTools.Lib.Bracket
import VcdTools.Server.Describe
import VcdTools.Server.Request

/-! # The dispatcher and its protected sections

`dispatch_inner` of `server/service.rs`, for all eight methods. Here a handler's
program also takes the scan permit and gives it back, in the section that
`with_expensive_scan` makes. What a handler reads from the waveform, its context
and the clock is given to it; a scan may end in a panic, and so may the look for
the current generation. -/
namespace VcdTools.Server
open VcdTools.Query VcdTools.Lib Bracket

/-- A program that sends frames and takes the scan permit. -/
abbrev Gated (α : Type) := Bracket.Program ResponseFrame ProtocolError α

/-- The permit is given back when the work returns, fails or panics. -/
def withExpensiveScan {α : Type} (work : Gated α) : Gated α := bracket work

structure VcdService where
  ser : Json.Serializer
  runtime : RuntimeConfig
  limits : ServiceConfig

/-- `self.runtime.max_encoded_frame_bytes`. -/
abbrev VcdService.maxEncodedFrameBytes (service : VcdService) : Nat :=
  service.runtime.maxEncodedFrameBytes

def sendUnary (ser : Json.Serializer) (id : String) (result : Json)
    (responseLimit frameLimit : Nat) : Dispatch Unit := do
  let frame := ResponseFrame.ofResult id result
  let bytes ← .lift (frameBytes ser frame frameLimit)
  if bytes > responseLimit then .fail (limitError "response_bytes" responseLimit bytes)
  else sendFrame frame

/-! ## What the handlers read -/

/-- `current` is what `GenerationSlot::current` answers, here and below: `none`
for a panic. -/
structure PingEnv where
  packageVersion : String
  uptimeMs : BitVec 128
  current : Option (Except ProtocolError Unit)

structure DescribeEnv where
  current : Option (Except ProtocolError Described)
  validateSource : Except QueryError Unit

/-- `scan` is how the protected work ends, `none` for a panic. -/
structure ScanEnv (ρ : Type) where
  current : Option (Except ProtocolError Unit)
  scan : Option (Except QueryError ρ)

/-- `check` and `recheck` are the looks at the context before and after
`validate_source`. -/
structure MetadataScanEnv extends ScanEnv VcdMeta where
  check : Except QueryError Unit
  validateSource : Except QueryError Unit
  recheck : Except QueryError Unit

structure FindEnv extends ScanEnv (Option TimeValue × Nat) where
  floatText : F64 → String

/-- `slotPanics` says that `current` has no answer. -/
structure ListScanEnv extends ListEnv where
  slotPanics : Bool

/-- `panics` says that the visit ends in a panic after its items. -/
structure ExtractScanEnv extends ExtractEnv where
  slotPanics : Bool
  panics : Bool

/-- What `current` answers an extract request. -/
def ExtractScanEnv.slot (env : ExtractScanEnv) : Option (Except ProtocolError UInt64) :=
  if env.slotPanics then none else some env.current

/-- What a request of the method reads. -/
def Requests.RequestMethod.Env : Requests.RequestMethod → Type
  | .ping => PingEnv
  | .describe => DescribeEnv
  | .list _ => ListScanEnv
  | .metadata _ => MetadataScanEnv
  | .extract _ => ExtractScanEnv
  | .find _ => FindEnv
  | .toggles _ => ScanEnv (String → Option Nat)
  | .cancel _ => Unit

/-! ## Results -/

def pingResult (env : PingEnv) (ready : Bool) : Json :=
  Json.object [("protocol", .str "1"), ("package_version", .str env.packageVersion),
    ("uptime_ms", .str (Nat.repr env.uptimeMs.toNat)), ("ready", .bool ready)]

def findResult (floatText : F64 → String) (signal : String) (event : Option TimeValue)
    (width : Nat) : Json :=
  Json.object [("found", .bool event.isSome), ("signal", .str signal),
    ("time", event.elim .null fun event => .str (Nat.repr event.time)),
    ("width", .str (Nat.repr width)),
    ("value", event.elim .null fun event => wireValue floatText event.value)]

def togglesResult (signals : List String) (counts : String → Option Nat) : Json :=
  Json.object [("rows", .arr (signals.map fun signal =>
    Json.object [("signal", .str signal), ("toggles", .str (Nat.repr ((counts signal).getD 0)))]))]

def cancelDispatched : ProtocolError :=
  .new .internal "cancel must be handled by the connection runtime" (Json.object []) false

/-! ## The handlers -/

/-- Protected work that sends nothing. -/
def scanned {ρ : Type} : Option (Except QueryError ρ) → Gated ρ
  | none => .panic
  | some result => .lift (result.mapError protocolErrorFromQuery)

namespace VcdService
variable (service : VcdService) (id : String)

def unary (result : Json) (responseLimit : Nat) : Gated Unit :=
  embed (sendUnary service.ser id result responseLimit service.maxEncodedFrameBytes)

def dispatchPing (env : PingEnv) : Gated Unit := do
  let ready ← .attempt (env.current.map fun current => .ok current.isOk)
  service.unary id (pingResult env ready) service.limits.maxResponseBytes

def dispatchDescribe (env : DescribeEnv) : Gated Unit := do
  let opened ← .attempt env.current
  let result := describe service.runtime service.limits opened
  .lift (env.validateSource.mapError protocolErrorFromQuery)
  service.unary id result.toJson service.limits.maxResponseBytes

/-- `current` is asked once the limits are set. -/
def dispatchList (params : ListParams) (env : ListScanEnv) : Gated Unit :=
  if env.slotPanics then do
    let _ ← .lift (queryLimits service.limits none params.maxRows params.maxResponseBytes)
    .panic
  else
    embed (listRequest service.ser service.limits service.maxEncodedFrameBytes id params
      env.toListEnv)

def dispatchMetadata (params : Requests.MetadataParams) (env : MetadataScanEnv) :
    Gated Unit := do
  let (_, responseLimit) ← .lift
    (queryLimits service.limits (params.maxCommands.map UInt64.toNat) none none)
  .attempt env.current
  let metadata ← withExpensiveScan (scanned env.scan)
  .lift (env.check.mapError protocolErrorFromQuery)
  .lift (env.validateSource.mapError protocolErrorFromQuery)
  .lift (env.recheck.mapError protocolErrorFromQuery)
  service.unary id (metadataResult metadata) responseLimit

/-- The work of an extract request: a visitor that sends the chunks as they fill up. -/
def extractScan (env : ExtractScanEnv) (stream : StreamOutput) : Dispatch (Buffered × UInt64) :=
  ((env.visit.run (extractVisitor service.ser env.toExtractEnv) (⟨stream, []⟩, 0)).mapError
    protocolErrorFromQuery).bind fun visited => if env.panics then .panic else pure visited

def dispatchExtract (params : ExtractParams) (env : ExtractScanEnv) : Gated Unit := do
  let (_, responseLimit) ← .lift
    (queryLimits service.limits params.maxCommands params.maxRows params.maxResponseBytes)
  let generation ← .attempt env.slot
  match params.signals.find? fun signal => (env.width signal).isNone with
  | some missing => .fail (protocolErrorFromQuery (.signalNotFound missing))
  | none =>
    let stream ← embed (StreamOutput.begin service.ser id "time_value.v1" generation.toNat
      responseLimit service.maxEncodedFrameBytes)
    let (b, emitted) ← withExpensiveScan (embed (service.extractScan env stream))
    let stream ← embed (b.flush service.ser)
    embed (stream.finish service.ser env.elapsedMs.toNat emitted.toNat)

def dispatchFind (params : Requests.FindParams) (env : FindEnv) : Gated Unit := do
  let (_, responseLimit) ← .lift
    (queryLimits service.limits (params.maxCommands.map UInt64.toNat) none
      (params.maxResponseBytes.map UInt64.toNat))
  .attempt env.current
  let (event, width) ← withExpensiveScan (scanned env.scan)
  service.unary id (findResult env.floatText params.signal event width) responseLimit

def dispatchToggles (params : Requests.TogglesParams) (env : ScanEnv (String → Option Nat)) :
    Gated Unit := do
  let (_, responseLimit) ← .lift
    (queryLimits service.limits (params.maxCommands.map UInt64.toNat) none
      (params.maxResponseBytes.map UInt64.toNat))
  .attempt env.current
  let counts ← withExpensiveScan (scanned env.scan)
  service.unary id (togglesResult params.signals counts) responseLimit

def dispatchInner : (method : Requests.RequestMethod) → method.Env → Gated Unit
  | .ping, env => service.dispatchPing id env
  | .describe, env => service.dispatchDescribe id env
  | .list params, env => service.dispatchList id params.handled env
  | .metadata params, env => service.dispatchMetadata id params env
  | .extract params, env => service.dispatchExtract id params.handled env
  | .find params, env => service.dispatchFind id params env
  | .toggles params, env => service.dispatchToggles id params env
  | .cancel _, _ => .fail cancelDispatched

end VcdService

/-- The one method whose protected work sends frames. -/
def Requests.RequestMethod.streamsInScan : Requests.RequestMethod → Bool
  | .extract _ => true
  | _ => false

/-! ## Every way out -/

section Brackets
variable {service : VcdService} {id : String} {quiet : Bool}

/-- **The section of `with_expensive_scan`** around work that sends nothing: the
permit is back whether the work returns, fails or panics. -/
theorem scanned_bracketed {ρ : Type} (scan : Option (Except QueryError ρ)) :
    Bracketed quiet (withExpensiveScan (scanned scan)) false := by
  refine bracketed_bracket ?_
  cases scan with
  | none => exact bracketed_exiting_panic
  | some result => exact bracketed_exiting_done _

/-- **The section around work that sends**: the permit is back on every way out,
but it is held while the work sends. -/
theorem sending_bracketed {α : Type} (work : Dispatch α) :
    Bracketed false (withExpensiveScan (embed work)) false :=
  bracketed_bracket (bracketed_exiting work)

theorem extract_bracketed (params : ExtractParams) (env : ExtractScanEnv) :
    Bracketed false (service.dispatchExtract id params env) false := by
  refine bracketed_lift_bind fun limits => bracketed_attempt_bind fun generation => ?_
  show Bracketed false (match params.signals.find? fun signal => (env.width signal).isNone with
    | some missing => _
    | none => _) false
  split
  · exact bracketed_done _
  · refine (bracketed_embed _ _).bind fun stream => ?_
    refine (sending_bracketed _).bind fun visited => ?_
    exact (bracketed_embed _ _).bind fun stream => bracketed_embed _ _

/-- **Every request takes the permit and gives it back**, and none but an
extract sends a frame in between. -/
theorem dispatchInner_bracketed (method : Requests.RequestMethod) (env : method.Env) :
    Bracketed (!method.streamsInScan) (service.dispatchInner id method env) false := by
  cases method with
  | ping => exact bracketed_attempt_bind fun _ => bracketed_embed _ _
  | describe =>
    exact bracketed_attempt_bind fun _ => bracketed_lift_bind fun _ => bracketed_embed _ _
  | list params =>
    change Bracketed _ (service.dispatchList id params.handled env) false
    unfold VcdService.dispatchList
    split
    · exact bracketed_lift_bind fun _ => bracketed_panic
    · exact bracketed_embed _ _
  | metadata params =>
    refine bracketed_lift_bind fun limits => bracketed_attempt_bind fun _ => ?_
    refine (scanned_bracketed _).bind fun metadata => ?_
    exact bracketed_lift_bind fun _ => bracketed_lift_bind fun _ => bracketed_lift_bind fun _ =>
      bracketed_embed _ _
  | extract params => exact extract_bracketed _ _
  | find params =>
    refine bracketed_lift_bind fun limits => bracketed_attempt_bind fun _ => ?_
    exact (scanned_bracketed _).bind fun found => bracketed_embed _ _
  | toggles params =>
    refine bracketed_lift_bind fun limits => bracketed_attempt_bind fun _ => ?_
    exact (scanned_bracketed _).bind fun counts => bracketed_embed _ _
  | cancel params => exact bracketed_done _

/-! ## The handlers without the gate -/

theorem unbracket_lift_bind {α : Type} {grant : Except ProtocolError Unit}
    (result : Except ProtocolError α) (f : α → Gated Unit) :
    unbracket grant ((Proc.lift result).bind f) =
      (Proc.lift result).bind fun a => unbracket grant (f a) := by
  cases result <;> rfl

/-- **The gated extract is the extract handler** with the wait for the permit
in its place. -/
theorem unbracket_extract (params : ExtractParams) (env : ExtractScanEnv)
    (hslot : env.slotPanics = false) (hpanics : env.panics = false) :
    unbracket (env.acquire.mapError protocolErrorFromQuery)
        (service.dispatchExtract id params env) =
      extractRequest service.ser service.limits service.maxEncodedFrameBytes id params
        env.toExtractEnv := by
  unfold VcdService.dispatchExtract extractRequest ExtractScanEnv.slot
  simp only [Proc.bind_eq, unbracket_lift_bind, hslot, Bool.false_eq_true, if_false, Proc.attempt]
  refine congrArg _ (funext fun limits => congrArg _ (funext fun generation => ?_))
  cases hfind : params.signals.find? fun signal => (env.width signal).isNone with
  | some missing => rfl
  | none =>
    have hscan : ∀ stream, service.extractScan env stream =
        (env.visit.run (extractVisitor service.ser env.toExtractEnv) (⟨stream, []⟩, 0)).mapError
          protocolErrorFromQuery := by
      intro stream
      unfold VcdService.extractScan
      simp only [hpanics, Bool.false_eq_true, if_false]
      exact Proc.bind_pure _
    simp only [unbracket_bind, unbracket_embed, withExpensiveScan, unbracket_bracket, hscan,
      Proc.bind_assoc]

end Brackets

end VcdTools.Server
