import VcdTools.Opened.Metadata
import VcdTools.Server.Service

/-! # Metadata requests against one generation

The `Metadata` arm of `dispatch_inner` with the scan gate around the cache of
one opened VCD. A request waits for the gate, calls `metadata_with_context` as
a caller of the shared cache, gives the gate back, checks its context and the
source, and sends its result. What a request meets outside the cache is fixed
by its `MetadataEnv`; its context may be cancelled or expire at any time. -/
namespace VcdTools.Server
open VcdTools.Query VcdTools.Opened VcdTools.Lib

def timescaleUnitText : TimescaleUnit → String
  | .s => "s"
  | .ms => "ms"
  | .us => "us"
  | .ns => "ns"
  | .ps => "ps"
  | .fs => "fs"

def wireTimescale (timescale : Timescale) : Json :=
  Json.object [("magnitude", .str (Nat.repr timescale.magnitude)),
    ("unit", .str (timescaleUnitText timescale.unit))]

/-- A `MetadataResult`. -/
def metadataResult (metadata : VcdMeta) : Json :=
  Json.object [("signal_count", .str (Nat.repr metadata.signalCount)),
    ("timescale", metadata.timescale.elim .null wireTimescale),
    ("start_time", .str (Nat.repr metadata.startTime)),
    ("end_time", .str (Nat.repr metadata.endTime))]

/-- `current` says whether this generation is still the current one, `scan`
how the request's own scan would end (`none` for a panic), `sendUnary` what the
sizing and `send_frame` make of its result frame. -/
structure MetadataEnv where
  current : Except ProtocolError Unit
  scan : Option (Except QueryError VcdMeta)
  validateSource : Except QueryError Unit
  sendUnary : ResponseFrame → Except ProtocolError Unit

def MetadataEnv.toScan (env : MetadataEnv) : Scan := env.scan.elim .panicked .withContext

inductive MetadataPc
  /-- In `ScanGate::acquire`. -/
  | waiting
  /-- Holds the gate, before `OpenedWaveform::metadata`. -/
  | admitted
  /-- In `metadata_with_context`, as this caller of the cache. -/
  | scanning (caller : Nat)
  | scanned (metadata : VcdMeta)
  | checked (metadata : VcdMeta)
  | validated (metadata : VcdMeta)
  | answered (frame : ResponseFrame)

def MetadataPc.holdsGate : MetadataPc → Bool
  | .admitted | .scanning _ => true
  | _ => false

def ResponseFrame.isResult : ResponseFrame → Bool
  | .result _ => true
  | _ => false

def MetadataPc.retryable : MetadataPc → Bool
  | .answered (.error frame) => frame.error.retryable
  | _ => false

/-- `later` and `found` are ghosts: whether a retryable error had been answered
when the request arrived, and the cache its call looked at. -/
structure MetadataRequest where
  id : String
  maxCommands : Option Nat
  env : MetadataEnv
  context : QueryContext
  pc : MetadataPc
  later : Bool
  found : Option MetadataState

namespace MetadataRequest

/-- The frame of `required_terminal`. -/
def fail (r : MetadataRequest) (error : ProtocolError) : MetadataPc :=
  .answered (.ofError (some r.id) 0 error)

/-- `context.check()?`. -/
def check (r : MetadataRequest) (next : MetadataPc) : MetadataPc :=
  match r.context.check with
  | .error error => r.fail (protocolErrorFromQuery error)
  | .ok () => next

/-- `query_context` and `current`. -/
def enter (config : ServiceConfig) (r : MetadataRequest) : MetadataPc :=
  match queryLimits config r.maxCommands none none with
  | .error error => r.fail error
  | .ok _ => r.check (match r.env.current with
    | .error error => r.fail error
    | .ok () => .waiting)

/-- What the call of `metadata` returns to the handler, or unwinds with. -/
def leave (r : MetadataRequest) : Outcome → MetadataPc
  | .ok metadata => .scanned metadata
  | .vcdError error => r.fail (protocolErrorFromVcd error)
  | .queryError error => r.fail (protocolErrorFromQuery error)
  | .panicked => r.fail panicError

def validate (r : MetadataRequest) (metadata : VcdMeta) : MetadataPc :=
  match r.env.validateSource with
  | .error error => r.fail (protocolErrorFromQuery error)
  | .ok () => r.check (.validated metadata)

def deliver (r : MetadataRequest) (metadata : VcdMeta) : MetadataPc :=
  let frame := ResponseFrame.ofResult r.id (metadataResult metadata)
  match r.env.sendUnary frame with
  | .error error => r.fail error
  | .ok () => .answered frame

end MetadataRequest

/-- `gate` is the request that holds the scan gate; `retried` is a ghost: a
retryable error has been answered. -/
structure MetadataServer where
  cache : Cache
  gate : Option Nat
  requests : List MetadataRequest
  retried : Bool

def MetadataServer.init : MetadataServer := ⟨.init, none, [], false⟩

namespace MetadataServer

def put (s : MetadataServer) (i : Nat) (r : MetadataRequest) : MetadataServer :=
  { s with requests := s.requests.set i r, retried := s.retried || r.pc.retryable }

/-- The gate holder's call, one step of the cache further. -/
def scanTurn (debug : Bool) (s : MetadataServer) (i : Nat) (r : MetadataRequest) (j : Nat)
    (c : Caller) : Option MetadataServer :=
  match c.pc with
  | .returned outcome => some { s.put i { r with pc := r.leave outcome } with gate := none }
  | .building _ => (s.cache.step debug (.scan j r.env.toScan)).map fun cache => { s with cache }
  | .looping _ _ => (s.cache.step debug (.advance j)).map fun cache =>
    { s.put i { r with found := some s.cache.state } with cache }
  | _ => (s.cache.step debug (.advance j)).map fun cache => { s with cache }

def advance (debug : Bool) (s : MetadataServer) (i : Nat) (r : MetadataRequest) :
    Option MetadataServer :=
  match r.pc with
  | .waiting => match r.context.check, s.gate with
    | .error error, _ => some (s.put i { r with pc := r.fail (protocolErrorFromQuery error) })
    | .ok (), none => some { s.put i { r with pc := .admitted } with gate := some i }
    | .ok (), some _ => some s
  | .admitted => match r.context.check with
    | .error error =>
      some { s.put i { r with pc := r.fail (protocolErrorFromQuery error) } with gate := none }
    | .ok () => (s.cache.step debug (.call .metadataWithContext r.context)).map fun cache =>
      { s.put i { r with pc := .scanning s.cache.callers.length } with cache }
  | .scanning j => (s.cache.caller j).bind (s.scanTurn debug i r j)
  | .scanned metadata => some (s.put i { r with pc := r.check (.checked metadata) })
  | .checked metadata => some (s.put i { r with pc := r.validate metadata })
  | .validated metadata => some (s.put i { r with pc := r.deliver metadata })
  | .answered _ => none

/-- The request's token or deadline fires. -/
def interrupt (debug : Bool) (s : MetadataServer) (i : Nat) (r : MetadataRequest)
    (context : QueryContext) (act : Nat → Action) : Option MetadataServer :=
  let s := { s with requests := s.requests.set i { r with context } }
  match r.pc with
  | .scanning j => (s.cache.step debug (act j)).map fun cache => { s with cache }
  | _ => some s

end MetadataServer

inductive ServerAction
  | arrive (id : String) (maxCommands : Option Nat) (env : MetadataEnv) (context : QueryContext)
  | cancel (i : Nat)
  | expire (i : Nat)
  | advance (i : Nat)

def MetadataServer.step (debug : Bool) (config : ServiceConfig) (s : MetadataServer) :
    ServerAction → Option MetadataServer
  | .arrive id maxCommands env context =>
    let r : MetadataRequest := { id, maxCommands, env, context, pc := .waiting,
                                 later := s.retried, found := none }
    let r := { r with pc := r.enter config }
    some { s with requests := s.requests ++ [r], retried := s.retried || r.pc.retryable }
  | .cancel i => s.requests[i]?.bind fun r =>
    s.interrupt debug i r { r.context with cancelled := true } .cancel
  | .expire i => s.requests[i]?.bind fun r =>
    s.interrupt debug i r { r.context with expired := true } .expire
  | .advance i => s.requests[i]?.bind (s.advance debug i)

/-! ## What a request is owed -/

/-- Nothing but the cache can keep the request from its result. -/
structure MetadataRequest.Healthy (config : ServiceConfig) (r : MetadataRequest) : Prop where
  limits : ∃ limits, queryLimits config r.maxCommands none none = .ok limits
  current : r.env.current = .ok ()
  live : r.context.Live
  scan : ∃ metadata, r.env.scan = some (.ok metadata)
  validateSource : r.env.validateSource = .ok ()
  sendUnary : ∀ frame, r.env.sendUnary frame = .ok ()

/-- A cache that neither has metadata nor lets anybody scan for it: a failed
attempt is kept, or the attempt ids are used up. -/
def CacheBlocked (state : MetadataState) : Prop :=
  match state.phase with
  | .failed _ _ _ => True
  | .absent => state.elect = none
  | .ready _ _ | .building _ _ => False

end VcdTools.Server
