import Mathlib.Logic.Function.Basic
import VcdTools.Server.OutputLifecycle
import VcdTools.Server.Registry
import VcdTools.Server.Request

/-! # One connection

`serve_connection` and `worker_loop` of `server/runtime.rs`, for the lines of
one client: the reader thread that admits them, the workers that run them, the
bounded output channel and the writer thread behind it. Who moves next is left
open. What the rest of the server decides (whether the scheduler's queue is
full, when a worker picks a job up, what the dispatcher does with it) may turn
out either way. -/
namespace VcdTools.Server
open VcdTools.Lib Requests

structure ConnectionConfig where
  outputChunks : Nat
  maxActiveRequests : Nat
  maxTimeoutMs : UInt64
  maxEncodedFrameBytes : Nat

structure ConnectionEnv where
  serde : SerdeJson
  ser : Json.Serializer
  config : ConnectionConfig

def requestTimeoutMs : RequestMethod → Option UInt64
  | .list params => params.timeoutMs
  | .metadata params => params.timeoutMs
  | .extract params => params.timeoutMs
  | .find params => params.timeoutMs
  | .toggles params => params.timeoutMs
  | .ping | .describe | .cancel _ => none

def effectiveTimeoutMs (method : RequestMethod) (configuredMaximum : UInt64) :
    Except ProtocolError UInt64 :=
  let requested := (requestTimeoutMs method).getD configuredMaximum
  if requested > configuredMaximum then
    .error (.badRequest "timeout_ms may only lower the configured maximum")
  else .ok requested

def cancelResult (found : Bool) : Json := .obj [("found", .bool found)]

def deadlineOverflow : ProtocolError := .badRequest "timeout_ms overflows deadline"

def queueFull : ProtocolError := .new .queueFull "query queue is full" (Json.object []) true

/-! ## The state -/

/-- Where a line is: `admitting` has its id registered but is not yet with the
scheduler; `running` is on a worker, whose guard still holds the id. -/
inductive Place
  | unread
  | atReader
  | admitting (id : String)
  | queued (request : Request)
  | running (job : Job)
  | gone

/-- The id that the line keeps registered. -/
def Place.holds : Place → Option String
  | .admitting id => some id
  | .queued request => some request.id
  | .running job => some job.output.requestId
  | .unread | .atReader | .gone => none

def Place.isRunning : Place → Bool
  | .running _ => true
  | _ => false

/-- A line as the client sees it. `terminated` says that its terminal frame
has been written to the client. `fresh` is whether, when it was sent, every
earlier request with its id was terminated. -/
structure ClientLine where
  text : String
  fresh : Bool
  terminated : Bool

/-- The line once its terminal frame is out. -/
def ClientLine.terminate (line : ClientLine) : ClientLine := { line with terminated := true }

/-- A frame in the output channel; `owner` is the line that it answers. -/
structure OutputFrame where
  frame : ResponseFrame
  owner : Option Nat

/-- The reader, between its looks at what it shares with others. -/
inductive ReaderPc
  | reading
  /-- Before `state.cancel` of the target. -/
  | cancelling (i : Nat) (id target : String)
  | registering (i : Nat) (request : Request)
  /-- Before `RequestContext::new`. -/
  | preparing (i : Nat) (request : Request)
  | submitting (i : Nat) (request : Request)
  /-- Before `state.remove`, with the error to answer. -/
  | releasing (i : Nat) (id : String) (error : ProtocolError)
  /-- In `send_encoded_control`. -/
  | replying (i : Nat) (frame : ResponseFrame)
  /-- In `send_uncorrelated`. -/
  | rejecting (error : ProtocolError)
  /-- Before `force_disconnect`. -/
  | forcing
  /-- Before `state.disconnect`. -/
  | closing
  /-- Before `_connection_guard` is dropped. -/
  | joining
  | stopped

inductive WriterPc
  | idle
  /-- Before its look at the flag. -/
  | holding (frame : OutputFrame)
  /-- In `writer.write`. -/
  | writing (frame : OutputFrame)

def WriterPc.frames : WriterPc → List OutputFrame
  | .idle => []
  | .holding frame => [frame]
  | .writing frame => [frame]

/-- `next` is the first line not yet read. `within` and `wronged` are ghosts:
the client has never had more than the maximum outstanding; the reader has
refused a fresh id, or a client that was within the maximum. -/
structure Connection where
  registry : Registry
  sent : List ClientLine
  next : Nat
  places : Nat → Place
  reader : ReaderPc
  writer : WriterPc
  output : List OutputFrame
  within : Bool
  wronged : Bool

def Connection.init (env : ConnectionEnv) : Connection where
  registry := .init env.config.maxActiveRequests
  sent := []
  next := 0
  places := fun _ => .unread
  reader := .reading
  writer := .idle
  output := []
  within := true
  wronged := false

/-- What the reader finds at one instant: whether its deadline overflows, the
scheduler's queue is full, `give_up` has passed. -/
structure ReaderLook where
  deadlineOverflows : Bool := false
  queueFull : Bool := false
  gaveUp : Bool := false

inductive ConnectionAction
  /-- The client writes a line. -/
  | send (text : String)
  /-- The reader takes the next line and decodes it. -/
  | read
  /-- The reader's next step with the line it has. -/
  | turn (look : ReaderLook)
  /-- `push` fails on what has been read. -/
  | badFrame (error : ProtocolError)
  /-- End of input, a read error or the shutdown flag. -/
  | close
  /-- A worker takes the job of line `i`; `program` is what the dispatcher does. -/
  | pick (i : Nat) (program : Dispatch Unit)
  | work (i : Nat) (look : Look)
  /-- The worker's guard goes out of scope. -/
  | release (i : Nat)
  /-- The writer takes a frame from the channel. -/
  | recv
  /-- The writer looks at the flag, and gives the frame up if it is set. -/
  | check
  /-- `writer.write` returns; `whole` says that nothing of the frame is left. -/
  | wrote (whole : Bool)
  | writeFails
  /-- Some call of `disconnect` gets to its sweep. -/
  | sweep

namespace ConnectionEnv

/-- The request that a line is, if it is one. -/
def request (env : ConnectionEnv) (text : String) : Option Request :=
  (decodeRequest env.serde text).toOption

def requestId (env : ConnectionEnv) (text : String) : Option String :=
  (env.request text).map Request.id

/-- A request that will ask for a place among the active ones. -/
def takesSlot (env : ConnectionEnv) (text : String) : Bool :=
  (env.request text).any fun request => request.method.name != "cancel"

/-- Sent and not yet terminated. -/
def outstanding (env : ConnectionEnv) (line : ClientLine) : Bool :=
  env.takesSlot line.text && !line.terminated

end ConnectionEnv

namespace Connection
variable (env : ConnectionEnv) (s : Connection)

def flag : Bool := s.registry.state.disconnected

def place (i : Nat) (place : Place) : Connection :=
  { s with places := Function.update s.places i place }

/-- `disconnect` up to its sweep. -/
def disconnect : Connection :=
  { s with registry := ⟨s.registry.state.markDisconnected, s.registry.sweeping + 1⟩ }

def withState (state : ConnectionState) : Connection :=
  { s with registry := { s.registry with state } }

def hasRoom : Bool := decide (s.output.length < env.config.outputChunks)

def push (frame : OutputFrame) : Connection := { s with output := s.output ++ [frame] }

/-! ## The client -/

/-- Every earlier request with the id of this line is terminated. -/
def freshNow (text : String) : Bool :=
  (env.requestId text).any fun id =>
    s.sent.all fun line => env.requestId line.text != some id || line.terminated

def send (text : String) : Connection :=
  let sent := s.sent ++ [{ text, fresh := s.freshNow env text, terminated := false }]
  { s with
    sent
    within := s.within &&
      decide (sent.countP env.outstanding ≤ env.config.maxActiveRequests) }

/-! ## The reader -/

/-- The reader refuses line `i` and will close the connection; `wrong` is for the ghost. -/
def refuse (i : Nat) (error : ProtocolError) (wrong : Bool) : Connection :=
  { s.place i .gone with reader := .rejecting error, wronged := s.wronged || wrong }

/-- `decode_request_with_active` and, for a request, what the reader does next. -/
def accept (i : Nat) (line : ClientLine) : Connection :=
  match decodeRequestWithActive env.serde line.text s.registry.state.isActive with
  | .error error => s.refuse i error (line.fresh && error.code == .duplicateRequestId)
  | .ok request =>
    match request.method with
    | .cancel params =>
      { s.place i .gone with reader := .cancelling i request.id params.requestId }
    | method =>
      match effectiveTimeoutMs method env.config.maxTimeoutMs with
      | .error error =>
        { s.place i .gone with reader := .replying i (.ofError (some request.id) 0 error) }
      | .ok _ => { s.place i .atReader with reader := .registering i request }

def read : Option Connection :=
  match s.reader, s.sent[s.next]? with
  | .reading, some line => some ({ s with next := s.next + 1 }.accept env s.next line)
  | _, _ => none

/-- `state.register` of the request of line `i`. -/
def register (i : Nat) (request : Request) (line : ClientLine) : Connection :=
  match s.registry.state.register request.id with
  | .error error => s.refuse i error ((line.fresh && error.code == .duplicateRequestId) ||
      (s.within && error.code == .limitExceeded))
  | .ok state =>
    { (s.withState state).place i (.admitting request.id) with reader := .preparing i request }

def turn (look : ReaderLook) : Option Connection :=
  match s.reader with
  | .reading | .stopped => none
  | .cancelling i id target => some
    { s.withState (s.registry.state.cancel target).2 with
      reader := .replying i (.ofResult id (cancelResult (s.registry.state.cancel target).1)) }
  | .registering i request => s.sent[i]?.map (s.register i request)
  | .preparing i request =>
    if look.deadlineOverflows then
      some { s with reader := .releasing i request.id deadlineOverflow }
    else some { s with reader := .submitting i request }
  | .submitting i request =>
    if look.queueFull then some { s with reader := .releasing i request.id queueFull }
    else some { s.place i (.queued request) with reader := .reading }
  | .releasing i id error =>
    some { (s.withState (s.registry.state.remove id)).place i .gone with
      reader := .replying i (.ofError (some id) 0 error) }
  | .replying i frame =>
    if s.hasRoom env then some { s.push ⟨frame, some i⟩ with reader := .reading }
    else if look.gaveUp then some { s with reader := .forcing }
    else some s
  | .rejecting error =>
    if s.hasRoom env then some { s.push ⟨.ofError none 0 error, none⟩ with reader := .forcing }
    else if look.gaveUp then some { s with reader := .forcing }
    else some s
  | .forcing => some { s.disconnect with reader := .closing }
  | .closing => some { s.disconnect with reader := .joining }
  | .joining => some { s.disconnect with reader := .stopped }

/-! ## The workers -/

def pick (i : Nat) (program : Dispatch Unit) : Option Connection :=
  match s.places i with
  | .queued request => some (s.place i (.running
      (.start request.id env.config.maxEncodedFrameBytes s.flag program)))
  | _ => none

/-- The frames that a step of the job has put into the channel. -/
def pushed (i : Nat) (job next : Job) : List OutputFrame :=
  (next.output.enqueued.drop job.output.enqueued.length).map fun frame => ⟨frame, some i⟩

/-- Whether a step of the job has called `disconnect`. -/
def hangsUp (job next : Job) : Bool :=
  match job.pc with
  | .ending _ => next.isDone && next.output.lifecycle != .terminal
  | _ => next.disconnected && !s.flag

/-- One step of the job, which sees its token and the connection's flag and
channel. -/
def work (i : Nat) (look : Look) : Option Connection :=
  match s.places i with
  | .running job =>
    let look := { look with
      cancelled := s.registry.state.isCancelled job.output.requestId
      hangup := s.flag
      channel := if s.hasRoom env then .room else .full }
    (job.step env.ser look).map fun next =>
      let s' := { s.place i (.running next) with output := s.output ++ pushed i job next }
      if s.hangsUp job next then s'.disconnect else s'
  | _ => none

def release (i : Nat) : Option Connection :=
  match s.places i with
  | .running job =>
    if job.isDone then
      some ((s.withState (s.registry.state.remove job.output.requestId)).place i .gone)
    else none
  | _ => none

/-! ## The writer -/

def recv : Option Connection :=
  match s.writer, s.output with
  | .idle, frame :: output => some { s with writer := .holding frame, output }
  | _, _ => none

def check : Option Connection :=
  match s.writer with
  | .holding frame => some { s with writer := if s.flag then .idle else .writing frame }
  | _ => none

/-- The client has got the frame. -/
def deliver (frame : OutputFrame) : Connection :=
  match frame.owner with
  | some i =>
    if frame.frame.isTerminal then
      { s with sent := s.sent.modify i ClientLine.terminate }
    else s
  | none => s

def wrote (whole : Bool) : Option Connection :=
  match s.writer with
  | .writing frame =>
    if whole then some { s.deliver frame with writer := .idle }
    else some { s with writer := .holding frame }
  | _ => none

/-- `disconnect`, and the frame is given up. -/
def writeFails : Option Connection :=
  match s.writer with
  | .writing _ => some { s.disconnect with writer := .idle }
  | _ => none

def step : ConnectionAction → Option Connection
  | .send text => some (s.send env text)
  | .read => s.read env
  | .turn look => s.turn env look
  | .badFrame error =>
    match s.reader with
    | .reading => some { s with reader := .rejecting error }
    | _ => none
  | .close =>
    match s.reader with
    | .reading => some { s with reader := .closing }
    | _ => none
  | .pick i program => s.pick env i program
  | .work i look => s.work env i look
  | .release i => s.release i
  | .recv => s.recv
  | .check => s.check
  | .wrote whole => s.wrote whole
  | .writeFails => s.writeFails
  | .sweep => (s.registry.step .sweep).map fun registry => { s with registry }

end Connection
end VcdTools.Server
