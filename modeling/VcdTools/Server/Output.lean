import VcdTools.Lib.Proc
import VcdTools.Server.Protocol

/-! # The output sink and one worker's job

`OutputSink` and the body of `worker_loop` of `server/runtime.rs`. A job steps
once for each look the worker takes at its surroundings: the request's token
and deadline, the connection's flag, the output channel, the clock. Any look
may follow any other, but the connection's flag is never cleared. A dispatcher
is a program that calls `send_frame` with frames of its choice. -/
namespace VcdTools.Server
open VcdTools.Lib

def u32Max : Nat := 2 ^ 32 - 1

inductive OutputLifecycle
  | notStarted
  | streaming (nextSeq : Nat)
  | terminal
  deriving DecidableEq, Repr

/-- `enqueued` is every frame the channel has accepted from this sink. -/
structure OutputSink where
  requestId : String
  lifecycle : OutputLifecycle
  maxEncodedFrameBytes : Nat
  enqueued : List ResponseFrame

inductive Channel
  | room | full | closed
  deriving DecidableEq, Repr

/-- What the worker sees at one instant. `hangup` says that somebody marked
the connection disconnected since the last look, `gaveUp` that `give_up` has
passed. -/
structure Look where
  cancelled : Bool := false
  expired : Bool := false
  hangup : Bool := false
  channel : Channel := .room
  gaveUp : Bool := false
  deriving DecidableEq, Repr

def queryCancelled : ProtocolError := .new .cancelled "query cancelled" (Json.object []) false

def queryDeadlineExceeded : ProtocolError :=
  .new .deadlineExceeded "query deadline exceeded" (Json.object []) true

/-- `RequestContext::check`. -/
def requestCheck (look : Look) : Except ProtocolError Unit :=
  if look.cancelled then .error queryCancelled
  else if look.expired then .error queryDeadlineExceeded
  else .ok ()

def connectionDisconnected : ProtocolError :=
  .new .cancelled "connection disconnected" (Json.object []) false

def protocolLifecycleError (message : String) : ProtocolError :=
  .new .internal message (Json.object []) false

def OutputSink.validateFrame (output : OutputSink) (frame : ResponseFrame) :
    Except ProtocolError OutputLifecycle :=
  let violation := protocolLifecycleError "response frame violates request lifecycle or sequence"
  match output.lifecycle, frame with
  | .notStarted, .result f =>
    if f.id = output.requestId ∧ f.seq = 0 then .ok .terminal else .error violation
  | .notStarted, .error f =>
    if f.id = some output.requestId ∧ f.seq = 0 then .ok .terminal else .error violation
  | .notStarted, .begin f =>
    if f.id = output.requestId ∧ f.seq = 0 then .ok (.streaming 1) else .error violation
  | .streaming nextSeq, .chunk f =>
    if f.id = output.requestId ∧ f.seq = nextSeq then
      if nextSeq < u32Max then .ok (.streaming (nextSeq + 1))
      else .error (protocolLifecycleError "response sequence overflow")
    else .error violation
  | .streaming nextSeq, .end_ f =>
    if f.id = output.requestId ∧ f.seq = nextSeq then .ok .terminal else .error violation
  | .terminal, _ => .error (protocolLifecycleError "response already terminated")
  | _, _ => .error violation

structure CappedJsonLineWriter where
  bytes : List Char
  payloadCap : Nat
  exceeded : Bool
  attempted : Nat

def CappedJsonLineWriter.new (maxEncodedFrameBytes : Nat) : CappedJsonLineWriter where
  bytes := []
  payloadCap := maxEncodedFrameBytes - 1
  exceeded := false
  attempted := 0

def CappedJsonLineWriter.write (writer : CappedJsonLineWriter) (buffer : List Char) :
    CappedJsonLineWriter × Bool :=
  let attempted := saturatingAdd (Json.bytes writer.bytes) (Json.bytes buffer)
  let writer := { writer with attempted := max writer.attempted attempted }
  if attempted > writer.payloadCap then ({ writer with exceeded := true }, false)
  else ({ writer with bytes := writer.bytes ++ buffer }, true)

/-- `encode_bounded`: the frame's line, or the error of a frame over the limit. -/
def OutputSink.encodeBounded (ser : Json.Serializer) (output : OutputSink)
    (frame : ResponseFrame) : Except ProtocolError (List Char) :=
  match Json.writeAll CappedJsonLineWriter.write (.new output.maxEncodedFrameBytes)
      (ser.pieces frame.toJson) with
  | (writer, true) => .ok (writer.bytes ++ ['\n'])
  | (writer, false) => .error (.new .limitExceeded
      "encoded response frame exceeds configured byte limit"
      (Json.object [("kind", .str "encoded_frame_bytes"),
        ("limit", .str (Nat.repr output.maxEncodedFrameBytes)),
        ("actual", .str (Nat.repr (saturatingAdd writer.attempted 1)))]) false)

/-- What the first lines of `send_frame` decide: the lifecycle after the frame,
or its rejection. -/
def OutputSink.accept (ser : Json.Serializer) (output : OutputSink) (frame : ResponseFrame) :
    Except ProtocolError OutputLifecycle := do
  let nextLifecycle ← output.validateFrame frame
  let _ ← output.encodeBounded ser frame
  return nextLifecycle

def OutputSink.push (output : OutputSink) (frame : ResponseFrame)
    (lifecycle : OutputLifecycle) : OutputSink :=
  { output with lifecycle, enqueued := output.enqueued ++ [frame] }

/-- A dispatcher's behaviour on one request. -/
abbrev Dispatch (α : Type) := Proc ResponseFrame (Except ProtocolError Unit) ProtocolError α

inductive WorkerPc
  /-- Before `job.context.check()?`. -/
  | entering (program : Dispatch Unit)
  | dispatching (program : Dispatch Unit)
  /-- In the loop of `send_frame`. -/
  | sending (frame : ResponseFrame) (nextLifecycle : OutputLifecycle)
      (next : Except ProtocolError Unit → Dispatch Unit)
  /-- After `catch_unwind`, with the error for `required_terminal`. -/
  | ending (error : ProtocolError)
  /-- In the loop of `required_terminal`. -/
  | terminating (frame : ResponseFrame)
  | done

/-- `disconnected` is the connection's flag. -/
structure Job where
  output : OutputSink
  disconnected : Bool
  pc : WorkerPc

def Job.start (id : String) (maxEncodedFrameBytes : Nat) (disconnected : Bool)
    (program : Dispatch Unit) : Job where
  output := { requestId := id, lifecycle := .notStarted, maxEncodedFrameBytes, enqueued := [] }
  disconnected := disconnected
  pc := .entering program

/-- One turn of the loop of `send_frame`. -/
def OutputSink.sendTurn (output : OutputSink) (disconnected : Bool) (frame : ResponseFrame)
    (nextLifecycle : OutputLifecycle) (next : Except ProtocolError Unit → Dispatch Unit)
    (look : Look) : Job :=
  match requestCheck look with
  | .error error => ⟨output, disconnected, .dispatching (next (.error error))⟩
  | .ok () =>
    if disconnected then
      ⟨output, disconnected, .dispatching (next (.error connectionDisconnected))⟩
    else match look.channel with
      | .room => ⟨output.push frame nextLifecycle, disconnected, .dispatching (next (.ok ()))⟩
      | .full => ⟨output, disconnected, .sending frame nextLifecycle next⟩
      | .closed => ⟨output, true, .dispatching (next (.error connectionDisconnected))⟩

def panicError : ProtocolError := .new .internal "internal server error" (Json.object []) false

def noTerminalError : ProtocolError :=
  .new .internal "dispatcher returned without a terminal response" (Json.object []) false

/-- What `catch_unwind` hands to the `match` after it; `ensure_terminal` is
`required_terminal` with an error of its own. -/
def afterDispatch : Except ProtocolError Unit → WorkerPc
  | .ok () => .ending noTerminalError
  | .error error => .ending error

/-- The frame `required_terminal` sends; `none` when the response has ended. -/
def OutputSink.terminalFrame (output : OutputSink) (error : ProtocolError) :
    Option ResponseFrame :=
  match output.lifecycle with
  | .notStarted => some (.ofError (some output.requestId) 0 error)
  | .streaming nextSeq => some (.endError output.requestId nextSeq error)
  | .terminal => none

/-- `required_terminal` up to its loop. -/
def OutputSink.requireTerminal (ser : Json.Serializer) (output : OutputSink)
    (disconnected : Bool) (error : ProtocolError) : Job :=
  match output.terminalFrame error with
  | none => ⟨output, disconnected, .done⟩
  | some frame =>
    match output.encodeBounded ser frame with
    | .ok _ => ⟨output, disconnected, .terminating frame⟩
    | .error _ => ⟨output, true, .done⟩

/-- One turn of the loop of `required_terminal`. -/
def OutputSink.terminalTurn (output : OutputSink) (disconnected : Bool) (frame : ResponseFrame)
    (look : Look) : Job :=
  if disconnected then ⟨output, disconnected, .done⟩
  else match look.channel with
    | .room => ⟨output.push frame .terminal, disconnected, .done⟩
    | .full =>
      if look.gaveUp then ⟨output, true, .done⟩ else ⟨output, disconnected, .terminating frame⟩
    | .closed => ⟨output, true, .done⟩

def OutputSink.dispatchTurn (ser : Json.Serializer) (output : OutputSink) (disconnected : Bool) :
    Dispatch Unit → Job
  | .done result => ⟨output, disconnected, afterDispatch result⟩
  | .panic => ⟨output, disconnected, .ending panicError⟩
  | .call frame next =>
    match output.accept ser frame with
    | .error error => ⟨output, disconnected, .dispatching (next (.error error))⟩
    | .ok nextLifecycle => ⟨output, disconnected, .sending frame nextLifecycle next⟩

/-- The worker's next step; `none` when it is done with the job. -/
def Job.step (ser : Json.Serializer) (job : Job) (look : Look) : Option Job :=
  let output := job.output
  let disconnected := job.disconnected || look.hangup
  match job.pc with
  | .entering program => some ⟨output, disconnected, match requestCheck look with
    | .error error => .ending error
    | .ok () => .dispatching program⟩
  | .dispatching program => some (output.dispatchTurn ser disconnected program)
  | .sending frame nextLifecycle next =>
    some (output.sendTurn disconnected frame nextLifecycle next look)
  | .ending error => some (output.requireTerminal ser disconnected error)
  | .terminating frame => some (output.terminalTurn disconnected frame look)
  | .done => none

/-- `send_frame` as a whole: what it may return and what it leaves behind. -/
inductive SendFrame (ser : Json.Serializer) (output : OutputSink) (frame : ResponseFrame) :
    Except ProtocolError Unit → OutputSink → Prop
  | rejected {error} : output.accept ser frame = .error error →
      SendFrame ser output frame (.error error) output
  | refused {nextLifecycle error} : output.accept ser frame = .ok nextLifecycle →
      error ∈ [queryCancelled, queryDeadlineExceeded, connectionDisconnected] →
      SendFrame ser output frame (.error error) output
  | enqueued {nextLifecycle} : output.accept ser frame = .ok nextLifecycle →
      SendFrame ser output frame (.ok ()) (output.push frame nextLifecycle)

end VcdTools.Server
