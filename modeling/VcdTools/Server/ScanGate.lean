import VcdTools.Lib.Leases
import VcdTools.Lib.Runs
import VcdTools.Server.DispatchInner

/-! # The scan permit among the workers

`ScanGate` of `server/runtime.rs` and the workers that run `dispatch_inner` over
it, each with the bounded output channel of its request's connection. The
workers, the writers and the clients move in any order. A worker is in the loop
of `send_frame` for as long as it takes; `blocked` there is what its
`BlockedOutputGuard` counts, that the channel has been found full. -/
namespace VcdTools.Server
open VcdTools.Lib Bracket Leases

structure ScanConfig where
  service : VcdService

namespace ScanConfig
variable (config : ScanConfig)

abbrev workers : Nat := config.service.runtime.workers

abbrev outputChunks : Nat := config.service.runtime.outputChunks

end ScanConfig

structure ScanRequest where
  id : String
  method : Requests.RequestMethod
  env : method.Env

inductive ScanPc
  /-- Before `job.context.check()?`. -/
  | entering (program : Gated Unit)
  | dispatching (program : Gated Unit)
  /-- In the loop of `ScanGate::acquire`. -/
  | acquiring (next : Except ProtocolError Unit → Gated Unit)
  /-- In the loop of `send_frame`. -/
  | sending (frame : ResponseFrame) (nextLifecycle : OutputLifecycle)
      (next : Except ProtocolError Unit → Gated Unit) (blocked : Bool)
  /-- After `catch_unwind`, with the error for `required_terminal`. -/
  | ending (error : ProtocolError)
  /-- In the loop of `required_terminal`. -/
  | terminating (frame : ResponseFrame)

/-- Waiting in `send_frame` for room in the channel. -/
def ScanPc.waitsForRoom : ScanPc → Bool
  | .sending _ _ _ blocked => blocked
  | _ => false

/-- `holds` says that the worker has a `ScanGuard`. -/
structure ScanWorker where
  connection : Nat
  request : ScanRequest
  output : OutputSink
  holds : Bool
  pc : ScanPc

structure ScanConnection where
  queue : List ResponseFrame
  disconnected : Bool

/-- `held` is the gate's own field; a worker that is `none` waits for a job. -/
structure ScanServer where
  held : Bool
  connections : Nat → ScanConnection
  workers : Nat → Option ScanWorker

def ScanServer.init : ScanServer where
  held := false
  connections := fun _ => ⟨[], false⟩
  workers := fun _ => none

inductive ScanAction
  /-- Worker `i` takes a job of connection `c`. -/
  | start (i c : Nat) (request : ScanRequest)
  /-- The next step of worker `i`, which sees its token, its deadline and
  whether `give_up` has passed. -/
  | turn (i : Nat) (look : Look)
  /-- The writer of connection `c` takes a frame. -/
  | drain (c : Nat)
  /-- Somebody marks connection `c` disconnected. -/
  | hangup (c : Nat)

namespace ScanServer
variable (config : ScanConfig) (s : ScanServer) (i : Nat) (w : ScanWorker)

def hasRoom (c : Nat) : Bool := decide ((s.connections c).queue.length < config.outputChunks)

def isDisconnected (c : Nat) : Bool := (s.connections c).disconnected

def put (w : Option ScanWorker) : ScanServer :=
  { s with workers := Function.update s.workers i w }

def goto (pc : ScanPc) : ScanServer := s.put i (some { w with pc })

def connect (c : Nat) (connection : ScanConnection) : ScanServer :=
  { s with connections := Function.update s.connections c connection }

/-- The worker has put a frame into its connection's channel. -/
def enqueue (frame : ResponseFrame) : ScanServer :=
  let connection := s.connections w.connection
  s.connect w.connection { connection with queue := connection.queue ++ [frame] }

def hangup (c : Nat) : ScanServer := s.connect c { s.connections c with disconnected := true }

def drain (c : Nat) : ScanServer :=
  s.connect c { s.connections c with queue := (s.connections c).queue.tail }

/-- The guard is made: the gate is held. -/
def take (pc : ScanPc) : ScanServer :=
  { s.put i (some { w with holds := true, pc }) with held := true }

/-- The guard is dropped. -/
def giveBack (pc : ScanPc) : ScanServer :=
  { s.put i (some { w with holds := false, pc }) with held := false }

def dispatchTurn : Gated Unit → ScanServer
  | .done (.ok ()) => s.goto i w (.ending noTerminalError)
  | .done (.error error) => s.goto i w (.ending error)
  | .panic => s.goto i w (.ending panicError)
  | .call .enter next => s.goto i w (.acquiring next)
  | .call .exit next => s.giveBack i w (.dispatching (next (.ok ())))
  | .call (.other frame) next =>
    match w.output.accept config.service.ser frame with
    | .error error => s.goto i w (.dispatching (next (.error error)))
    | .ok nextLifecycle => s.goto i w (.sending frame nextLifecycle next false)

/-- One turn of the loop of `ScanGate::acquire`. -/
def acquireTurn (next : Except ProtocolError Unit → Gated Unit) (look : Look) : ScanServer :=
  match requestCheck look with
  | .error error => s.goto i w (.dispatching (next (.error error)))
  | .ok () => if s.held then s else s.take i w (.dispatching (next (.ok ())))

/-- One turn of the loop of `send_frame`. -/
def sendTurn (frame : ResponseFrame) (nextLifecycle : OutputLifecycle)
    (next : Except ProtocolError Unit → Gated Unit) (look : Look) : ScanServer :=
  match requestCheck look with
  | .error error => s.goto i w (.dispatching (next (.error error)))
  | .ok () =>
    if s.isDisconnected w.connection then
      s.goto i w (.dispatching (next (.error connectionDisconnected)))
    else if s.hasRoom config w.connection then
      (s.enqueue w frame).put i (some { w with
        output := w.output.push frame nextLifecycle, pc := .dispatching (next (.ok ())) })
    else s.goto i w (.sending frame nextLifecycle next true)

/-- `required_terminal` up to its loop. -/
def requireTerminal (error : ProtocolError) : ScanServer :=
  match w.output.terminalFrame error with
  | none => s.put i none
  | some frame =>
    match w.output.encodeBounded config.service.ser frame with
    | .ok _ => s.goto i w (.terminating frame)
    | .error _ => (s.hangup w.connection).put i none

/-- One turn of the loop of `required_terminal`. -/
def terminalTurn (frame : ResponseFrame) (look : Look) : ScanServer :=
  if s.isDisconnected w.connection then s.put i none
  else if s.hasRoom config w.connection then (s.enqueue w frame).put i none
  else if look.gaveUp then (s.hangup w.connection).put i none
  else s

def turn (look : Look) : ScanServer :=
  match w.pc with
  | .entering program =>
    match requestCheck look with
    | .error error => s.goto i w (.ending error)
    | .ok () => s.goto i w (.dispatching program)
  | .dispatching program => s.dispatchTurn config i w program
  | .acquiring next => s.acquireTurn i w next look
  | .sending frame nextLifecycle next _ => s.sendTurn config i w frame nextLifecycle next look
  | .ending error => s.requireTerminal config i w error
  | .terminating frame => s.terminalTurn config i w frame look

/-- The worker as it starts with a job. -/
def job (c : Nat) (request : ScanRequest) : ScanWorker where
  connection := c
  request := request
  output := {
    requestId := request.id
    lifecycle := .notStarted
    maxEncodedFrameBytes := config.service.maxEncodedFrameBytes
    enqueued := [] }
  holds := false
  pc := .entering (config.service.dispatchInner request.id request.method request.env)

def step : ScanAction → Option ScanServer
  | .start i c request =>
    match s.workers i with
    | none => if i < config.workers then some (s.put i (some (job config c request))) else none
    | some _ => none
  | .turn i look => (s.workers i).map fun w => s.turn config i w look
  | .drain c => some (s.drain c)
  | .hangup c => some (s.hangup c)

end ScanServer
end VcdTools.Server
