import VcdTools.Lib.Pool
import VcdTools.Server.Ledger

/-! # The scheduler and its connections

`Scheduler` and `worker_loop` of `server/runtime.rs`, between the readers of
the connections that submit jobs and the workers that take them from one bounded
queue. The steps on the registries, the queue and the counters are those of the
source, one by one, and come in any order. -/
namespace VcdTools.Server
open VcdTools.Lib Requests

/-- `RuntimeConfig::validate` refuses no workers and no queue. -/
structure SchedulerConfig where
  connections : Nat
  workers : Nat
  queueDepth : Nat
  env : ConnectionEnv
  workers_pos : 0 < workers
  queueDepth_pos : 0 < queueDepth

/-- The job of line `i` of connection `c`, or the order to stop. -/
inductive Work
  | job (c i : Nat)
  | stop
  deriving DecidableEq, Repr

/-- Where the reader is in `Scheduler::submit`. -/
inductive SubmitPc
  | outside
  /-- Before `try_send`. -/
  | counted
  /-- Before `queued.fetch_sub`. -/
  | refused
  /-- Before `rejected.fetch_add`. -/
  | uncounted
  deriving DecidableEq, Repr

structure Served where
  ledger : Ledger
  submit : SubmitPc

/-- Where a worker is in `worker_loop`. -/
inductive WorkerThread
  /-- In `recv`. -/
  | waiting
  /-- Before `queued.fetch_sub`. -/
  | taken (c i : Nat)
  /-- Before `active.fetch_add`. -/
  | uncounted (c i : Nat)
  /-- With the guard of the job. -/
  | serving (c i : Nat)
  /-- In the guard's drop, before `active.fetch_sub`. -/
  | released
  /-- Before `completed.fetch_add`. -/
  | completing
  | exited
  deriving DecidableEq, Repr

/-- `Drop for Scheduler`: `stopping` has so many `Stop`s still to send,
`joining` waits for the workers. -/
inductive SchedulerPhase
  | running
  | stopping (left : Nat)
  | joining
  | dropped
  deriving DecidableEq, Repr

/-- The counters are integers, so that one which fell below zero would show.
`admitted` and `executed` are the history of the jobs that came into the queue
and of those that a worker started. -/
structure Scheduler where
  phase : SchedulerPhase
  queue : List Work
  workers : List WorkerThread
  queued : Int
  active : Int
  completed : Int
  rejected : Int
  connections : List Served
  admitted : List (Nat × Nat)
  executed : List (Nat × Nat)

def Scheduler.init (config : SchedulerConfig) : Scheduler where
  phase := .running
  queue := []
  workers := List.replicate config.workers .waiting
  queued := 0
  active := 0
  completed := 0
  rejected := 0
  connections := List.replicate config.connections ⟨.init config.env, .outside⟩
  admitted := []
  executed := []

inductive SchedulerAction
  /-- A step of a connection that the scheduler has no part in. -/
  | connection (c : Nat) (action : ConnectionAction)
  /-- The next step of `submit` by the reader of connection `c`. -/
  | submit (c : Nat)
  /-- The next step of worker `w` but for the dispatch; `program` is what the
  dispatcher does with a job that it starts. -/
  | worker (w : Nat) (program : Dispatch Unit)
  /-- The next step of the thread that drops the scheduler. -/
  | drop

/-- The scheduler has no part in the action. -/
def ConnectionAction.own (reader : ReaderPc) : ConnectionAction → Bool
  | .turn _ =>
    match reader with
    | .submitting _ _ => false
    | _ => true
  | .pick _ _ | .release _ => false
  | _ => true

def ReaderPc.isStopped : ReaderPc → Bool
  | .stopped => true
  | _ => false

namespace Scheduler
variable (config : SchedulerConfig) (s : Scheduler)

def setServed (c : Nat) (served : Served) : Scheduler :=
  { s with connections := s.connections.set c served }

def setWorker (w : Nat) (thread : WorkerThread) : Scheduler :=
  { s with workers := s.workers.set w thread }

def allExited : Bool := s.workers.all (· == .exited)

def hasRoom : Bool := decide (s.queue.length < config.queueDepth)

/-- A step of the connection's own threads. -/
def connection (c : Nat) (action : ConnectionAction) : Option Scheduler := do
  let served ← s.connections[c]?
  if action.own served.ledger.connection.reader then
    let ledger ← served.ledger.step config.env action
    return s.setServed c { served with ledger }
  else none

/-- `Scheduler::submit`, and what the reader finds after it. -/
def submit (c : Nat) : Option Scheduler := do
  let served ← s.connections[c]?
  match served.ledger.connection.reader with
  | .submitting i _ =>
    match served.submit with
    | .outside => return { s.setServed c { served with submit := .counted } with
        queued := s.queued + 1 }
    | .counted =>
      if !s.allExited && s.hasRoom config then
        let ledger ← served.ledger.step config.env (.turn {})
        return { s.setServed c ⟨ledger, .outside⟩ with
          queue := s.queue ++ [.job c i], admitted := s.admitted ++ [(c, i)] }
      else return s.setServed c { served with submit := .refused }
    | .refused => return { s.setServed c { served with submit := .uncounted } with
        queued := s.queued - 1 }
    | .uncounted =>
      let ledger ← served.ledger.step config.env (.turn { queueFull := true })
      return { s.setServed c ⟨ledger, .outside⟩ with rejected := s.rejected + 1 }
  | _ => none

/-- A worker's step with its job on the connection. -/
def onConnection (c : Nat) (action : ConnectionAction) : Option Scheduler := do
  let served ← s.connections[c]?
  let ledger ← served.ledger.step config.env action
  return s.setServed c { served with ledger }

def worker (w : Nat) (program : Dispatch Unit) : Option Scheduler := do
  match ← s.workers[w]? with
  | .waiting =>
    match s.queue with
    | [] => none
    | .stop :: rest => return { s.setWorker w .exited with queue := rest }
    | .job c i :: rest => return { s.setWorker w (.taken c i) with queue := rest }
  | .taken c i => return { s.setWorker w (.uncounted c i) with queued := s.queued - 1 }
  | .uncounted c i =>
    let s ← s.onConnection config c (.pick i program)
    return { s.setWorker w (.serving c i) with
      active := s.active + 1, executed := s.executed ++ [(c, i)] }
  | .serving c i =>
    let s ← s.onConnection config c (.release i)
    return s.setWorker w .released
  | .released => return { s.setWorker w .completing with active := s.active - 1 }
  | .completing => return { s.setWorker w .waiting with completed := s.completed + 1 }
  | .exited => none

/-- Every connection has returned, and with it its share of the scheduler. -/
def unshared : Bool := s.connections.all fun served => served.ledger.connection.reader.isStopped

def drop : Option Scheduler :=
  match s.phase with
  | .running => if s.unshared then some { s with phase := .stopping s.workers.length } else none
  | .stopping 0 => some { s with phase := .joining }
  | .stopping (left + 1) =>
    if s.allExited then some { s with phase := .stopping left }
    else if s.hasRoom config then
      some { s with phase := .stopping left, queue := s.queue ++ [.stop] }
    else none
  | .joining => if s.allExited then some { s with phase := .dropped } else none
  | .dropped => none

def step : SchedulerAction → Option Scheduler
  | .connection c action => s.connection config c action
  | .submit c => s.submit config c
  | .worker w program => s.worker config w program
  | .drop => s.drop config

end Scheduler
end VcdTools.Server
