import VcdTools.Lib.Pool
import VcdTools.Lib.Runs
import VcdTools.Server.ErrorFrames
import VcdTools.Server.Listener

/-! # The server

`run_server_with_dispatcher` of `server/app.rs` from the moment the listener is
bound, with the threads it spawns for the connections: the accept loop, the
limiter, the life of `serve_connection_with_shutdown` and the teardown. The
steps on what the threads share are those of the source, one by one, and come
in any order. What a connection does with a request is in `Connection`; here it
only matters how many jobs keep its output channel open. -/
namespace VcdTools.Server

/-- Where a connection thread is. `jobs` counts the clones of `output_tx` that
its jobs hold; `reports` is `false` in a thread that a panic unwinds. -/
inductive ConnectionThread
  /-- Before the stream is cloned and has its timeouts. -/
  | preparing
  /-- Before `connections.fetch_add`. -/
  | counting
  /-- In the read loop. -/
  | reading (jobs : Nat)
  /-- Before `state.disconnect` and the drop of `output_tx`. -/
  | closing (jobs : Nat)
  /-- In `writer_thread.join`. -/
  | joining (jobs : Nat)
  /-- In the drop of `ConnectionRunGuard`, before `connections.fetch_sub`. -/
  | uncounting (reports : Bool)
  /-- In the drop of `ConnectionPermit`, before `active.fetch_sub`. -/
  | releasing (reports : Bool)
  /-- Before the event hook. -/
  | reporting
  | finished (reported : Bool)
  deriving DecidableEq, Repr

namespace ConnectionThread

def holdsPermit : ConnectionThread → Bool
  | .reporting | .finished _ => false
  | _ => true

def holdsRunGuard : ConnectionThread → Bool
  | .reading _ | .closing _ | .joining _ | .uncounting _ => true
  | _ => false

/-- `JoinHandle::is_finished`. -/
def isFinished : ConnectionThread → Bool
  | .finished _ => true
  | _ => false

def hasReported : ConnectionThread → Bool
  | .finished reported => reported
  | _ => false

end ConnectionThread

inductive ServerEvent
  | connectionAccepted
  | connectionRejected
  | connectionFinished
  deriving DecidableEq, Repr

/-- Where the accept loop is. `result` is what it ends with. -/
inductive AppPc
  /-- Before `shutdown.load`. -/
  | checking
  /-- In `reap_finished`; `active` are the handles it keeps. -/
  | reaping (active : List Nat)
  /-- Before `accept_hook`. -/
  | hooking
  | accepting
  /-- With a stream, before `limiter.try_acquire`. -/
  | admitting
  /-- Before the event hook for a stream without a permit, which is then dropped. -/
  | rejecting
  /-- With a permit, before the event hook. -/
  | announcing
  | spawning
  /-- Before `shutdown.store`. -/
  | stopping (result : Except IoError Unit)
  /-- In the loop that joins the connections. -/
  | joining (result : Except IoError Unit)
  /-- Before `listener.cleanup`. -/
  | cleaning (result : Except IoError Unit)
  | returned (result : Except IoError Unit)
  /-- `thread::spawn` has panicked. -/
  | panicked

/-- `active` is that of the limiter and `counted` the `connections` of the
statistics; both are integers, so that one which fell below zero would show.
`threads` are all threads ever spawned and `handles` the vector `connections`,
by number. `joined`, `events` and `streams`, the count of streams accepted, are
history. -/
structure App where
  pc : AppPc
  shutdown : Bool
  active : Int
  counted : Int
  threads : List ConnectionThread
  handles : List Nat
  joined : List Nat
  events : List ServerEvent
  streams : Nat

/-- The server once its listener is bound; `shutdown` is the caller's flag. -/
def App.init (shutdown : Bool) : App where
  pc := .checking
  shutdown
  active := 0
  counted := 0
  threads := []
  handles := []
  joined := []
  events := []
  streams := 0

/-- What `accept` comes to. -/
inductive Accepted
  | stream
  | wouldBlock
  | failed (error : IoError)

/-- What the loop finds at one step: the answer of `accept_hook`, of `accept`,
whether the system has room for a thread, and how `cleanup` ends. -/
structure AppLook where
  hook : Except IoError Unit := .ok ()
  accept : Accepted := .wouldBlock
  spawns : Bool := true
  cleanup : Except IoError Unit := .ok ()

/-- What the next step of a connection thread comes to. -/
inductive ThreadLook
  /-- Whatever the thread has to do next, without an error. -/
  | next
  /-- `try_clone` or a timeout fails. -/
  | setupFails
  /-- A read times out; `disconnected` is the flag of the connection. -/
  | timedOut (disconnected : Bool)
  /-- A read brings data: so many jobs are submitted, and the loop goes on or ends. -/
  | data (admitted : Nat) (breaks : Bool)
  /-- The end of input, a reset or another error. -/
  | ended
  /-- A job of the connection is through and drops its `output_tx`. -/
  | jobDone
  | panics

inductive AppAction
  /-- The signal handler, or whoever else has the flag, sets it. -/
  | signal
  | loop (look : AppLook)
  | thread (i : Nat) (look : ThreadLook)

namespace App
variable (config : RuntimeConfig) (s : App)

def setThread (i : Nat) (thread : ConnectionThread) : App :=
  { s with threads := s.threads.set i thread }

/-- `is_finished` of the thread behind a handle. -/
def isFinished (i : Nat) : Bool := s.threads[i]?.any (·.isFinished)

/-- The next step of the accept loop, or of the teardown after it. -/
def loop (look : AppLook) : Option App :=
  match s.pc with
  | .checking =>
    if s.shutdown then some { s with pc := .stopping (.ok ()) }
    else some { s with pc := .reaping [] }
  | .reaping active =>
    match s.handles with
    | [] => some { s with pc := .hooking, handles := active }
    | i :: rest =>
      if s.isFinished i then some { s with handles := rest, joined := s.joined ++ [i] }
      else some { s with pc := .reaping (active ++ [i]), handles := rest }
  | .hooking =>
    match look.hook with
    | .error error => some { s with pc := .stopping (.error error) }
    | .ok () => some { s with pc := .accepting }
  | .accepting =>
    match look.accept with
    | .stream => some { s with pc := .admitting, streams := s.streams + 1 }
    | .wouldBlock => some { s with pc := .checking }
    | .failed error => some { s with pc := .stopping (.error error) }
  | .admitting =>
    if s.active < config.maxConnections then
      some { s with pc := .announcing, active := s.active + 1 }
    else some { s with pc := .rejecting }
  | .rejecting => some { s with pc := .checking, events := s.events ++ [.connectionRejected] }
  | .announcing => some { s with pc := .spawning, events := s.events ++ [.connectionAccepted] }
  | .spawning =>
    if look.spawns then
      some { s with
        pc := .checking
        threads := s.threads ++ [.preparing]
        handles := s.handles ++ [s.threads.length] }
    -- the closure is dropped, and the permit with it
    else some { s with pc := .panicked, active := s.active - 1 }
  | .stopping result => some { s with pc := .joining result, shutdown := true }
  | .joining result =>
    match s.handles with
    | [] => some { s with pc := .cleaning result }
    | i :: rest =>
      if s.isFinished i then some { s with handles := rest, joined := s.joined ++ [i] } else none
  | .cleaning result =>
    match result with
    | .error error => some { s with pc := .returned (.error error) }
    | .ok () => some { s with pc := .returned look.cleanup }
  | .returned _ | .panicked => none

/-- The next step of connection thread `i`. -/
def thread (i : Nat) (look : ThreadLook) : Option App :=
  match s.threads[i]?, look with
  | some .preparing, .next => some (s.setThread i .counting)
  | some .preparing, .setupFails => some (s.setThread i (.releasing true))
  | some .counting, .next => some { s.setThread i (.reading 0) with counted := s.counted + 1 }
  | some (.reading jobs), .timedOut disconnected =>
    if disconnected || s.shutdown then some (s.setThread i (.closing jobs)) else some s
  | some (.reading jobs), .data admitted breaks =>
    some (s.setThread i (if breaks then .closing (jobs + admitted) else .reading (jobs + admitted)))
  | some (.reading jobs), .ended => some (s.setThread i (.closing jobs))
  | some (.closing jobs), .next => some (s.setThread i (.joining jobs))
  | some (.joining 0), .next => some (s.setThread i (.uncounting true))
  | some (.reading (jobs + 1)), .jobDone => some (s.setThread i (.reading jobs))
  | some (.closing (jobs + 1)), .jobDone => some (s.setThread i (.closing jobs))
  | some (.joining (jobs + 1)), .jobDone => some (s.setThread i (.joining jobs))
  -- the writer thread is not joined by a thread that unwinds
  | some (.reading _), .panics | some (.closing _), .panics | some (.joining _), .panics =>
    some (s.setThread i (.uncounting false))
  | some (.uncounting reports), .next =>
    some { s.setThread i (.releasing reports) with counted := s.counted - 1 }
  | some (.releasing reports), .next =>
    some { s.setThread i (if reports then .reporting else .finished false) with
      active := s.active - 1 }
  | some .reporting, .next =>
    some { s.setThread i (.finished true) with events := s.events ++ [.connectionFinished] }
  | _, _ => none

def step : AppAction → Option App
  | .signal => some { s with shutdown := true }
  | .loop look => s.loop config look
  | .thread i look => s.thread i look

end App
end VcdTools.Server
