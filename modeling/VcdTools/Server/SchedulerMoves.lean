import VcdTools.Lib.JobQueue
import VcdTools.Server.Scheduler

/-! # The moves of the scheduler

What one step of the scheduler, of its workers and of its connections can do,
with the conditions under which it does it, and what the queue, the workers and
the connections say about the jobs. -/
namespace VcdTools.Server
open VcdTools.Lib Requests

def Work.job? : Work → Option (Nat × Nat)
  | .job c i => some (c, i)
  | .stop => none

namespace WorkerThread

/-- The job that the worker has, as long as its guard holds the id. -/
def job? : WorkerThread → Option (Nat × Nat)
  | .taken c i | .uncounted c i | .serving c i => some (c, i)
  | .waiting | .released | .completing | .exited => none

/-- The job is off the queue and still in `queued`. -/
def isTaken : WorkerThread → Bool
  | .taken _ _ => true
  | _ => false

/-- The worker is in `active`. -/
def isActive : WorkerThread → Bool
  | .serving _ _ | .released => true
  | _ => false

def isExited : WorkerThread → Bool
  | .exited => true
  | _ => false

/-- Neither picking a job up nor completing one. -/
def isSettled : WorkerThread → Bool
  | .waiting | .serving _ _ | .exited => true
  | _ => false

end WorkerThread

/-- The submission is in `queued`. -/
def SubmitPc.counts : SubmitPc → Bool
  | .counted | .refused => true
  | .outside | .uncounted => false

/-- The `Stop`s that are still to be sent. -/
def SchedulerPhase.pending (workers : Nat) : SchedulerPhase → Nat
  | .running => workers
  | .stopping left => left
  | .joining | .dropped => 0

namespace Scheduler

def queuedJobs (s : Scheduler) : List (Nat × Nat) := s.queue.filterMap Work.job?

def claims (s : Scheduler) (w : Nat) : Option (Nat × Nat) :=
  s.workers[w]?.bind WorkerThread.job?

/-- One step, with what it found. -/
inductive Moved (config : SchedulerConfig) (s : Scheduler) :
    SchedulerAction → Scheduler → Prop
  | own {c served ledger action} (hserved : s.connections[c]? = some served)
      (hown : action.own served.ledger.connection.reader = true)
      (hledger : served.ledger.step config.env action = some ledger) :
      Moved config s (.connection c action) (s.setServed c { served with ledger })
  | count {c served i request} (hserved : s.connections[c]? = some served)
      (hreader : served.ledger.connection.reader = .submitting i request)
      (hsubmit : served.submit = .outside) :
      Moved config s (.submit c) { s.setServed c { served with submit := .counted } with
        queued := s.queued + 1 }
  | accept {c served i request ledger} (hserved : s.connections[c]? = some served)
      (hreader : served.ledger.connection.reader = .submitting i request)
      (hsubmit : served.submit = .counted) (hlive : s.allExited = false)
      (hledger : served.ledger.step config.env (.turn {}) = some ledger) :
      Moved config s (.submit c) { s.setServed c ⟨ledger, .outside⟩ with
        queue := s.queue ++ [.job c i], admitted := s.admitted ++ [(c, i)] }
  | full {c served i request} (hserved : s.connections[c]? = some served)
      (hreader : served.ledger.connection.reader = .submitting i request)
      (hsubmit : served.submit = .counted) :
      Moved config s (.submit c) (s.setServed c { served with submit := .refused })
  | uncount {c served i request} (hserved : s.connections[c]? = some served)
      (hreader : served.ledger.connection.reader = .submitting i request)
      (hsubmit : served.submit = .refused) :
      Moved config s (.submit c) { s.setServed c { served with submit := .uncounted } with
        queued := s.queued - 1 }
  | reject {c served i request ledger} (hserved : s.connections[c]? = some served)
      (hreader : served.ledger.connection.reader = .submitting i request)
      (hsubmit : served.submit = .uncounted)
      (hledger : served.ledger.step config.env (.turn { queueFull := true }) = some ledger) :
      Moved config s (.submit c) { s.setServed c ⟨ledger, .outside⟩ with
        rejected := s.rejected + 1 }
  | recvStop {w rest program} (hw : s.workers[w]? = some .waiting)
      (hqueue : s.queue = .stop :: rest) :
      Moved config s (.worker w program) { s.setWorker w .exited with queue := rest }
  | recvJob {w c i rest program} (hw : s.workers[w]? = some .waiting)
      (hqueue : s.queue = .job c i :: rest) :
      Moved config s (.worker w program) { s.setWorker w (.taken c i) with queue := rest }
  | untake {w c i program} (hw : s.workers[w]? = some (.taken c i)) :
      Moved config s (.worker w program) { s.setWorker w (.uncounted c i) with
        queued := s.queued - 1 }
  | start {w c i served ledger program} (hw : s.workers[w]? = some (.uncounted c i))
      (hserved : s.connections[c]? = some served)
      (hledger : served.ledger.step config.env (.pick i program) = some ledger) :
      Moved config s (.worker w program) {
        (s.setServed c { served with ledger }).setWorker w (.serving c i) with
        active := s.active + 1, executed := s.executed ++ [(c, i)] }
  | finish {w c i served ledger program} (hw : s.workers[w]? = some (.serving c i))
      (hserved : s.connections[c]? = some served)
      (hledger : served.ledger.step config.env (.release i) = some ledger) :
      Moved config s (.worker w program)
        ((s.setServed c { served with ledger }).setWorker w .released)
  | release {w program} (hw : s.workers[w]? = some .released) :
      Moved config s (.worker w program) { s.setWorker w .completing with
        active := s.active - 1 }
  | complete {w program} (hw : s.workers[w]? = some .completing) :
      Moved config s (.worker w program) { s.setWorker w .waiting with
        completed := s.completed + 1 }
  | unshare (hphase : s.phase = .running) (hunshared : s.unshared = true) :
      Moved config s .drop { s with phase := .stopping s.workers.length }
  | sendStop {left} (hphase : s.phase = .stopping (left + 1)) (hlive : s.allExited = false) :
      Moved config s .drop { s with phase := .stopping left, queue := s.queue ++ [.stop] }
  | loseStop {left} (hphase : s.phase = .stopping (left + 1)) (hexited : s.allExited = true) :
      Moved config s .drop { s with phase := .stopping left }
  | stopped (hphase : s.phase = .stopping 0) : Moved config s .drop { s with phase := .joining }
  | joined (hphase : s.phase = .joining) (hexited : s.allExited = true) :
      Moved config s .drop { s with phase := .dropped }

variable {config : SchedulerConfig} {s s' : Scheduler} {c w : Nat}

theorem submit_moved (h : s.submit config c = some s') : Moved config s (.submit c) s' := by
  obtain ⟨served, hserved, h⟩ := Option.bind_eq_some_iff.mp h
  split at h
  · rename_i i request hreader
    split at h
    · rename_i hsubmit
      cases h
      exact .count hserved hreader hsubmit
    · rename_i hsubmit
      split at h
      · rename_i hlive
        obtain ⟨ledger, hledger, h⟩ := Option.bind_eq_some_iff.mp h
        cases h
        refine .accept hserved hreader hsubmit ?_ hledger
        exact (Bool.not_eq_true' _).mp (Bool.and_eq_true_iff.mp hlive).1
      · cases h
        exact .full hserved hreader hsubmit
    · rename_i hsubmit
      cases h
      exact .uncount hserved hreader hsubmit
    · rename_i hsubmit
      obtain ⟨ledger, hledger, h⟩ := Option.bind_eq_some_iff.mp h
      cases h
      exact .reject hserved hreader hsubmit hledger
  · cases h

theorem worker_moved {program : Dispatch Unit} (h : s.worker config w program = some s') :
    Moved config s (.worker w program) s' := by
  obtain ⟨thread, hw, h⟩ := Option.bind_eq_some_iff.mp h
  cases thread with
  | waiting =>
    cases hqueue : s.queue with
    | nil =>
      simp only [hqueue] at h
      cases h
    | cons work rest =>
      cases work with
      | stop =>
        simp only [hqueue] at h
        cases h
        exact .recvStop hw hqueue
      | job c i =>
        simp only [hqueue] at h
        cases h
        exact .recvJob hw hqueue
  | taken c i =>
    cases h
    exact .untake hw
  | uncounted c i =>
    obtain ⟨t, ht, h⟩ := Option.bind_eq_some_iff.mp h
    obtain ⟨served, hserved, ht⟩ := Option.bind_eq_some_iff.mp ht
    obtain ⟨ledger, hledger, ht⟩ := Option.bind_eq_some_iff.mp ht
    cases ht
    cases h
    exact .start hw hserved hledger
  | serving c i =>
    obtain ⟨t, ht, h⟩ := Option.bind_eq_some_iff.mp h
    obtain ⟨served, hserved, ht⟩ := Option.bind_eq_some_iff.mp ht
    obtain ⟨ledger, hledger, ht⟩ := Option.bind_eq_some_iff.mp ht
    cases ht
    cases h
    exact .finish hw hserved hledger
  | released =>
    cases h
    exact .release hw
  | completing =>
    cases h
    exact .complete hw
  | exited => cases h

theorem drop_moved (h : s.drop config = some s') : Moved config s .drop s' := by
  rw [drop] at h
  split at h
  · rename_i hphase
    split at h
    · rename_i hunshared
      cases h
      exact .unshare hphase hunshared
    · cases h
  · rename_i hphase
    cases h
    exact .stopped hphase
  · rename_i left hphase
    split at h
    · rename_i hexited
      cases h
      exact .loseStop hphase hexited
    · rename_i hlive
      split at h
      · cases h
        exact .sendStop hphase (Bool.not_eq_true _ ▸ hlive)
      · cases h
  · rename_i hphase
    split at h
    · rename_i hexited
      cases h
      exact .joined hphase hexited
    · cases h
  · cases h

theorem step_moved {a : SchedulerAction} (h : s.step config a = some s') :
    Moved config s a s' := by
  cases a with
  | connection c action =>
    obtain ⟨served, hserved, h⟩ := Option.bind_eq_some_iff.mp h
    split at h
    · rename_i hown
      obtain ⟨ledger, hledger, h⟩ := Option.bind_eq_some_iff.mp h
      cases h
      exact .own hserved hown hledger
    · cases h
  | submit c => exact submit_moved h
  | worker w program => exact worker_moved h
  | drop => exact drop_moved h

end Scheduler
end VcdTools.Server
