import Mathlib.Data.Set.Card
import VcdTools.Server.SchedulerInvariant

/-! # What the counters and the `Stop`s say

`queued` counts the jobs of the queue and those of the readers and workers that
are between it and the counter; `active` counts the workers that hold a guard.
There are as many `Stop`s to send, in the queue or taken as there are workers,
and they come after all the jobs. -/
namespace VcdTools.Server
open VcdTools.Lib Requests JobQueue

namespace Scheduler
variable {config : SchedulerConfig} {s s' : Scheduler} {c i w : Nat} {served served' : Served}
  {thread thread' : WorkerThread} {job : Nat × Nat}

/-! ## The counters -/

def submitting (s : Scheduler) : Nat := s.connections.countP fun served => served.submit.counts

structure Counted (s : Scheduler) : Prop where
  queued : s.queued =
    s.queuedJobs.length + s.workers.countP WorkerThread.isTaken + s.submitting
  active : s.active = s.workers.countP WorkerThread.isActive

theorem counted_init (config : SchedulerConfig) : Counted (.init config) := by
  constructor
  · simp [init, queuedJobs, submitting, List.countP_replicate, WorkerThread.isTaken,
      SubmitPc.counts]
  · simp [init, List.countP_replicate, WorkerThread.isActive]

/-- A reader takes its submission in or out of the count, and a job to the queue. -/
theorem Counted.connection (hc : Counted s) (served' : Served)
    (h : s.connections[c]? = some served)
    (hconnections : s'.connections = s.connections.set c served')
    (hworkers : s'.workers = s.workers) (hactive : s'.active = s.active)
    (hqueued : s'.queued + s.queuedJobs.length + served.submit.counts.toNat =
      s.queued + s'.queuedJobs.length + served'.submit.counts.toNat) : Counted s' := by
  have hset : (s.connections.set c served').countP (fun served => served.submit.counts) +
      served.submit.counts.toNat = s.submitting + served'.submit.counts.toNat :=
    Pool.countP_set_toNat (fun served : Served => served.submit.counts) h served'
  have hbefore := hc.queued
  constructor
  · rw [hworkers, submitting, hconnections]
    omega
  · rw [hactive, hworkers]
    exact hc.active

/-- A worker goes on, with its counts. -/
theorem Counted.worker (hc : Counted s) (thread' : WorkerThread)
    (hw : s.workers[w]? = some thread) (hworkers : s'.workers = s.workers.set w thread')
    (hsubmitting : s'.submitting = s.submitting)
    (hqueued : s'.queued + s.queuedJobs.length + thread.isTaken.toNat =
      s.queued + s'.queuedJobs.length + thread'.isTaken.toNat)
    (hactive : s'.active + thread.isActive.toNat = s.active + thread'.isActive.toNat) :
    Counted s' := by
  have htaken := Pool.countP_set_toNat WorkerThread.isTaken hw thread'
  have hserving := Pool.countP_set_toNat WorkerThread.isActive hw thread'
  have hbefore := hc.queued
  have hbefore' := hc.active
  constructor
  · rw [hworkers, hsubmitting]
    omega
  · rw [hworkers]
    omega

theorem queuedJobs_job (c i : Nat) :
    ((s.queue ++ [Work.job c i]).filterMap Work.job?).length = s.queuedJobs.length + 1 := by
  rw [List.filterMap_append, List.length_append]
  rfl

theorem submitting_same (hserved : s.connections[c]? = some served)
    (hsubmit : served'.submit = served.submit) :
    (s.setServed c served').submitting = s.submitting := by
  have hset := Pool.countP_set_toNat (fun served : Served => served.submit.counts) hserved served'
  simp only [hsubmit] at hset
  exact Nat.add_right_cancel hset

/-- **The counters keep up with every step.** -/
theorem Counted.moved (hc : Counted s) {a : SchedulerAction} (h : Moved config s a s') : Counted s' := by
  cases h with
  | own hserved => exact hc.connection _ hserved rfl rfl rfl rfl
  | count hserved _ hsubmit =>
    refine hc.connection _ hserved rfl rfl rfl ?_
    rw [hsubmit]
    show s.queued + 1 + s.queuedJobs.length + 0 = s.queued + s.queuedJobs.length + 1
    omega
  | accept hserved _ hsubmit =>
    refine hc.connection _ hserved rfl rfl rfl ?_
    have hjobs := queuedJobs_job (s := s)
    rw [hsubmit]
    show s.queued + s.queuedJobs.length + 1 = s.queued +
      ((s.queue ++ [Work.job _ _]).filterMap Work.job?).length + 0
    rw [hjobs]
    omega
  | full hserved _ hsubmit =>
    refine hc.connection _ hserved rfl rfl rfl ?_
    rw [hsubmit]
    rfl
  | uncount hserved _ hsubmit =>
    refine hc.connection _ hserved rfl rfl rfl ?_
    rw [hsubmit]
    show s.queued - 1 + s.queuedJobs.length + 1 = s.queued + s.queuedJobs.length + 0
    omega
  | reject hserved _ hsubmit =>
    refine hc.connection _ hserved rfl rfl rfl ?_
    rw [hsubmit]
    rfl
  | recvStop hw hqueue =>
    refine hc.worker _ hw rfl rfl ?_ rfl
    rw [queuedJobs, hqueue]
    rfl
  | @recvJob w c i rest _ hw hqueue =>
    refine hc.worker _ hw rfl rfl ?_ rfl
    have hjobs : s.queuedJobs.length = (rest.filterMap Work.job?).length + 1 := by
      rw [queuedJobs, hqueue]
      rfl
    rw [hjobs]
    show s.queued + ((rest.filterMap Work.job?).length + 1 : Nat) + 0 =
      s.queued + (rest.filterMap Work.job?).length + 1
    omega
  | untake hw =>
    refine hc.worker _ hw rfl rfl ?_ rfl
    show s.queued - 1 + s.queuedJobs.length + 1 = s.queued + s.queuedJobs.length + 0
    omega
  | start hw hserved =>
    refine hc.worker _ hw rfl (submitting_same hserved rfl) rfl ?_
    show s.active + 1 + 0 = s.active + 1
    omega
  | finish hw hserved => exact hc.worker _ hw rfl (submitting_same hserved rfl) rfl rfl
  | release hw =>
    refine hc.worker _ hw rfl rfl rfl ?_
    show s.active - 1 + 1 = s.active + 0
    omega
  | complete hw => exact hc.worker _ hw rfl rfl rfl rfl
  | unshare | loseStop | stopped | joined => exact ⟨hc.queued, hc.active⟩
  | sendStop =>
    have hqueued := hc.queued
    rw [← queuedJobs_stop] at hqueued
    exact ⟨hqueued, hc.active⟩

/-! ## The order to stop -/

structure Stops (config : SchedulerConfig) (s : Scheduler) : Prop where
  workers : s.workers.length = config.workers
  /-- Every worker gets one `Stop`. -/
  sum : s.phase.pending s.workers.length + s.queue.count .stop +
    s.workers.countP WorkerThread.isExited = s.workers.length
  last : s.queue.Pairwise fun a b => a = .stop → b = .stop
  drained : ∀ {w : Nat}, s.workers[w]? = some .exited → s.queuedJobs = []
  unshared : s.phase ≠ .running → ∀ {c : Nat} {served : Served},
    s.connections[c]? = some served → served.ledger.connection.reader = .stopped
  joined : s.phase = .dropped → s.workers.countP WorkerThread.isExited = s.workers.length

theorem stops_init (config : SchedulerConfig) : Stops config (.init config) where
  workers := List.length_replicate
  sum := by
    simp [init, SchedulerPhase.pending, List.countP_replicate, WorkerThread.isExited]
  last := .nil
  drained := fun h => (by cases List.eq_of_mem_replicate (List.mem_of_getElem? h))
  unshared := fun h => absurd rfl h
  joined := fun h => (by cases h)

theorem allExited_iff :
    s.allExited = true ↔ s.workers.countP WorkerThread.isExited = s.workers.length := by
  rw [List.countP_eq_length, allExited, List.all_eq_true]
  refine forall₂_congr fun thread _ => ?_
  cases thread with
  | exited => exact iff_of_true (by decide) rfl
  | taken | uncounted | serving =>
    exact iff_of_false (fun h => by cases eq_of_beq h) Bool.false_ne_true
  | waiting | released | completing => exact iff_of_false (by decide) Bool.false_ne_true

/-- A reader that submits keeps the scheduler from stopping. -/
theorem Stops.running (hs : Stops config s) {request : Request}
    (hserved : s.connections[c]? = some served)
    (hreader : served.ledger.connection.reader = .submitting i request) : s.phase = .running := by
  by_contra hphase
  cases hreader.symm.trans (hs.unshared hphase hserved)

/-- Before the scheduler stops there is no `Stop` and every worker is there. -/
theorem Stops.before (hs : Stops config s) (hphase : s.phase = .running) :
    Work.stop ∉ s.queue ∧ ∀ w : Nat, s.workers[w]? ≠ some .exited := by
  have hsum := hs.sum
  rw [hphase, SchedulerPhase.pending] at hsum
  refine ⟨fun hmem => ?_, fun w hw => ?_⟩
  · have hpos := List.count_pos_iff.mpr hmem
    omega
  · have hpos := Pool.countP_pos_of_get (p := WorkerThread.isExited) hw rfl
    omega

/-- After a `Stop` the queue holds nothing else. -/
theorem Stops.rest_jobs (hs : Stops config s) {rest : List Work} (hqueue : s.queue = .stop :: rest) :
    rest.filterMap Work.job? = [] := by
  have hlast := hs.last
  rw [hqueue, List.pairwise_cons] at hlast
  rw [List.filterMap_eq_nil_iff]
  intro work hmem
  rw [hlast.1 work hmem rfl]
  rfl

/-- A connection moves, but not a reader that has stopped. -/
theorem Stops.connection (hs : Stops config s) (served' : Served)
    (hserved : s.connections[c]? = some served)
    (hreader : served.ledger.connection.reader = .stopped →
      served'.ledger.connection.reader = .stopped) :
    Stops config (s.setServed c served') where
  workers := hs.workers
  sum := hs.sum
  last := hs.last
  drained := hs.drained
  unshared := fun hphase {d other} hother => by
    rcases Pool.get_set hother with ⟨_, rfl⟩ | ⟨_, hother⟩
    · exact hreader (hs.unshared hphase hserved)
    · exact hs.unshared hphase hother
  joined := hs.joined

/-- A worker goes on, and does not exit. -/
theorem Stops.worker (hs : Stops config s) (thread' : WorkerThread)
    (hw : s.workers[w]? = some thread) (hbefore : thread.isExited = false)
    (hafter : thread'.isExited = false) : Stops config (s.setWorker w thread') where
  workers := (List.length_set ..).trans hs.workers
  sum := by
    have hset := Pool.countP_set_toNat WorkerThread.isExited hw thread'
    have hsum := hs.sum
    rw [hbefore, hafter] at hset
    simp only [setWorker, List.length_set]
    omega
  last := hs.last
  drained := fun {v} hv => by
    rcases Pool.get_set hv with ⟨_, rfl⟩ | ⟨_, hv⟩
    · cases hafter
    · exact hs.drained hv
  unshared := hs.unshared
  joined := fun hphase => by
    have hset := Pool.countP_set_toNat WorkerThread.isExited hw thread'
    have hjoined := hs.joined hphase
    rw [hbefore, hafter] at hset
    simp only [setWorker, List.length_set]
    omega

theorem Stops.accept (hs : Stops config s) {ledger : Ledger} {request : Request}
    (hserved : s.connections[c]? = some served)
    (hreader : served.ledger.connection.reader = .submitting i request) :
    Stops config { s.setServed c ⟨ledger, .outside⟩ with
      queue := s.queue ++ [.job c i], admitted := s.admitted ++ [(c, i)] } := by
  obtain ⟨hnone, hworking⟩ := hs.before (hs.running hserved hreader)
  constructor
  · exact hs.workers
  · have hsum := hs.sum
    show _ + (s.queue ++ [Work.job c i]).count .stop + _ = _
    rw [List.count_append, show [Work.job c i].count .stop = 0 from rfl]
    exact hsum
  · rw [List.pairwise_append]
    refine ⟨hs.last, List.pairwise_singleton .., fun a ha b _ hstop => ?_⟩
    exact absurd (hstop ▸ ha) hnone
  · intro w hw
    exact absurd hw (hworking w)
  · intro hphase
    exact absurd (hs.running hserved hreader) hphase
  · exact hs.joined

theorem Stops.recvStop (hs : Stops config s) {rest : List Work}
    (hw : s.workers[w]? = some .waiting) (hqueue : s.queue = .stop :: rest) :
    Stops config { s.setWorker w .exited with queue := rest } := by
  have hset := Pool.countP_set_toNat WorkerThread.isExited hw .exited
  have hsum := hs.sum
  rw [hqueue, List.count_cons_self] at hsum
  simp only [WorkerThread.isExited, Bool.toNat_true, Bool.toNat_false] at hset
  constructor
  · exact (List.length_set ..).trans hs.workers
  · simp only [setWorker, List.length_set]
    omega
  · have hlast := hs.last
    rw [hqueue] at hlast
    exact (List.pairwise_cons.mp hlast).2
  · exact fun _ => hs.rest_jobs hqueue
  · exact hs.unshared
  · intro hphase
    have hjoined := hs.joined hphase
    omega

theorem Stops.recvJob (hs : Stops config s) {rest : List Work}
    (hw : s.workers[w]? = some .waiting) (hqueue : s.queue = .job c i :: rest) :
    Stops config { s.setWorker w (.taken c i) with queue := rest } := by
  have hs' := hs.worker (.taken c i) hw rfl rfl
  have hlast := hs.last
  rw [hqueue] at hlast
  refine { hs' with sum := ?_, last := (List.pairwise_cons.mp hlast).2, drained := fun hv => ?_ }
  · have hsum : _ + s.queue.count .stop + _ = _ := hs'.sum
    rw [hqueue, List.count_cons_of_ne fun h => (by cases h)] at hsum
    exact hsum
  · have hjobs := hs'.drained hv
    rw [show (s.setWorker w (.taken c i)).queuedJobs = s.queue.filterMap Work.job? from rfl,
      hqueue] at hjobs
    cases hjobs

/-- **No job comes into the queue behind a `Stop`, and no worker leaves before it is empty.** -/
theorem Stops.moved (hs : Stops config s) {a : SchedulerAction} (h : Moved config s a s') :
    Stops config s' := by
  cases h with
  | own hserved hown hledger =>
    refine hs.connection _ hserved fun hreader => ?_
    exact (Connection.reader_own hown (.inr hreader) (Ledger.of_step hledger).1).trans hreader
  | @count c served _ _ hserved =>
    exact { hs.connection { served with submit := .counted } hserved id with }
  | full hserved => exact hs.connection _ hserved id
  | @uncount c served _ _ hserved =>
    exact { hs.connection { served with submit := .uncounted } hserved id with }
  | accept hserved hreader => exact hs.accept hserved hreader
  | reject hserved hreader =>
    refine { hs.connection ⟨_, .outside⟩ hserved fun hstopped => ?_ with }
    cases hreader.symm.trans hstopped
  | recvStop hw hqueue => exact hs.recvStop hw hqueue
  | recvJob hw hqueue => exact hs.recvJob hw hqueue
  | untake hw => exact { hs.worker (.uncounted _ _) hw rfl rfl with }
  | @start w c i served ledger _ hw hserved hledger =>
    have hs' := hs.connection { served with ledger } hserved fun hstopped =>
      (Ledger.pick_moves hledger).2.2.trans hstopped
    exact { hs'.worker (.serving _ _) hw rfl rfl with }
  | @finish w c i served ledger _ hw hserved hledger =>
    have hs' := hs.connection { served with ledger } hserved fun hstopped =>
      (Ledger.release_moves hledger).2.2.trans hstopped
    exact hs'.worker .released hw rfl rfl
  | release hw => exact { hs.worker .completing hw rfl rfl with }
  | complete hw => exact { hs.worker .waiting hw rfl rfl with }
  | unshare hphase hunshared =>
    have hsum := hs.sum
    rw [hphase] at hsum
    refine { hs with
      sum := hsum
      unshared := fun _ {c served} hserved => ?_
      joined := fun h => (by cases h) }
    have hstopped := List.all_eq_true.mp hunshared _ (List.mem_of_getElem? hserved)
    unfold ReaderPc.isStopped at hstopped
    split at hstopped
    · assumption
    · cases hstopped
  | sendStop hphase =>
    have hnot : s.phase ≠ .running := by simp [hphase]
    have hsum := hs.sum
    rw [hphase] at hsum
    refine { hs with
      sum := ?_, last := ?_, drained := ?_, unshared := fun _ => hs.unshared hnot
      joined := fun h => (by cases h) }
    · show _ + (s.queue ++ [Work.stop]).count .stop + _ = _
      rw [List.count_append, List.count_singleton_self]
      simp only [SchedulerPhase.pending] at hsum ⊢
      omega
    · rw [List.pairwise_append]
      exact ⟨hs.last, List.pairwise_singleton .., fun _ _ b hb _ => List.mem_singleton.mp hb⟩
    · intro w hw
      exact queuedJobs_stop.trans (hs.drained hw)
  | loseStop hphase hexited =>
    have hsum := hs.sum
    rw [hphase, allExited_iff.mp hexited] at hsum
    simp only [SchedulerPhase.pending] at hsum
    omega
  | stopped hphase =>
    have hnot : s.phase ≠ .running := by simp [hphase]
    have hsum := hs.sum
    rw [hphase] at hsum
    exact { hs with
      sum := hsum, unshared := fun _ => hs.unshared hnot, joined := fun h => (by cases h) }
  | joined hphase hexited =>
    have hnot : s.phase ≠ .running := by simp [hphase]
    have hsum := hs.sum
    rw [hphase] at hsum
    exact { hs with
      sum := hsum
      unshared := fun _ => hs.unshared hnot
      joined := fun _ => allExited_iff.mp hexited }

end Scheduler
end VcdTools.Server
