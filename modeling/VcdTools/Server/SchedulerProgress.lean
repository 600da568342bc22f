import VcdTools.Lib.Potential
import VcdTools.Server.SchedulerAccounts

/-! # How far a job is from being through

While a job is queued every step of a worker brings it nearer, and once a worker
has it every step of that worker; nothing else takes it further away. A
scheduler that is being dropped has so many steps left, whoever takes them. -/
namespace VcdTools.Server
open VcdTools.Lib Requests JobQueue

namespace WorkerThread
variable {thread : WorkerThread} {job : Nat × Nat}

/-- The next step of a worker that does not wait. -/
def next : WorkerThread → WorkerThread
  | .taken c i => .uncounted c i
  | .uncounted c i => .serving c i
  | .serving _ _ => .released
  | .released => .completing
  | .completing | .waiting => .waiting
  | .exited => .exited

/-- The steps of the worker until it waits again. -/
def left : WorkerThread → Nat
  | .taken _ _ => 5
  | .uncounted _ _ => 4
  | .serving _ _ => 3
  | .released => 2
  | .completing => 1
  | .waiting | .exited => 0

/-- Those of them until it is through with the job. -/
def leftOf (job : Nat × Nat) (thread : WorkerThread) : Nat :=
  if thread.job? = some job then thread.left - 2 else 0

theorem left_le (thread : WorkerThread) : thread.left ≤ 5 := by
  cases thread <;> simp [left]

theorem leftOf_le (job : Nat × Nat) (thread : WorkerThread) : thread.leftOf job ≤ 5 := by
  have hleft := thread.left_le
  unfold leftOf
  split <;> omega

theorem leftOf_pos (h : thread.job? = some job) : 0 < thread.leftOf job := by
  rw [leftOf, if_pos h]
  cases thread with
  | taken | uncounted | serving => simp [left]
  | waiting | released | completing | exited => cases h

theorem left_next (h : 0 < thread.left) : thread.next.left + 1 = thread.left := by
  cases thread with
  | taken | uncounted | serving | released | completing => rfl
  | waiting | exited => exact absurd h (Nat.lt_irrefl 0)

/-- A step brings the worker's own job nearer. -/
theorem leftOf_next (thread : WorkerThread) (job : Nat × Nat) :
    (thread.job? == some job).toNat + thread.next.leftOf job ≤ thread.leftOf job := by
  by_cases h : thread.job? = some job
  · rw [h, beq_self_eq_true, leftOf, leftOf, if_pos h]
    cases thread with
    | taken c i | uncounted c i =>
      cases h
      simp [left, next, job?]
    | serving c i => simp [left, next, job?]
    | waiting | released | completing | exited => cases h
  · have hnext : thread.next.job? ≠ some job := by
      cases thread with
      | taken | uncounted => exact h
      | serving | waiting | released | completing | exited => exact fun h => (by cases h)
    rw [leftOf, leftOf, if_neg h, if_neg hnext, beq_eq_false_iff_ne.mpr h]
    exact Nat.le_refl 0

end WorkerThread

/-- The steps of the drop, with those that its `Stop`s take. -/
def SchedulerPhase.left (workers : Nat) : SchedulerPhase → Nat
  | .running => 7 * workers + 3
  | .stopping left => 7 * left + 2
  | .joining => 1
  | .dropped => 0

/-- A step of the scheduler's own threads. -/
def SchedulerAction.isOwn : SchedulerAction → Bool
  | .worker _ _ | .drop => true
  | .connection _ _ | .submit _ => false

/-- What a worker that waits becomes with what it receives. -/
def Work.thread : Work → WorkerThread
  | .job c i => .taken c i
  | .stop => .exited

namespace Scheduler
variable {config : SchedulerConfig} {s s' : Scheduler} {c i w : Nat} {job : Nat × Nat}
  {thread thread' : WorkerThread} {a : SchedulerAction} {program : Dispatch Unit}

/-- The steps of the workers until all of them wait. -/
def work (s : Scheduler) : Nat := (s.workers.map WorkerThread.left).sum

/-- The steps that a job still needs: of all workers while it is queued, and then of
the worker that has it. -/
def remaining (s : Scheduler) (job : Nat × Nat) : Nat :=
  if Work.job job.1 job.2 ∈ s.queue then 6 * (s.queue.idxOf (.job job.1 job.2) + 1) + s.work
  else (s.workers.map (WorkerThread.leftOf job)).sum

/-- The step brings the job nearer. -/
def advances (job : Nat × Nat) (s : Scheduler) : SchedulerAction → Bool
  | .worker w _ => decide (Work.job job.1 job.2 ∈ s.queue) || s.claims w == some job
  | .connection _ _ | .submit _ | .drop => false

/-- The steps that are left until the scheduler is dropped. -/
def untilDropped (s : Scheduler) : Nat :=
  s.phase.left s.workers.length + 6 * s.queue.length + s.work

theorem mem_queuedJobs {queue : List Work} :
    job ∈ queue.filterMap Work.job? ↔ Work.job job.1 job.2 ∈ queue := by
  rw [List.mem_filterMap]
  constructor
  · rintro ⟨work, hmem, hjob⟩
    cases work with
    | job c i =>
      cases hjob
      exact hmem
    | stop => cases hjob
  · exact fun hmem => ⟨_, hmem, rfl⟩

theorem sum_map_le {α : Type} {f : α → Nat} {n : Nat} (h : ∀ x, f x ≤ n) (l : List α) :
    (l.map f).sum ≤ n * l.length := by
  induction l with
  | nil => exact Nat.zero_le _
  | cons x l ih =>
    have hx := h x
    rw [List.map_cons, List.sum_cons, List.length_cons, Nat.mul_succ]
    omega

/-- What a job still needs is bounded by the queue and the workers. -/
theorem remaining_le (s : Scheduler) (job : Nat × Nat) :
    s.remaining job ≤ 6 * s.queue.length + 5 * s.workers.length := by
  unfold remaining
  split
  · rename_i hmem
    have hindex := List.idxOf_lt_length_iff.mpr hmem
    have hwork : s.work ≤ 5 * s.workers.length := sum_map_le WorkerThread.left_le _
    omega
  · have hsum := sum_map_le (WorkerThread.leftOf_le job) s.workers
    omega

theorem Inv.claimed (hi : Inv config s) (hscheduled : (s.stage job).scheduled = true)
    (hqueue : job ∉ s.queuedJobs) :
    ∃ (w : Nat) (thread : WorkerThread), s.workers[w]? = some thread ∧ thread.job? = some job := by
  obtain ⟨w, hw⟩ := (hi.tracked.leased.active_iff job).mp ⟨hscheduled, hqueue⟩
  obtain ⟨thread, hthread, hjob⟩ := Option.bind_eq_some_iff.mp hw
  exact ⟨w, thread, hthread, hjob⟩

/-- A job that no worker has and that is not queued is through. -/
theorem Inv.through (hi : Inv config s) (hmem : job ∈ s.admitted) (h : s.remaining job = 0) :
    job ∈ s.executed ∧ s.stage job = .after := by
  unfold remaining at h
  split at h
  · omega
  · rename_i hqueue
    have hnot : (s.stage job).scheduled = false := by
      rw [← Bool.not_eq_true]
      intro hscheduled
      obtain ⟨w, thread, hw, hjob⟩ := hi.claimed hscheduled fun hmem => hqueue (mem_queuedJobs.mp hmem)
      have hle := List.single_le_sum (fun _ _ => Nat.zero_le _) _
        (List.mem_map_of_mem (f := WorkerThread.leftOf job) (List.mem_of_getElem? hw))
      have hpos := WorkerThread.leftOf_pos hjob
      omega
    rcases (hi.tracked.admitted_iff job).mp hmem with hs | hs
    · rw [hs] at hnot
      cases hnot
    · refine ⟨hs, ?_⟩
      rcases hi.tracked.executed_stage job hs with hs | hs
      · rw [hs] at hnot
        cases hnot
      · exact hs

/-! ## One step -/

theorem remaining_queued (h : Work.job job.1 job.2 ∈ s.queue) :
    s.remaining job = 6 * (s.queue.idxOf (.job job.1 job.2) + 1) + s.work := if_pos h

theorem remaining_unqueued (h : Work.job job.1 job.2 ∉ s.queue) :
    s.remaining job = (s.workers.map (WorkerThread.leftOf job)).sum := if_neg h

theorem advances_worker (hw : s.workers[w]? = some thread) :
    s.advances job (.worker w program) =
      (decide (Work.job job.1 job.2 ∈ s.queue) || thread.job? == some job) := by
  rw [advances, claims_get hw]

/-- What comes into the queue comes behind the job. -/
theorem remaining_append {more : List Work} (hworkers : s'.workers = s.workers)
    (hqueue : s'.queue = s.queue ++ more) (hmore : Work.job job.1 job.2 ∉ more) :
    s'.remaining job = s.remaining job := by
  unfold remaining work
  rw [hworkers, hqueue]
  by_cases hmem : Work.job job.1 job.2 ∈ s.queue
  · rw [if_pos hmem, if_pos (List.mem_append_left _ hmem), List.idxOf_append_of_mem hmem]
  · have happend : Work.job job.1 job.2 ∉ s.queue ++ more := fun h =>
      (List.mem_append.mp h).elim hmem hmore
    rw [if_neg hmem, if_neg happend]

/-- A worker that does not wait goes on. -/
theorem remaining_next (hw : s.workers[w]? = some thread) (hleft : 0 < thread.left)
    (hworkers : s'.workers = s.workers.set w thread.next) (hqueue : s'.queue = s.queue) :
    (s.advances job (.worker w program)).toNat + s'.remaining job ≤ s.remaining job := by
  have hnext := WorkerThread.left_next hleft
  rw [advances_worker hw]
  by_cases hmem : Work.job job.1 job.2 ∈ s.queue
  · have hwork : s'.work + thread.left = s.work + thread.next.left := by
      rw [work, hworkers]
      exact Potential.sum_map_set_add WorkerThread.left hw thread.next
    rw [decide_eq_true hmem, Bool.true_or, Bool.toNat_true, remaining_queued hmem,
      remaining_queued (hqueue ▸ hmem), hqueue]
    omega
  · have hown := Potential.sum_map_set_add (WorkerThread.leftOf job) hw thread.next
    have hnearer := thread.leftOf_next job
    rw [decide_eq_false hmem, Bool.false_or, remaining_unqueued hmem,
      remaining_unqueued (hqueue ▸ hmem), hworkers]
    omega

/-- What is queued is with no worker. -/
theorem Inv.unclaimed (hi : Inv config s) (hmem : Work.job job.1 job.2 ∈ s.queue) :
    (s.workers.map (WorkerThread.leftOf job)).sum = 0 := by
  rw [List.sum_eq_zero_iff]
  intro n hn
  obtain ⟨thread, hthread, rfl⟩ := List.mem_map.mp hn
  obtain ⟨w, hw⟩ := List.mem_iff_getElem?.mp hthread
  refine if_neg fun hjob => ?_
  have hactive := (hi.tracked.leased.active_iff job).mpr ⟨w, (claims_get hw).trans hjob⟩
  exact hactive.2 (mem_queuedJobs.mpr hmem)

/-- A worker that waits receives what is first in the queue. -/
theorem remaining_recv (hi : Inv config s) {first : Work} {rest : List Work}
    (hw : s.workers[w]? = some .waiting) (hqueue : s.queue = first :: rest)
    (hworkers : s'.workers = s.workers.set w first.thread) (hrest : s'.queue = rest) :
    (s.advances job (.worker w program)).toNat + s'.remaining job ≤ s.remaining job := by
  have hown := Potential.sum_map_set_add (WorkerThread.leftOf job) hw first.thread
  have hwaits : WorkerThread.waiting.leftOf job = 0 := rfl
  rw [advances_worker hw]
  by_cases hmem : Work.job job.1 job.2 ∈ s.queue
  · rw [decide_eq_true hmem, Bool.true_or, Bool.toNat_true, remaining_queued hmem]
    by_cases hfirst : first = .job job.1 job.2
    · -- the job comes to this worker, and was with no other
      have hgone : Work.job job.1 job.2 ∉ s'.queue := by
        have hnodup := hi.tracked.queue_nodup
        rw [queuedJobs, hqueue, hfirst] at hnodup
        rw [hrest, ← mem_queuedJobs]
        exact (List.nodup_cons.mp hnodup).1
      have hnone := hi.unclaimed hmem
      have hle := WorkerThread.leftOf_le job first.thread
      rw [remaining_unqueued hgone, hworkers]
      omega
    · have hrest' : Work.job job.1 job.2 ∈ s'.queue := by
        rw [hqueue] at hmem
        rw [hrest]
        exact (List.mem_cons.mp hmem).resolve_left (Ne.symm hfirst)
      have hwork : s'.work + WorkerThread.waiting.left = s.work + first.thread.left := by
        rw [work, hworkers]
        exact Potential.sum_map_set_add WorkerThread.left hw first.thread
      have hle := first.thread.left_le
      rw [remaining_queued hrest', hqueue, List.idxOf_cons_ne _ hfirst, hrest]
      omega
  · have hgone : Work.job job.1 job.2 ∉ s'.queue := fun h =>
      hmem (hqueue ▸ List.mem_cons_of_mem _ (hrest ▸ h))
    have hother : first.thread.leftOf job = 0 := by
      cases first with
      | stop => rfl
      | job c i =>
        refine if_neg fun hjob => hmem ?_
        cases hjob
        rw [hqueue]
        exact List.mem_cons_self
    have hidle : (WorkerThread.waiting.job? == some job) = false := rfl
    rw [decide_eq_false hmem, Bool.false_or, hidle, Bool.toNat_false, remaining_unqueued hmem,
      remaining_unqueued hgone, hworkers]
    omega

/-- What is admitted stays so. -/
theorem Moved.admitted (h : Moved config s a s') : s.admitted <+: s'.admitted := by
  cases h with
  | accept => exact List.prefix_append _ _
  | own | count | full | uncount | reject | recvStop | recvJob | untake | start | finish | release
  | complete | unshare | sendStop | loseStop | stopped | joined => exact List.prefix_refl _

/-- **No step takes a job further from its end**, and the steps of the workers bring
it nearer while it is queued, and then those of the worker that has it. -/
theorem remaining_moved (hi : Inv config s) (hi' : Inv config s') (hmem : job ∈ s.admitted)
    (h : Moved config s a s') :
    (s.advances job a).toNat + s'.remaining job ≤ s.remaining job := by
  have hsame : ∀ more : List Work, s'.workers = s.workers → s'.queue = s.queue ++ more →
      Work.job job.1 job.2 ∉ more → 0 + s'.remaining job ≤ s.remaining job := by
    intro more hworkers hqueue hmore
    rw [remaining_append hworkers hqueue hmore, Nat.zero_add]
  have hnil : s'.workers = s.workers → s'.queue = s.queue →
      0 + s'.remaining job ≤ s.remaining job := fun hworkers hqueue =>
    hsame [] hworkers (hqueue.trans (List.append_nil _).symm) List.not_mem_nil
  cases h with
  | own | count | full | uncount | reject | unshare | loseStop | stopped | joined =>
    exact hnil rfl rfl
  | @accept c served i request ledger =>
    refine hsame [.job c i] rfl rfl fun hjob => ?_
    -- only a job that was not admitted before comes in
    have hnodup : (s.admitted ++ [(c, i)]).Nodup := hi'.tracked.admitted_nodup
    cases List.mem_singleton.mp hjob
    exact (List.nodup_append.mp hnodup).2.2 _ hmem _ (List.mem_singleton_self _) rfl
  | sendStop => exact hsame [.stop] rfl rfl (by simp)
  | recvStop hw hqueue => exact remaining_recv hi hw hqueue rfl rfl
  | recvJob hw hqueue => exact remaining_recv hi hw hqueue rfl rfl
  | untake hw | start hw | finish hw | release hw | complete hw =>
    exact remaining_next hw (by simp [WorkerThread.left]) rfl rfl

/-- A worker's step, by what it has to do after it. -/
theorem untilDropped_worker {queue : List Work} (hw : s.workers[w]? = some thread)
    (hphase : s'.phase = s.phase) (hworkers : s'.workers = s.workers.set w thread')
    (hqueue : s'.queue = queue)
    (hless : 6 * queue.length + thread'.left < 6 * s.queue.length + thread.left) :
    s'.untilDropped < s.untilDropped := by
  have hwork : s'.work + thread.left = s.work + thread'.left := by
    rw [work, hworkers]
    exact Potential.sum_map_set_add WorkerThread.left hw thread'
  rw [untilDropped, untilDropped, hphase, hworkers, hqueue, List.length_set]
  omega

/-- **Every own step brings the end of a drop nearer.** -/
theorem untilDropped_moved (hs : Stops config s) (hphase : s.phase ≠ .running)
    (h : Moved config s a s') :
    s'.phase ≠ .running ∧ Potential.cost SchedulerAction.isOwn a + s'.untilDropped ≤
      s.untilDropped := by
  have hown : a.isOwn = true → s'.phase ≠ .running → s'.untilDropped < s.untilDropped →
      s'.phase ≠ .running ∧ Potential.cost SchedulerAction.isOwn a + s'.untilDropped ≤
        s.untilDropped := by
    intro hown hnot hless
    refine ⟨hnot, ?_⟩
    rw [Potential.cost, if_pos hown]
    omega
  cases h with
  | own => exact ⟨hphase, Nat.le_of_eq (Nat.zero_add _)⟩
  | count hserved hreader | accept hserved hreader | full hserved hreader
  | uncount hserved hreader | reject hserved hreader =>
    -- every reader has stopped
    exact absurd (hs.running hserved hreader) hphase
  | recvStop hw hqueue =>
    refine hown rfl hphase (untilDropped_worker hw rfl rfl rfl ?_)
    rw [hqueue, List.length_cons]
    simp only [WorkerThread.left]
    omega
  | recvJob hw hqueue =>
    refine hown rfl hphase (untilDropped_worker hw rfl rfl rfl ?_)
    rw [hqueue, List.length_cons]
    simp only [WorkerThread.left]
    omega
  | untake hw | start hw | finish hw | release hw | complete hw =>
    refine hown rfl hphase (untilDropped_worker hw rfl rfl rfl ?_)
    exact Nat.add_lt_add_left (Nat.lt_succ_self _) _
  | unshare hrunning => exact absurd hrunning hphase
  | sendStop hleft =>
    refine hown rfl (fun h => (by cases h)) ?_
    unfold untilDropped
    rw [hleft, List.length_append]
    simp only [SchedulerPhase.left, List.length_singleton, work]
    omega
  | loseStop hleft =>
    refine hown rfl (fun h => (by cases h)) ?_
    unfold untilDropped
    rw [hleft]
    simp only [SchedulerPhase.left, work]
    omega
  | stopped hleft | joined hleft =>
    refine hown rfl (fun h => (by cases h)) ?_
    unfold untilDropped
    rw [hleft]
    simp only [SchedulerPhase.left, work]
    omega

end Scheduler
end VcdTools.Server
