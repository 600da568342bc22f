import VcdTools.Server.IdReuse
import VcdTools.Server.SchedulerProgress

/-! # What the scheduler answers for

In every run, whoever moves: ids are registered as long as their jobs are on the
way, no admitted job is lost or started twice and each is through after so many
steps, what is turned away is answered once, the counters count, and a scheduler
that is dropped lets every job run. -/
namespace VcdTools.Server
open VcdTools.Lib Requests JobQueue

namespace Scheduler
variable {config : SchedulerConfig} {s s' : Scheduler} {c i w : Nat} {served : Served}
  {thread : WorkerThread} {job : Nat × Nat}

/-- Nobody is inside `submit`, picking a job up or completing one. -/
structure Quiet (s : Scheduler) : Prop where
  readers : ∀ served ∈ s.connections, served.submit = .outside
  workers : ∀ thread ∈ s.workers, thread.isSettled = true

/-- Worker `w` has a step to take, or its dispatcher is still at work. -/
def Works (config : SchedulerConfig) (s : Scheduler) (w : Nat) : Prop :=
  (∀ program, ∃ s', s.worker config w program = some s') ∨
    ∃ c i served job, s.workers[w]? = some (.serving c i) ∧ s.connections[c]? = some served ∧
      served.ledger.connection.places i = .running job ∧ job.isDone = false

structure Accounted (config : SchedulerConfig) (s : Scheduler) : Prop where
  /-- An id is registered exactly while a line with it is admitted, queued or running. -/
  registered : ∀ served ∈ s.connections, ∀ id,
    served.ledger.connection.registry.state.isActive id = true ↔
      ∃ i, (served.ledger.connection.places i).holds = some id
  /-- That line is a request with this id, and the only one that holds it. -/
  holder : ∀ served ∈ s.connections, ∀ i id,
    (served.ledger.connection.places i).holds = some id →
      (∃ line, served.ledger.connection.sent[i]? = some line ∧
        config.env.requestId line.text = some id) ∧
      ∀ j, (served.ledger.connection.places j).holds = some id → j = i
  admitted : ∀ job, job ∈ s.admitted ↔ s.stage job = .queued ∨ job ∈ s.executed
  executed : ∀ job, job ∈ s.executed ↔
    job ∈ s.admitted ∧ (s.stage job = .running ∨ s.stage job = .after)
  once : s.admitted.Nodup ∧ s.executed.Nodup
  /-- What is turned away was never admitted, holds no id and has its answer. -/
  rejected : ∀ (c : Nat) served, s.connections[c]? = some served → ∀ i frame,
    (i, frame) ∈ served.ledger.dismissed → (c, i) ∉ s.admitted ∧
      (served.ledger.connection.places i).holds = none ∧ served.ledger.Settles i frame
  counters : 0 ≤ s.queued ∧ 0 ≤ s.active
  quiet : s.Quiet → s.queued = {job | s.stage job = .queued}.ncard ∧
    s.active = {job | s.stage job = .running}.ncard
  /-- A worker leaves when no job is queued, and when all have left all jobs are through. -/
  exits : (∃ w : Nat, s.workers[w]? = some .exited) → s.queuedJobs = []
  through : s.allExited = true → ∀ job ∈ s.admitted, job ∈ s.executed ∧ s.stage job = .after
  dropped : s.phase = .dropped → s.allExited = true
  /-- A worker that can bring a job nearer to its end is never stuck. -/
  progress : ∀ job ∈ s.admitted, s.stage job ≠ .after → ∃ w, s.Works config w ∧
    ∀ program, s.advances job (.worker w program) = true
  /-- After so many of those steps the job was run, whatever else is done meanwhile. -/
  finishes : ∀ job ∈ s.admitted, s.remaining job ≤ 6 * s.queue.length + 5 * config.workers ∧
    ∀ actions t, Runs.exec (step config) s actions = some t →
      s.remaining job ≤ Potential.countAlong (step config) (advances job) s actions →
        job ∈ t.executed ∧ t.stage job = .after
  stopping : s.phase ≠ .running → s.phase ≠ .dropped →
    (∃ s', s.drop config = some s') ∨ ∃ w, s.Works config w
  /-- A drop that has begun is over after so many steps of the workers and its own. -/
  drops : s.phase ≠ .running → ∀ actions t, Runs.exec (step config) s actions = some t →
    s.untilDropped ≤ actions.countP SchedulerAction.isOwn → t.phase = .dropped

/-! ## The counters at rest -/

theorem countP_zero {α : Type} {l : List α} {p : α → Bool} (h : ∀ x ∈ l, p x = false) :
    l.countP p = 0 :=
  List.countP_eq_zero.mpr fun x hx => by rw [h x hx]; exact Bool.false_ne_true

theorem ncard_of_nodup {α : Type} {l : List α} {p : α → Prop} (hnodup : l.Nodup)
    (hmem : ∀ x, x ∈ l ↔ p x) : {x | p x}.ncard = l.length := by
  classical
  have hset : {x | p x} = (l.toFinset : Set α) := by
    ext x
    rw [Finset.mem_coe, List.mem_toFinset, hmem]
    rfl
  rw [hset, Set.ncard_coe_finset, List.toFinset_card_of_nodup hnodup]

/-- A worker at rest that has a job is serving it. -/
theorem settled_fits {stage : Nat × Nat → Stage} (hsettled : thread.isSettled = true)
    (hfits : thread.Fits stage) (hjob : thread.job? = some job) : stage job = .running := by
  cases thread with
  | serving c i =>
    cases hjob
    exact hfits
  | waiting | exited => cases hjob
  | taken | uncounted | released | completing => cases hsettled

theorem quiet_queued (hi : Inv config s) (hc : Counted s) (hquiet : s.Quiet) :
    s.queued = {job | s.stage job = .queued}.ncard := by
  have htaken : s.workers.countP WorkerThread.isTaken = 0 := by
    refine countP_zero fun thread hmem => ?_
    have hsettled := hquiet.workers thread hmem
    cases thread with
    | taken => cases hsettled
    | waiting | uncounted | serving | released | completing | exited => rfl
  have hsubmitting : s.submitting = 0 := by
    refine countP_zero fun served hmem => ?_
    rw [hquiet.readers served hmem]
    rfl
  rw [hc.queued, htaken, hsubmitting, ncard_of_nodup hi.tracked.queue_nodup]
  · rfl
  · intro job
    refine ⟨hi.tracked.queue_stage job, fun hstage => ?_⟩
    by_contra hqueue
    obtain ⟨w, thread, hw, hjob⟩ := hi.claimed (by rw [hstage]; rfl) hqueue
    have hsettled := hquiet.workers thread (List.mem_of_getElem? hw)
    cases hstage.symm.trans (settled_fits hsettled (hi.threads hw) hjob)

theorem quiet_active (hi : Inv config s) (hc : Counted s) (hquiet : s.Quiet) :
    s.active = {job | s.stage job = .running}.ncard := by
  have hlength : (s.workers.filterMap WorkerThread.job?).length =
      s.workers.countP WorkerThread.isActive := by
    rw [List.length_filterMap_eq_countP]
    refine List.countP_congr fun thread hmem => ?_
    have hsettled := hquiet.workers thread hmem
    cases thread with
    | serving => exact iff_of_true rfl rfl
    | waiting | exited => exact iff_of_false Bool.false_ne_true Bool.false_ne_true
    | taken | uncounted | released | completing => cases hsettled
  have hnodup : (s.workers.filterMap WorkerThread.job?).Nodup := by
    rw [List.Nodup, List.pairwise_filterMap, List.pairwise_iff_getElem]
    rintro v w hv hw hlt job hjob _ hjob' rfl
    refine absurd ?_ (Nat.ne_of_lt hlt)
    exact hi.tracked.leased.distinct ((claims_get (List.getElem?_eq_getElem hv)).trans hjob)
      ((claims_get (List.getElem?_eq_getElem hw)).trans hjob')
  rw [hc.active, ← hlength, ncard_of_nodup hnodup]
  intro job
  rw [List.mem_filterMap]
  constructor
  · rintro ⟨thread, hmem, hjob⟩
    obtain ⟨w, hw⟩ := List.mem_iff_getElem?.mp hmem
    exact settled_fits (hquiet.workers thread hmem) (hi.threads hw) hjob
  · intro hstage
    have hqueue : job ∉ s.queuedJobs := fun hmem => by
      cases hstage.symm.trans (hi.tracked.queue_stage job hmem)
    obtain ⟨w, thread, hw, hjob⟩ := hi.claimed (by rw [hstage]; rfl) hqueue
    exact ⟨thread, List.mem_of_getElem? hw, hjob⟩

/-! ## Progress -/

theorem place_of_stage {st : Stage} (h : s.stage (c, i) = st) (hne : st ≠ .before) :
    ∃ served, s.connections[c]? = some served ∧
      (served.ledger.connection.places i).stage = st := by
  cases hserved : s.connections[c]? with
  | none =>
    simp only [stage, hserved] at h
    exact absurd h.symm hne
  | some served => exact ⟨served, rfl, (stage_served hserved i).symm.trans h⟩

theorem works_waiting (hw : s.workers[w]? = some .waiting) (hqueue : s.queue ≠ []) :
    s.Works config w := by
  refine .inl fun program => ?_
  obtain ⟨work, rest, hqueue⟩ := List.exists_cons_of_ne_nil hqueue
  unfold worker
  rw [hw, hqueue]
  cases work with
  | stop => exact ⟨_, rfl⟩
  | job c i => exact ⟨_, rfl⟩

theorem works_uncounted (hi : Inv config s) (hw : s.workers[w]? = some (.uncounted c i)) :
    s.Works config w := by
  obtain ⟨served, hserved, hstage⟩ := place_of_stage (hi.threads hw) (by decide)
  cases hplace : served.ledger.connection.places i with
  | queued request =>
    refine .inl fun program => ?_
    unfold worker
    rw [hw]
    simp [onConnection, hserved, Ledger.step, Connection.step, Connection.pick, hplace]
  | unread | atReader | admitting _ | running _ | gone =>
    rw [hplace] at hstage
    cases hstage

theorem works_serving (hi : Inv config s) (hw : s.workers[w]? = some (.serving c i)) :
    s.Works config w := by
  obtain ⟨served, hserved, hstage⟩ := place_of_stage (hi.threads hw) (by decide)
  cases hplace : served.ledger.connection.places i with
  | running job =>
    cases hdone : job.isDone with
    | false => exact .inr ⟨c, i, served, job, hw, hserved, hplace, hdone⟩
    | true =>
      refine .inl fun program => ?_
      unfold worker
      rw [hw]
      simp [onConnection, hserved, Ledger.step, Connection.step, Connection.release, hplace, hdone]
  | unread | atReader | admitting _ | queued _ | gone =>
    rw [hplace] at hstage
    cases hstage

/-- A worker that has not left goes on, unless it waits at an empty queue. -/
theorem works_of (hi : Inv config s) (hw : s.workers[w]? = some thread) (hleft : thread ≠ .exited)
    (hqueue : thread = .waiting → s.queue ≠ []) : s.Works config w := by
  cases thread with
  | waiting => exact works_waiting hw (hqueue rfl)
  | taken c i | released | completing =>
    refine .inl fun program => ?_
    unfold worker
    rw [hw]
    exact ⟨_, rfl⟩
  | uncounted c i => exact works_uncounted hi hw
  | serving c i => exact works_serving hi hw
  | exited => exact absurd rfl hleft

theorem progress_of (hi : Inv config s) (hs : Stops config s) (hmem : job ∈ s.admitted)
    (hstage : s.stage job ≠ .after) : ∃ w, s.Works config w ∧
      ∀ program, s.advances job (.worker w program) = true := by
  have hscheduled : (s.stage job).scheduled = true := by
    rcases (hi.tracked.admitted_iff job).mp hmem with h | h
    · rw [h]
      rfl
    · rcases hi.tracked.executed_stage job h with h | h
      · rw [h]
        rfl
      · exact absurd h hstage
  by_cases hqueue : job ∈ s.queuedJobs
  · -- the first worker has not left
    have hlt : 0 < s.workers.length := by
      rw [hs.workers]
      exact config.workers_pos
    have hjobs : s.queuedJobs ≠ [] := List.ne_nil_of_mem hqueue
    refine ⟨0, works_of hi (List.getElem?_eq_getElem hlt) (fun hexited => ?_) fun _ hnil => ?_,
      fun program => ?_⟩
    · exact hjobs (hs.drained ((List.getElem?_eq_getElem hlt).trans (congrArg some hexited)))
    · exact hjobs (by rw [queuedJobs, hnil]; rfl)
    · rw [advances, decide_eq_true (mem_queuedJobs.mp hqueue), Bool.true_or]
  · obtain ⟨w, thread, hw, hjob⟩ := hi.claimed hscheduled hqueue
    refine ⟨w, works_of hi hw ?_ ?_, fun program => ?_⟩
    · rintro rfl
      cases hjob
    · rintro rfl
      cases hjob
    · rw [advances_worker hw, hjob, beq_self_eq_true, Bool.or_true]

theorem exists_left (h : s.allExited = false) :
    ∃ (w : Nat) (thread : WorkerThread), s.workers[w]? = some thread ∧ thread ≠ .exited := by
  obtain ⟨thread, hmem, hne⟩ := List.all_eq_false.mp h
  obtain ⟨w, hw⟩ := List.mem_iff_getElem?.mp hmem
  exact ⟨w, thread, hw, fun heq => hne (beq_iff_eq.mpr heq)⟩

theorem stopping_of (hi : Inv config s) (hs : Stops config s) (hrunning : s.phase ≠ .running)
    (hdropped : s.phase ≠ .dropped) :
    (∃ s', s.drop config = some s') ∨ ∃ w, s.Works config w := by
  have hsome : ∀ {p : Option Scheduler}, p.isSome = true → ∃ s', p = some s' :=
    Option.isSome_iff_exists.mp
  cases hexited : s.allExited with
  | true =>
    left
    cases hphase : s.phase with
    | running => exact absurd hphase hrunning
    | dropped => exact absurd hphase hdropped
    | joining => exact ⟨_, by rw [drop, hphase]; exact if_pos hexited⟩
    | stopping left =>
      cases left with
      | zero => exact ⟨_, by rw [drop, hphase]⟩
      | succ left => exact ⟨_, by rw [drop, hphase]; exact if_pos hexited⟩
  | false =>
    obtain ⟨w, thread, hw, hne⟩ := exists_left hexited
    have hworks : s.queue ≠ [] → ∃ w, s.Works config w := fun hqueue =>
      ⟨w, works_of hi hw hne fun _ => hqueue⟩
    cases hphase : s.phase with
    | running => exact absurd hphase hrunning
    | dropped => exact absurd hphase hdropped
    | joining =>
      -- all the `Stop`s are sent, so the queue holds one for this worker
      right
      refine hworks fun hnil => ?_
      have hsum := hs.sum
      rw [hphase, hnil, SchedulerPhase.pending, List.count_nil, Nat.zero_add] at hsum
      rw [allExited_iff.mpr (by omega)] at hexited
      cases hexited
    | stopping left =>
      cases left with
      | zero => exact .inl ⟨_, by rw [drop, hphase]⟩
      | succ left =>
        cases hroom : s.hasRoom config with
        | true =>
          left
          refine ⟨{ s with phase := .stopping left, queue := s.queue ++ [.stop] }, ?_⟩
          simp only [drop, hphase, hexited, hroom, Bool.false_eq_true, if_false, if_true]
        | false =>
          right
          refine hworks fun hnil => ?_
          have hfull := of_decide_eq_false hroom
          rw [hnil] at hfull
          exact hfull config.queueDepth_pos

/-! ## Every run -/

/-- What every state of a run has. -/
structure Kept (config : SchedulerConfig) (s : Scheduler) : Prop where
  inv : Inv config s
  counted : Counted s
  stops : Stops config s

theorem Kept.step (hk : Kept config s) {a : SchedulerAction} (h : s.step config a = some s') :
    Kept config s' := by
  have hmoved := step_moved h
  exact ⟨hk.inv.moved hmoved, hk.counted.moved hmoved, hk.stops.moved hmoved⟩

/-- **A job is through after as many steps of its workers as it needs.** -/
theorem Kept.finishes (hk : Kept config s) (hmem : job ∈ s.admitted)
    {actions : List SchedulerAction} {t : Scheduler}
    (hexec : Runs.exec (Scheduler.step config) s actions = some t)
    (hsteps : s.remaining job ≤
      Potential.countAlong (Scheduler.step config) (advances job) s actions) :
    job ∈ t.executed ∧ t.stage job = .after := by
  have hstep : ∀ u a u', Kept config u ∧ job ∈ u.admitted → u.step config a = some u' →
      (Kept config u' ∧ job ∈ u'.admitted) ∧
        (u.advances job a).toNat + u'.remaining job ≤ u.remaining job := by
    intro u a u' ⟨hk, hmem⟩ h
    have hmoved := step_moved h
    have hk' := hk.step h
    exact ⟨⟨hk', hmoved.admitted.subset hmem⟩, remaining_moved hk.inv hk'.inv hmem hmoved⟩
  obtain ⟨hkept, hadmitted⟩ := Runs.exec_invariant (fun u a u' hu h => (hstep u a u' hu h).1)
    actions s t ⟨hk, hmem⟩ hexec
  have hranked := Potential.exec_ranked hstep actions s t ⟨hk, hmem⟩ hexec
  exact hkept.inv.through hadmitted (by omega)

/-- **A drop is over after as many steps as it has left.** -/
theorem Kept.drops (hk : Kept config s) (hphase : s.phase ≠ .running)
    {actions : List SchedulerAction} {t : Scheduler}
    (hexec : Runs.exec (Scheduler.step config) s actions = some t)
    (hsteps : s.untilDropped ≤ actions.countP SchedulerAction.isOwn) : t.phase = .dropped := by
  have hstep : ∀ u a u', Kept config u ∧ u.phase ≠ .running → u.step config a = some u' →
      (Kept config u' ∧ u'.phase ≠ .running) ∧
        Potential.cost SchedulerAction.isOwn a + u'.untilDropped ≤ u.untilDropped + 0 := by
    intro u a u' ⟨hk, hphase⟩ h
    obtain ⟨hphase', hcost⟩ := untilDropped_moved hk.stops hphase (step_moved h)
    exact ⟨⟨hk.step h, hphase'⟩, hcost⟩
  obtain ⟨-, hphase'⟩ := Runs.exec_invariant (fun u a u' hu h => (hstep u a u' hu h).1)
    actions s t ⟨hk, hphase⟩ hexec
  have hpaid := Potential.exec_paid hstep actions s t ⟨hk, hphase⟩ hexec
  have hcredit : (actions.map fun _ => 0).sum = 0 := by simp
  have hleft : t.phase.left t.workers.length = 0 := by
    unfold untilDropped at hpaid hsteps
    omega
  cases ht : t.phase with
  | dropped => rfl
  | running => exact absurd ht hphase'
  | stopping left | joining =>
    rw [ht] at hleft
    simp [SchedulerPhase.left] at hleft

theorem accounted_of (hk : Kept config s) : Accounted config s where
  registered := fun served hmem id => by
    obtain ⟨c, hserved⟩ := List.mem_iff_getElem?.mp hmem
    exact (hk.inv.served hserved).ledger.connection.leased.active_iff id
  holder := fun served hmem i id hholds => by
    obtain ⟨c, hserved⟩ := List.mem_iff_getElem?.mp hmem
    have hconnection := (hk.inv.served hserved).ledger.connection
    obtain ⟨line, hline, hid, _⟩ := hconnection.admitted hholds
    exact ⟨⟨line, hline, hid⟩, fun j hj => hconnection.leased.distinct hj hholds⟩
  admitted := hk.inv.tracked.admitted_iff
  executed := fun job => by
    constructor
    · intro hmem
      exact ⟨(hk.inv.tracked.admitted_iff job).mpr (.inr hmem), hk.inv.tracked.executed_stage job hmem⟩
    · rintro ⟨hadmitted, hstage⟩
      rcases (hk.inv.tracked.admitted_iff job).mp hadmitted with hqueued | hmem
      · rw [hqueued] at hstage
        rcases hstage with h | h
        · cases h
        · cases h
      · exact hmem
  once := ⟨hk.inv.tracked.admitted_nodup, hk.inv.tracked.executed_nodup⟩
  rejected := fun c served hserved i frame hmem => by
    have hledger := (hk.inv.served hserved).ledger
    refine ⟨hk.inv.dismissed hserved hmem, ?_, hledger.settles i frame hmem⟩
    rw [hledger.gone i frame hmem]
    rfl
  counters := by
    rw [hk.counted.queued, hk.counted.active]
    omega
  quiet := fun hquiet => ⟨quiet_queued hk.inv hk.counted hquiet, quiet_active hk.inv hk.counted hquiet⟩
  exits := fun ⟨_, hw⟩ => hk.stops.drained hw
  through := fun hexited job hmem => by
    have hidle : ∀ w, s.claims w = none := by
      intro w
      rw [claims, Option.bind_eq_none_iff]
      intro thread hw
      have hthread := List.all_eq_true.mp hexited thread (List.mem_of_getElem? hw)
      rw [beq_iff_eq.mp hthread]
      rfl
    have hlt : 0 < s.workers.length := by
      rw [hk.stops.workers]
      exact config.workers_pos
    have hfirst := List.all_eq_true.mp hexited _ (List.getElem_mem hlt)
    have hqueue := hk.stops.drained
      ((List.getElem?_eq_getElem hlt).trans (congrArg some (beq_iff_eq.mp hfirst)))
    have htracked := hk.inv.tracked
    rw [hqueue] at htracked
    exact htracked.drained hidle hmem
  dropped := fun hphase => allExited_iff.mpr (hk.stops.joined hphase)
  progress := fun _ hmem hstage => progress_of hk.inv hk.stops hmem hstage
  finishes := fun job hmem => by
    refine ⟨?_, fun actions t hexec hsteps => hk.finishes hmem hexec hsteps⟩
    rw [← hk.stops.workers]
    exact s.remaining_le job
  stopping := stopping_of hk.inv hk.stops
  drops := fun hphase _ _ hexec hsteps => hk.drops hphase hexec hsteps

/-- **Whoever moves, the registries, the queue, the workers and the counters
account for every job.** -/
theorem scheduler_accounted (config : SchedulerConfig) (actions : List SchedulerAction) :
    Runs.Always (step config) (Accounted config) (.init config) actions := by
  rw [Runs.always_iff_prefix]
  intro taken _ s hs
  have hk := Runs.exec_invariant (fun _ _ _ (hk : Kept config _) h => hk.step h) taken
    (.init config) s ⟨inv_init config, counted_init config, stops_init config⟩ hs
  exact accounted_of hk

/-- One connection, one worker and a queue for one job. -/
def oneWorker : SchedulerConfig where
  connections := 1
  workers := 1
  queueDepth := 1
  env := Connection.pingEnv
  workers_pos := Nat.one_pos
  queueDepth_pos := Nat.one_pos

/-- A ping is admitted, run and done with. -/
def onePing : List SchedulerAction :=
  [.connection 0 (.send Connection.pingLine), .connection 0 .read, .connection 0 (.turn {}),
    .connection 0 (.turn {}), .submit 0, .submit 0, .worker 0 Connection.pingDispatch,
    .worker 0 Connection.pingDispatch, .worker 0 Connection.pingDispatch,
    .connection 0 (.work 0 {}), .connection 0 (.work 0 {}), .connection 0 (.work 0 {}),
    .connection 0 (.work 0 {}), .connection 0 (.work 0 {}), .worker 0 Connection.pingDispatch]

/-- The one worker runs the ping, and everything is accounted for. -/
theorem scheduler_accounted_ping :
    ∃ s, Runs.exec (step oneWorker) (.init oneWorker) onePing = some s ∧
      s.executed = [(0, 0)] ∧ s.remaining (0, 0) = 0 ∧ Accounted oneWorker s := by
  have hrun : (Runs.exec (step oneWorker) (.init oneWorker) onePing).any
      (fun s => s.executed == [(0, 0)] && s.remaining (0, 0) == 0) = true := by decide +kernel
  obtain ⟨s, hs, hend⟩ := (Option.any_eq_true _ _).mp hrun
  obtain ⟨hexecuted, hremaining⟩ := Bool.and_eq_true_iff.mp hend
  refine ⟨s, hs, beq_iff_eq.mp hexecuted, beq_iff_eq.mp hremaining, ?_⟩
  exact (Runs.always_iff_prefix _ _).mp (scheduler_accounted oneWorker onePing) _ List.prefix_rfl s hs

end Scheduler
end VcdTools.Server
