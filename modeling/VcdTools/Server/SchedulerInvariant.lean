import VcdTools.Lib.Runs
import VcdTools.Server.SchedulerMoves
import VcdTools.Server.SchedulerStages

/-! # Every job is in one place

On every connection the registry and the answers agree with the places of the
lines, and across connections every job is in the queue, with one worker, or
done with. What was turned away never came into the queue. -/
namespace VcdTools.Server
open VcdTools.Lib Requests JobQueue

/-- The reader is inside `submit` only with a job to submit. -/
structure Served.Ok (env : ConnectionEnv) (served : Served) : Prop where
  ledger : served.ledger.Inv env
  submit : served.submit ≠ .outside → ∃ i request,
    served.ledger.connection.reader = .submitting i request

/-- The job of the worker is as far as the worker is. -/
def WorkerThread.Fits (stage : Nat × Nat → Stage) : WorkerThread → Prop
  | .taken c i | .uncounted c i => stage (c, i) = .queued
  | .serving c i => stage (c, i) = .running
  | .waiting | .released | .completing | .exited => True

theorem WorkerThread.Fits.aside {stage stage' : Nat × Nat → Stage} {thread : WorkerThread}
    (h : thread.Fits stage) (haside : ∀ job, (stage job).Aside (stage' job)) :
    thread.Fits stage' := by
  cases thread with
  | taken c i | uncounted c i | serving c i =>
    exact ((haside (c, i)).eq (by rw [show stage (c, i) = _ from h]; decide)).trans h
  | waiting | released | completing | exited => trivial

theorem WorkerThread.Fits.update {stage : Nat × Nat → Stage} {thread : WorkerThread}
    {job : Nat × Nat} {st : Stage} (h : thread.Fits stage) (hjob : thread.job? ≠ some job) :
    thread.Fits (Function.update stage job st) := by
  cases thread with
  | taken c i | uncounted c i | serving c i =>
    exact (Function.update_of_ne (fun heq => hjob (congrArg some heq)) ..).trans h
  | waiting | released | completing | exited => trivial

namespace Scheduler
variable {config : SchedulerConfig} {s s' : Scheduler} {c i w : Nat} {served served' : Served}
  {thread thread' : WorkerThread} {job : Nat × Nat} {st : Stage}

def stage (s : Scheduler) (job : Nat × Nat) : Stage :=
  match s.connections[job.1]? with
  | some served => (served.ledger.connection.places job.2).stage
  | none => .before

structure Inv (config : SchedulerConfig) (s : Scheduler) : Prop where
  served : ∀ {c : Nat} {served : Served}, s.connections[c]? = some served → served.Ok config.env
  tracked : Tracked s.stage s.queuedJobs s.claims s.admitted s.executed
  threads : ∀ {w : Nat} {thread : WorkerThread}, s.workers[w]? = some thread → thread.Fits s.stage
  dismissed : ∀ {c : Nat} {served : Served} {i frame}, s.connections[c]? = some served →
    (i, frame) ∈ served.ledger.dismissed → (c, i) ∉ s.admitted

/-! ## What an update changes -/

theorem stage_served (h : s.connections[c]? = some served) (i : Nat) :
    s.stage (c, i) = (served.ledger.connection.places i).stage := by
  simp only [stage, h]

theorem stage_setServed_self (h : s.connections[c]? = some served) (i : Nat) :
    (s.setServed c served').stage (c, i) = (served'.ledger.connection.places i).stage :=
  stage_served (Pool.get_set_self h) i

theorem stage_setServed_ne (h : job.1 ≠ c) :
    (s.setServed c served').stage job = s.stage job := by
  simp only [stage, setServed, List.getElem?_set_ne (Ne.symm h)]

theorem stage_aside (served' : Served) (h : s.connections[c]? = some served)
    (haside : ∀ i, (served.ledger.connection.places i).stage.Aside
      (served'.ledger.connection.places i).stage) (job : Nat × Nat) :
    (s.stage job).Aside ((s.setServed c served').stage job) := by
  by_cases hc : job.1 = c
  · subst hc
    rw [stage_served h, stage_setServed_self h]
    exact haside job.2
  · rw [stage_setServed_ne hc]
    exact .inl rfl

theorem stage_moves (served' : Served) (h : s.connections[c]? = some served)
    (hmoves : Ledger.Moves served.ledger served'.ledger i st) :
    (s.setServed c served').stage = Function.update s.stage (c, i) st := by
  funext job
  by_cases hjob : job = (c, i)
  · subst hjob
    rw [Function.update_self, stage_setServed_self h]
    exact hmoves.self
  · rw [Function.update_of_ne hjob]
    by_cases hc : job.1 = c
    · subst hc
      rw [stage_served h, stage_setServed_self h]
      exact hmoves.others job.2 fun heq => hjob (by rw [← heq])
    · exact stage_setServed_ne hc

theorem claims_get (hw : s.workers[w]? = some thread) : s.claims w = thread.job? := by
  rw [claims, hw]
  rfl

theorem claims_setWorker (thread' : WorkerThread) (hw : s.workers[w]? = some thread) :
    (s.setWorker w thread').claims = Function.update s.claims w thread'.job? := by
  funext v
  by_cases hv : v = w
  · subst hv
    rw [Function.update_self]
    exact claims_get (Pool.get_set_self hw)
  · rw [Function.update_of_ne hv, claims, setWorker, List.getElem?_set_ne (Ne.symm hv)]
    rfl

/-- The worker keeps its job, or still has none. -/
theorem claims_keep (hw : s.workers[w]? = some thread) (hjob : thread'.job? = thread.job?) :
    (s.setWorker w thread').claims = s.claims := by
  rw [claims_setWorker thread' hw, hjob, ← claims_get hw, Function.update_eq_self]

/-- A `Stop` is no job. -/
theorem queuedJobs_stop :
    (s.queue ++ [Work.stop]).filterMap Work.job? = s.queuedJobs := by
  rw [List.filterMap_append]
  exact List.append_nil _

theorem served_set (served' : Served) (hi : Inv config s) (hok : served'.Ok config.env) {d : Nat} {other : Served}
    (h : (s.setServed c served').connections[d]? = some other) : other.Ok config.env := by
  rcases Pool.get_set h with ⟨_, rfl⟩ | ⟨_, h⟩
  · exact hok
  · exact hi.served h

theorem dismissed_set (served' : Served) (hi : Inv config s) (h : s.connections[c]? = some served)
    (hsame : served'.ledger.dismissed = served.ledger.dismissed) {d k : Nat} {other : Served}
    {frame : ResponseFrame} (hother : (s.setServed c served').connections[d]? = some other)
    (hmem : (k, frame) ∈ other.ledger.dismissed) : (d, k) ∉ s.admitted := by
  rcases Pool.get_set hother with ⟨rfl, rfl⟩ | ⟨_, hother⟩
  · exact hi.dismissed h (hsame ▸ hmem)
  · exact hi.dismissed hother hmem

/-! ## The connections -/

theorem Inv.own (hi : Inv config s) {ledger : Ledger} {action : ConnectionAction}
    (hserved : s.connections[c]? = some served)
    (hown : action.own served.ledger.connection.reader = true)
    (hledger : served.ledger.step config.env action = some ledger) :
    Inv config (s.setServed c { served with ledger }) := by
  have hok := hi.served hserved
  obtain ⟨hnext, hdismissed⟩ := Ledger.of_step hledger
  have haside := stage_aside { served with ledger } hserved
    (Connection.aside_own hok.ledger.connection hown hnext)
  refine ⟨served_set _ hi ⟨hok.ledger.step hledger, fun hsubmit => ?_⟩, hi.tracked.aside haside,
    fun hthread => (hi.threads hthread).aside haside, fun {d _ k frame} hother hmem => ?_⟩
  · obtain ⟨i, request, hreader⟩ := hok.submit hsubmit
    exact ⟨i, request,
      (Connection.reader_own hown (.inl ⟨i, request, hreader⟩) hnext).trans hreader⟩
  · rcases Pool.get_set hother with ⟨rfl, rfl⟩ | ⟨_, hother⟩
    · rw [show ({ served with ledger } : Served).ledger.dismissed = _ from hdismissed] at hmem
      rcases List.mem_append.mp hmem with hmem | hmem
      · exact hi.dismissed hserved hmem
      · -- what is turned away now has not been admitted
        have hbefore := Ledger.dismisses_before hok.ledger hmem
        rw [← stage_served hserved] at hbefore
        intro hadmitted
        rcases (hi.tracked.admitted_iff _).mp hadmitted with hs | hs
        · cases hbefore.symm.trans hs
        · rcases hi.tracked.executed_stage _ hs with hs | hs
          · cases hbefore.symm.trans hs
          · cases hbefore.symm.trans hs
    · exact hi.dismissed hother hmem

/-- The reader goes on in `submit`, and the job is where it was. -/
theorem Inv.submitting (hi : Inv config s) (submit : SubmitPc) {request : Request}
    (hserved : s.connections[c]? = some served)
    (hreader : served.ledger.connection.reader = .submitting i request) :
    Inv config (s.setServed c { served with submit }) := by
  have haside := stage_aside { served with submit } hserved
    fun i => .inl rfl
  exact ⟨served_set { served with submit } hi ⟨(hi.served hserved).ledger, fun _ => ⟨i, request, hreader⟩⟩,
    hi.tracked.aside haside, fun hthread => (hi.threads hthread).aside haside,
    dismissed_set { served with submit } hi hserved rfl⟩

theorem Inv.reject (hi : Inv config s) {ledger : Ledger} {request : Request}
    (hserved : s.connections[c]? = some served)
    (hreader : served.ledger.connection.reader = .submitting i request)
    (hledger : served.ledger.step config.env (.turn { queueFull := true }) = some ledger) :
    Inv config (s.setServed c ⟨ledger, .outside⟩) := by
  have hok := hi.served hserved
  obtain ⟨hmoves, _⟩ := Ledger.refuse_moves hok.ledger hreader hledger
  have hplace := hok.ledger.connection.reader
  simp only [Connection.ReaderOk, hreader] at hplace
  have haside := stage_aside ⟨ledger, .outside⟩ hserved fun j => by
    by_cases hji : j = i
    · subst hji
      exact .inl (hmoves.self.trans (by rw [hplace]; rfl))
    · exact .inl (hmoves.others j hji)
  exact ⟨served_set _ hi ⟨hok.ledger.step hledger, fun h => absurd rfl h⟩,
    hi.tracked.aside haside, fun hthread => (hi.threads hthread).aside haside,
    dismissed_set _ hi hserved hmoves.dismissed⟩

theorem Inv.accept (hi : Inv config s) {ledger : Ledger} {request : Request}
    (hserved : s.connections[c]? = some served)
    (hreader : served.ledger.connection.reader = .submitting i request)
    (hledger : served.ledger.step config.env (.turn {}) = some ledger) :
    Inv config { s.setServed c ⟨ledger, .outside⟩ with
      queue := s.queue ++ [.job c i], admitted := s.admitted ++ [(c, i)] } := by
  have hok := hi.served hserved
  obtain ⟨hbefore, hmoves, _⟩ := Ledger.submit_moves hok.ledger hreader hledger
  have hstage := stage_moves ⟨ledger, .outside⟩ hserved hmoves
  have hjob : s.stage (c, i) = .before := (stage_served hserved i).trans hbefore
  have hunclaimed : ∀ {v : Nat} {other : WorkerThread}, s.workers[v]? = some other → other.job? ≠ some (c, i) := by
    intro v other hother hclaim
    have hscheduled := ((hi.tracked.leased.active_iff _).mpr
      ⟨v, (claims_get hother).trans hclaim⟩).1
    rw [hjob] at hscheduled
    cases hscheduled
  refine ⟨served_set _ hi ⟨hok.ledger.step hledger, fun h => absurd rfl h⟩, ?_, ?_, ?_⟩
  · have htracked := hi.tracked.accept hjob
    rw [← hstage] at htracked
    have hqueue : s.queuedJobs ++ [(c, i)] = (s.queue ++ [Work.job c i]).filterMap Work.job? := by
      rw [List.filterMap_append]
      rfl
    rw [hqueue] at htracked
    exact htracked
  · intro v other hother
    show other.Fits (s.setServed c ⟨ledger, .outside⟩).stage
    rw [hstage]
    exact (hi.threads hother).update (hunclaimed hother)
  · intro d other k frame hother hmem hadmitted
    rcases List.mem_append.mp hadmitted with hadmitted | hadmitted
    · exact dismissed_set _ hi hserved hmoves.dismissed hother hmem hadmitted
    · cases List.mem_singleton.mp hadmitted
      have hgone : (served.ledger.connection.places i).stage = .after := by
        rcases Pool.get_set hother with ⟨_, rfl⟩ | ⟨hne, _⟩
        · rw [hok.ledger.gone i frame (hmoves.dismissed ▸ hmem)]
          rfl
        · exact absurd rfl hne
      cases hbefore.symm.trans hgone

/-! ## The workers -/

/-- A worker goes on with what it has. -/
theorem Inv.onward (hi : Inv config s) (thread' : WorkerThread) (hw : s.workers[w]? = some thread)
    (hjob : thread'.job? = thread.job?) (hfits : thread'.Fits s.stage)
    (hconnections : s'.connections = s.connections)
    (hworkers : s'.workers = s.workers.set w thread') (hqueue : s'.queuedJobs = s.queuedJobs)
    (hadmitted : s'.admitted = s.admitted) (hexecuted : s'.executed = s.executed) :
    Inv config s' := by
  have hstage : s'.stage = s.stage := by
    funext job
    simp only [stage, hconnections]
  have hclaims : s'.claims = s.claims := by
    refine Eq.trans ?_ (claims_keep hw hjob)
    funext v
    simp only [claims, hworkers, setWorker]
  constructor
  · rw [hconnections]
    exact hi.served
  · rw [hstage, hqueue, hclaims, hadmitted, hexecuted]
    exact hi.tracked
  · intro v other hother
    rw [hstage]
    rw [hworkers] at hother
    rcases Pool.get_set hother with ⟨_, rfl⟩ | ⟨_, hother⟩
    · exact hfits
    · exact hi.threads hother
  · rw [hconnections, hadmitted]
    exact hi.dismissed

theorem Inv.recvJob (hi : Inv config s) {rest : List Work} (hw : s.workers[w]? = some .waiting)
    (hqueue : s.queue = .job c i :: rest) :
    Inv config { s.setWorker w (.taken c i) with queue := rest } := by
  have htracked := hi.tracked
  have hjobs : s.queuedJobs = (c, i) :: rest.filterMap Work.job? := by
    rw [queuedJobs, hqueue]
    rfl
  rw [hjobs] at htracked
  refine ⟨hi.served, ?_, ?_, hi.dismissed⟩
  · have htaken := htracked.take (claims_get hw)
    rw [show some (c, i) = (WorkerThread.taken c i).job? from rfl,
      ← claims_setWorker (.taken c i) hw] at htaken
    exact htaken
  · intro v other hother
    rcases Pool.get_set hother with ⟨_, rfl⟩ | ⟨_, hother⟩
    · exact htracked.queue_stage _ List.mem_cons_self
    · exact hi.threads hother

/-- Nobody else has the job of a worker. -/
theorem Inv.others_job (hi : Inv config s) (hw : s.workers[w]? = some thread)
    (hjob : thread.job? = some job) {v : Nat} (hv : w ≠ v) {other : WorkerThread}
    (hother : s.workers[v]? = some other) : other.job? ≠ some job := fun hclaim =>
  hv (hi.tracked.leased.distinct ((claims_get hw).trans hjob) ((claims_get hother).trans hclaim))

theorem Inv.start (hi : Inv config s) {ledger : Ledger} {program : Dispatch Unit}
    (hw : s.workers[w]? = some (.uncounted c i)) (hserved : s.connections[c]? = some served)
    (hledger : served.ledger.step config.env (.pick i program) = some ledger) :
    Inv config { (s.setServed c { served with ledger }).setWorker w (.serving c i) with
      active := s.active + 1, executed := s.executed ++ [(c, i)] } := by
  have hok := hi.served hserved
  obtain ⟨_, hmoves, hreader⟩ := Ledger.pick_moves hledger
  have hstage := stage_moves { served with ledger } hserved hmoves
  have hclaim : s.claims w = some (c, i) := claims_get hw
  refine ⟨served_set _ hi ⟨hok.ledger.step hledger, fun hsubmit => ?_⟩, ?_, ?_,
    dismissed_set _ hi hserved hmoves.dismissed⟩
  · obtain ⟨k, request, hk⟩ := hok.submit hsubmit
    exact ⟨k, request, hreader.trans hk⟩
  · have htracked := hi.tracked.start hclaim (hi.threads hw)
    rw [← hstage, ← claims_keep hw (rfl : (WorkerThread.serving c i).job? = _)] at htracked
    exact htracked
  · intro v other hother
    show other.Fits (s.setServed c { served with ledger }).stage
    rw [hstage]
    rcases Pool.get_set hother with ⟨_, rfl⟩ | ⟨hv, hother⟩
    · exact Function.update_self ..
    · exact (hi.threads hother).update (hi.others_job hw rfl hv hother)

theorem Inv.finish (hi : Inv config s) {ledger : Ledger}
    (hw : s.workers[w]? = some (.serving c i)) (hserved : s.connections[c]? = some served)
    (hledger : served.ledger.step config.env (.release i) = some ledger) :
    Inv config ((s.setServed c { served with ledger }).setWorker w .released) := by
  have hok := hi.served hserved
  obtain ⟨_, hmoves, hreader⟩ := Ledger.release_moves hledger
  have hstage := stage_moves { served with ledger } hserved hmoves
  refine ⟨served_set _ hi ⟨hok.ledger.step hledger, fun hsubmit => ?_⟩, ?_, ?_,
    dismissed_set _ hi hserved hmoves.dismissed⟩
  · obtain ⟨k, request, hk⟩ := hok.submit hsubmit
    exact ⟨k, request, hreader.trans hk⟩
  · have htracked := hi.tracked.finish (claims_get hw) (hi.threads hw)
    rw [← hstage, show none = WorkerThread.released.job? from rfl,
      ← claims_setWorker .released hw] at htracked
    exact htracked
  · intro v other hother
    show other.Fits (s.setServed c { served with ledger }).stage
    rw [hstage]
    rcases Pool.get_set hother with ⟨_, rfl⟩ | ⟨hv, hother⟩
    · trivial
    · exact (hi.threads hother).update (hi.others_job hw rfl hv hother)

/-! ## Every step -/

theorem inv_init (config : SchedulerConfig) : Inv config (.init config) := by
  have hserved : ∀ {c : Nat} {served : Served}, (init config).connections[c]? = some served →
      served = ⟨.init config.env, .outside⟩ := by
    intro c served h
    exact List.eq_of_mem_replicate (List.mem_of_getElem? h)
  have hthread : ∀ {w : Nat} {thread : WorkerThread}, (init config).workers[w]? = some thread → thread = .waiting := by
    intro w thread h
    exact List.eq_of_mem_replicate (List.mem_of_getElem? h)
  refine ⟨fun h => ?_, ?_, fun h => ?_, fun h hmem => ?_⟩
  · rw [hserved h]
    exact ⟨Ledger.inv_init config.env, fun h => absurd rfl h⟩
  · have hstage : (init config).stage = fun _ => .before := by
      funext job
      rw [stage]
      split
      · rename_i served h
        rw [hserved h]
        rfl
      · rfl
    have hclaims : (init config).claims = fun _ => none := by
      funext w
      rw [claims, Option.bind_eq_none_iff]
      intro thread h
      rw [hthread h]
      rfl
    rw [hstage, hclaims]
    exact .initial
  · rw [hthread h]
    trivial
  · rw [hserved h] at hmem
    cases hmem

/-- **No step loses a job or puts it into two hands.** -/
theorem Inv.moved (hi : Inv config s) {a : SchedulerAction} (h : Moved config s a s') : Inv config s' := by
  cases h with
  | own hserved hown hledger => exact hi.own hserved hown hledger
  | count hserved hreader => exact { hi.submitting .counted hserved hreader with }
  | full hserved hreader => exact hi.submitting .refused hserved hreader
  | uncount hserved hreader => exact { hi.submitting .uncounted hserved hreader with }
  | accept hserved hreader _ _ hledger => exact hi.accept hserved hreader hledger
  | reject hserved hreader _ hledger => exact { hi.reject hserved hreader hledger with }
  | recvStop hw hqueue =>
    refine hi.onward .exited hw rfl trivial rfl rfl ?_ rfl rfl
    rw [queuedJobs, queuedJobs, hqueue]
    rfl
  | recvJob hw hqueue => exact hi.recvJob hw hqueue
  | untake hw =>
    have hfits := hi.threads hw
    exact hi.onward (.uncounted _ _) hw rfl hfits rfl rfl rfl rfl rfl
  | start hw hserved hledger => exact hi.start hw hserved hledger
  | finish hw hserved hledger => exact hi.finish hw hserved hledger
  | release hw => exact hi.onward .completing hw rfl trivial rfl rfl rfl rfl rfl
  | complete hw => exact hi.onward .waiting hw rfl trivial rfl rfl rfl rfl rfl
  | unshare | loseStop | stopped | joined => exact { hi with }
  | sendStop =>
    have htracked := hi.tracked
    rw [← queuedJobs_stop] at htracked
    exact { hi with tracked := htracked }

end Scheduler
end VcdTools.Server
