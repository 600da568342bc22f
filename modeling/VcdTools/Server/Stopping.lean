import VcdTools.Lib.Potential
import VcdTools.Server.Answers

/-! # How a stopped request ends

A request that is cancelled, is late or has lost its client sends nothing more,
and its handler fails at its next send. What is left to the worker then are a
few looks, unless it has to wait for room in the channel until `give_up`. -/
namespace VcdTools.Server
open VcdTools.Lib

variable {ser : Json.Serializer} {job next : Job} {look : Look}

/-- A look that keeps nobody waiting: the request is to stop, and the channel
takes a frame, is closed, or `give_up` has passed. -/
structure Look.Stops (look : Look) : Prop where
  request : look.cancelled = true ∨ look.expired = true ∨ look.hangup = true
  channel : look.channel ≠ .full ∨ look.gaveUp = true

/-- The handler fails at the first frame that it cannot send. -/
def Job.Asks (job : Job) : Prop :=
  ∀ program, job.program = some program → program.Asks fun _ => True

/-- The looks that a stopped job may still take. -/
def WorkerPc.left : WorkerPc → Nat
  | .entering _ => 6
  | .dispatching (.call _ _) => 5
  | .sending _ _ _ => 4
  | .dispatching _ => 3
  | .ending _ => 2
  | .terminating _ => 1
  | .done => 0

theorem Job.Asks.step (h : job.Asks) (hs : job.step ser look = some next) : next.Asks := by
  intro program hprogram
  obtain ⟨before, hbefore, hafter⟩ := Job.program_step hs hprogram
  exact (h before hbefore).after hafter

theorem left_zero {pc : WorkerPc} (h : pc.left = 0) : pc = .done := by
  unfold WorkerPc.left at h
  split at h
  all_goals first | rfl | cases h

theorem left_dispatching (program : Dispatch Unit) : (WorkerPc.dispatching program).left ≤ 5 := by
  cases program <;> simp [WorkerPc.left]

theorem left_refused {frame : ResponseFrame} {k : Except ProtocolError Unit → Dispatch Unit}
    (hk : (Proc.call frame k : Dispatch Unit).Asks fun _ => True) (error : ProtocolError) :
    (WorkerPc.dispatching (k (.error error))).left = 3 := by
  cases hk with
  | call _ hrefused _ =>
    obtain ⟨e, he⟩ := hrefused error
    rw [he]
    rfl

/-- The answer to a send at such a look. -/
theorem sendTurn_left {output : OutputSink} {disconnected : Bool} {frame : ResponseFrame}
    {lifecycle : OutputLifecycle} {k : Except ProtocolError Unit → Dispatch Unit}
    (hl : look.Stops) (hk : (Proc.call frame k : Dispatch Unit).Asks fun _ => True) :
    (output.sendTurn (disconnected || look.hangup) frame lifecycle k look).pc.left = 3 := by
  unfold OutputSink.sendTurn
  cases hc : requestCheck look with
  | error error => exact left_refused hk error
  | ok u =>
    have hhangup : look.hangup = true := by
      unfold requestCheck at hc
      rcases hl.request with h | h | h
      · rw [h] at hc
        cases hc
      · rw [h] at hc
        split at hc <;> cases hc
      · exact h
    simp only [hhangup, Bool.or_true, if_true]
    exact left_refused hk _

/-- **One such look brings the job nearer to its end.** -/
theorem left_step (hasks : job.Asks) (hl : look.Stops) (hrunning : job.pc ≠ .done) :
    ∃ next, job.step ser look = some next ∧ next.pc.left < job.pc.left := by
  obtain ⟨output, disconnected, pc⟩ := job
  cases pc with
  | entering program =>
    refine ⟨_, rfl, ?_⟩
    cases requestCheck look with
    | error e => simp [WorkerPc.left]
    | ok u => exact Nat.lt_succ_of_le (left_dispatching program)
  | dispatching program =>
    refine ⟨_, rfl, ?_⟩
    cases program with
    | done result => cases result <;> simp [OutputSink.dispatchTurn, afterDispatch, WorkerPc.left]
    | panic => simp [OutputSink.dispatchTurn, WorkerPc.left]
    | call frame k =>
      simp only [OutputSink.dispatchTurn]
      split
      · rw [left_refused (hasks _ rfl)]
        simp [WorkerPc.left]
      · simp [WorkerPc.left]
  | sending frame lifecycle k =>
    refine ⟨_, rfl, ?_⟩
    rw [sendTurn_left hl (hasks _ rfl)]
    simp [WorkerPc.left]
  | ending error =>
    refine ⟨_, rfl, ?_⟩
    unfold OutputSink.requireTerminal
    repeat' split
    all_goals simp [WorkerPc.left]
  | terminating frame =>
    refine ⟨_, rfl, ?_⟩
    unfold OutputSink.terminalTurn
    split
    · simp [WorkerPc.left]
    · split
      · simp [WorkerPc.left]
      · rename_i hfull
        rw [if_pos (hl.channel.resolve_left fun h => h hfull)]
        simp [WorkerPc.left]
      · simp [WorkerPc.left]
  | done => exact absurd rfl hrunning

/-- No job has more looks left than one that has not looked yet. -/
theorem left_le (pc : WorkerPc) : pc.left ≤ 6 := by
  cases pc with
  | dispatching program => exact (left_dispatching program).trans (by decide)
  | entering _ | sending _ _ _ | ending _ | terminating _ | done => simp [WorkerPc.left]

theorem Configured.start_asks (server : Configured) (incoming : Incoming) (disconnected : Bool) :
    (server.start incoming disconnected).Asks := by
  intro program hprogram
  cases hprogram
  exact (dispatchInner_only server.service server.frameBytes_pos server.frameBytes_u64
    incoming.request.method incoming.env).mono fun _ _ => trivial

/-- **A stopped request is soon through.** In every state of every run of a
request, whatever method it is and whatever it reads: six looks that find the
request stopped and the channel not full, and the worker is done, with one whole
response enqueued or the connection marked disconnected. -/
theorem stopped_ends {server : Configured} {incoming : Incoming} {disconnected : Bool}
    {looks more : List Look} {job : Job}
    (h : Runs.exec (Job.step server.ser) (server.start incoming disconnected) looks = some job)
    (hmore : ∀ look ∈ more, look.Stops) (hlen : 6 ≤ more.length) :
    ∃ used last, used <+: more ∧ Runs.exec (Job.step server.ser) job used = some last ∧
      last.pc = .done ∧
      (Response incoming.request.id last.output.enqueued ∨ last.disconnected = true) := by
  have hstep : ∀ job look next, JobOk incoming.request.id job ∧ job.Asks →
      job.step server.ser look = some next → JobOk incoming.request.id next ∧ next.Asks :=
    fun _ _ _ hj hs => ⟨hj.1.step hs, hj.2.step hs⟩
  have hjob := Runs.exec_invariant hstep looks _ _
    ⟨jobOk_start _ _ _, server.start_asks incoming disconnected⟩ h
  have hzero : ∀ job : Job, JobOk incoming.request.id job ∧ job.Asks → job.pc.left = 0 →
      job.pc = .done := fun _ _ hzero => left_zero hzero
  have hnearer : ∀ (job : Job) (look : Look), JobOk incoming.request.id job ∧ job.Asks →
      look.Stops → job.pc ≠ .done → ∃ next, job.step server.ser look = some next ∧
        (JobOk incoming.request.id next ∧ next.Asks) ∧ next.pc.left < job.pc.left := by
    intro job look hj hl hrunning
    obtain ⟨next, hnext, hless⟩ := left_step hj.2 hl hrunning
    exact ⟨next, hnext, hstep _ _ _ hj hnext, hless⟩
  obtain ⟨used, last, hused, hlast, hdone⟩ :=
    Potential.exists_prefix_over hzero hnearer more job hjob hmore
      ((left_le job.pc).trans hlen)
  obtain ⟨hok, -⟩ := Runs.exec_invariant hstep used _ _ hjob hlast
  refine ⟨used, last, hused, hlast, hdone, ?_⟩
  have hpc := hok.pc
  rw [hdone] at hpc
  exact hpc.imp_left hok.spoken.response.2

/-- Nobody reads what a stream sends, and its client asks for it no longer. -/
theorem stopped_ends_list : ∃ job,
    Runs.exec (Job.step smallServer.ser) (smallServer.start smallIncoming false)
      (.replicate 5 { channel := .full }) = some job ∧
    ∃ used last, used <+: List.replicate 6 { cancelled := true, channel := .full, gaveUp := true } ∧
      Runs.exec (Job.step smallServer.ser) job used = some last ∧ last.pc = .done ∧
      (Response "q" last.output.enqueued ∨ last.disconnected = true) := by
  have hsome : (Runs.exec (Job.step smallServer.ser) (smallServer.start smallIncoming false)
      (.replicate 5 { channel := .full })).isSome = true := by decide +kernel
  obtain ⟨job, h⟩ := Option.isSome_iff_exists.mp hsome
  refine ⟨job, h, stopped_ends h (fun look hlook => ?_) (by simp)⟩
  cases List.eq_of_mem_replicate hlook
  exact ⟨.inl rfl, .inr rfl⟩

end VcdTools.Server
