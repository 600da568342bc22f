import VcdTools.Lib.Runs
import VcdTools.Server.Output

/-! # From a dispatcher's program to its job

What a program guarantees against `send_frame` as a whole holds of every state
of the job that runs it: `I` on the way, `C` of every frame it is about to
send, and at the end its result, followed by at most the terminal frame of
`required_terminal`. -/
namespace VcdTools.Server
open VcdTools.Lib

variable {ser : Json.Serializer} {I : OutputSink → Prop}
  {C : OutputSink → ResponseFrame → Prop} {Q : Except ProtocolError Unit → OutputSink → Prop}
  {E : OutputSink → Prop}

/-- A program's guarantee against its own sink. -/
abbrev Guarantees (ser : Json.Serializer) (I : OutputSink → Prop)
    (C : OutputSink → ResponseFrame → Prop) {ε α : Type} (Q : Except ε α → OutputSink → Prop)
    (E : OutputSink → Prop) (p : Proc ResponseFrame (Except ProtocolError Unit) ε α)
    (output : OutputSink) : Prop :=
  p.Meets (SendFrame ser) I C Q E output

/-- The error `required_terminal` is called with, and why. -/
inductive EndsWith (Q : Except ProtocolError Unit → OutputSink → Prop) (E : OutputSink → Prop)
    (output : OutputSink) : ProtocolError → Prop
  | unstarted {error} : output.enqueued = [] → error ∈ [queryCancelled, queryDeadlineExceeded] →
      EndsWith Q E output error
  | returned : Q (.ok ()) output → EndsWith Q E output noTerminalError
  | failed {error} : Q (.error error) output → EndsWith Q E output error
  | panicked : E output → EndsWith Q E output panicError

/-- What holds of the job between two looks. -/
inductive Follows (ser : Json.Serializer) (I : OutputSink → Prop)
    (C : OutputSink → ResponseFrame → Prop) (Q : Except ProtocolError Unit → OutputSink → Prop)
    (E : OutputSink → Prop) : Job → Prop
  | entering {output disconnected program} : output.enqueued = [] →
      Guarantees ser I C Q E program output →
      Follows ser I C Q E ⟨output, disconnected, .entering program⟩
  | dispatching {output disconnected program} : Guarantees ser I C Q E program output →
      Follows ser I C Q E ⟨output, disconnected, .dispatching program⟩
  | sending {output disconnected frame nextLifecycle next} : I output →
      output.accept ser frame = .ok nextLifecycle →
      (∀ answer output', SendFrame ser output frame answer output' →
        Guarantees ser I C Q E (next answer) output') →
      Follows ser I C Q E ⟨output, disconnected, .sending frame nextLifecycle next⟩
  | ending {output disconnected error} : I output → EndsWith Q E output error →
      Follows ser I C Q E ⟨output, disconnected, .ending error⟩
  | terminating {output disconnected error frame line} : I output → EndsWith Q E output error →
      output.terminalFrame error = some frame → output.encodeBounded ser frame = .ok line →
      Follows ser I C Q E ⟨output, disconnected, .terminating frame⟩
  | silent {output disconnected error} : I output → EndsWith Q E output error →
      Follows ser I C Q E ⟨output, disconnected, .done⟩
  | terminated {output disconnected error frame line} : I output → EndsWith Q E output error →
      output.terminalFrame error = some frame → output.encodeBounded ser frame = .ok line →
      Follows ser I C Q E ⟨output.push frame .terminal, disconnected, .done⟩

theorem requestCheck_error {look : Look} {error : ProtocolError}
    (h : requestCheck look = .error error) : error ∈ [queryCancelled, queryDeadlineExceeded] := by
  unfold requestCheck at h
  split at h
  · cases h
    exact List.mem_cons_self
  · split at h <;> cases h
    exact List.mem_cons_of_mem _ List.mem_cons_self

theorem dispatchTurn_follows {output : OutputSink} {disconnected : Bool}
    {program : Dispatch Unit} (hp : Guarantees ser I C Q E program output) :
    Follows ser I C Q E (output.dispatchTurn ser disconnected program) := by
  cases hp with
  | @done result _ hi hq =>
    cases result with
    | ok u => exact .ending hi (.returned hq)
    | error e => exact .ending hi (.failed hq)
  | panic hi he => exact .ending hi (.panicked he)
  | call hi hc hnext =>
    unfold OutputSink.dispatchTurn
    simp only
    split
    · exact .dispatching (hnext _ _ (.rejected ‹_›))
    · exact .sending hi ‹_› hnext

theorem sendTurn_follows {output : OutputSink} {disconnected : Bool} {frame : ResponseFrame}
    {nextLifecycle : OutputLifecycle} {next : Except ProtocolError Unit → Dispatch Unit}
    {look : Look} (hi : I output) (ha : output.accept ser frame = .ok nextLifecycle)
    (hn : ∀ answer output', SendFrame ser output frame answer output' →
      Guarantees ser I C Q E (next answer) output') :
    Follows ser I C Q E (output.sendTurn disconnected frame nextLifecycle next look) := by
  have hung : connectionDisconnected ∈
      [queryCancelled, queryDeadlineExceeded, connectionDisconnected] := by simp
  unfold OutputSink.sendTurn
  split
  · rename_i hc
    refine .dispatching (hn _ _ (.refused ha ?_))
    exact List.mem_append_left [connectionDisconnected] (requestCheck_error hc)
  · split
    · exact .dispatching (hn _ _ (.refused ha hung))
    · split
      · exact .dispatching (hn _ _ (.enqueued ha))
      · exact .sending hi ha hn
      · exact .dispatching (hn _ _ (.refused ha hung))

/-- **One look keeps it.** -/
theorem Follows.step {job job' : Job} {look : Look} (hf : Follows ser I C Q E job)
    (h : job.step ser look = some job') : Follows ser I C Q E job' := by
  cases hf with
  | @entering output disconnected program hnil hp =>
    cases Option.some.inj h
    cases hc : requestCheck look with
    | ok u => exact .dispatching hp
    | error e => exact .ending hp.inv (.unstarted hnil (requestCheck_error hc))
  | dispatching hp =>
    cases Option.some.inj h
    exact dispatchTurn_follows hp
  | sending hi ha hn =>
    cases Option.some.inj h
    exact sendTurn_follows hi ha hn
  | ending hi he =>
    cases Option.some.inj h
    unfold OutputSink.requireTerminal
    split
    · exact .silent hi he
    · split
      · exact .terminating hi he ‹_› ‹_›
      · exact .silent hi he
  | terminating hi he hframe hline =>
    cases Option.some.inj h
    unfold OutputSink.terminalTurn
    split
    · exact .silent hi he
    · split
      · exact .terminated hi he hframe hline
      · split
        · exact .silent hi he
        · exact .terminating hi he hframe hline
      · exact .silent hi he
  | silent hi he | terminated hi he hframe hline => cases h

/-- **Every state of a job follows its program.** -/
theorem follows_of_guarantees {id : String} {maxEncodedFrameBytes : Nat} {disconnected : Bool}
    {program : Dispatch Unit} {looks : List Look} {job : Job}
    (hp : Guarantees ser I C Q E program
      (Job.start id maxEncodedFrameBytes disconnected program).output)
    (h : Runs.exec (Job.step ser) (.start id maxEncodedFrameBytes disconnected program) looks =
      some job) : Follows ser I C Q E job :=
  Runs.exec_invariant (fun _ _ _ hf hs => Follows.step hf hs) looks _ _ (.entering rfl hp) h

/-! ## What the dispatcher is told -/

/-- What a look lets `send_frame` return. -/
def Job.returned (ser : Json.Serializer) (job : Job) (look : Look) :
    List (Except ProtocolError Unit) :=
  match job.pc with
  | .dispatching (.call frame _) =>
    match job.output.accept ser frame with
    | .error error => [.error error]
    | .ok _ => []
  | .sending _ _ _ =>
    match requestCheck look with
    | .error error => [.error error]
    | .ok () =>
      if job.disconnected || look.hangup then [.error connectionDisconnected]
      else match look.channel with
        | .room => [.ok ()]
        | .full => []
        | .closed => [.error connectionDisconnected]
  | _ => []

/-- All answers the dispatcher gets during a run. -/
def Job.answers (ser : Json.Serializer) : Job → List Look → List (Except ProtocolError Unit)
  | _, [] => []
  | job, look :: looks =>
    job.returned ser look ++ ((job.step ser look).elim [] fun job' => job'.answers ser looks)

/-- What the dispatcher still has to do. -/
def Job.program (job : Job) : Option (Dispatch Unit) :=
  match job.pc with
  | .entering program | .dispatching program => some program
  | .sending frame _ next => some (.call frame next)
  | .ending _ | .terminating _ | .done => none

/-- A step of a job is no step of its program, or the answer to its call. -/
theorem Job.program_step {job job' : Job} {look : Look} {program' : Dispatch Unit}
    (h : job.step ser look = some job') (hp : job'.program = some program') :
    ∃ program, job.program = some program ∧
      program.after (job.returned ser look) = some program' := by
  obtain ⟨output, disconnected, pc⟩ := job
  cases pc with
  | entering program =>
    cases Option.some.inj h
    refine ⟨program, rfl, ?_⟩
    cases hc : requestCheck look with
    | error e => rw [Job.program, hc] at hp; cases hp
    | ok u => rw [Job.program, hc] at hp; exact hp
  | dispatching program =>
    cases Option.some.inj h
    refine ⟨program, rfl, ?_⟩
    cases program with
    | done result => cases result <;> cases hp
    | panic => cases hp
    | call frame next =>
      simp only [OutputSink.dispatchTurn, Job.returned] at hp ⊢
      cases ha : output.accept ser frame with
      | error e => rw [ha] at hp; exact hp
      | ok lifecycle => rw [ha] at hp; exact hp
  | sending frame lifecycle next =>
    cases Option.some.inj h
    refine ⟨.call frame next, rfl, ?_⟩
    simp only [OutputSink.sendTurn, Job.returned] at hp ⊢
    cases hc : requestCheck look with
    | error e => rw [hc] at hp; exact hp
    | ok u =>
      rw [hc] at hp
      cases hd : disconnected || look.hangup with
      | true => simp only [hd, if_true] at hp; exact hp
      | false =>
        simp only [hd, Bool.false_eq_true, if_false] at hp ⊢
        cases hch : look.channel with
        | room | full | closed => rw [hch] at hp; exact hp
  | ending error =>
    cases Option.some.inj h
    simp only [OutputSink.requireTerminal] at hp
    split at hp
    · cases hp
    · split at hp <;> cases hp
  | terminating frame =>
    cases Option.some.inj h
    simp only [OutputSink.terminalTurn] at hp
    split at hp
    · cases hp
    · split at hp
      · cases hp
      · split at hp <;> cases hp
      · cases hp
  | done => cases h

/-- **A run of a job is its program under the answers of the run.** -/
theorem Job.program_exec {looks : List Look} {job job' : Job} {program' : Dispatch Unit}
    (h : Runs.exec (Job.step ser) job looks = some job') (hp : job'.program = some program') :
    ∃ program, job.program = some program ∧
      program.after (job.answers ser looks) = some program' := by
  induction looks generalizing job with
  | nil =>
    cases Option.some.inj h
    exact ⟨program', hp, rfl⟩
  | cons look looks ih =>
    obtain ⟨next, hnext, hrest⟩ := Option.bind_eq_some_iff.mp h
    obtain ⟨p, hnp, hafter⟩ := ih hrest
    obtain ⟨program, hprogram, hfirst⟩ := Job.program_step hnext hnp
    refine ⟨program, hprogram, ?_⟩
    rw [Job.answers, hnext, Proc.after_append, hfirst]
    exact hafter

/-! ## The end of a failed dispatcher -/

/-- What becomes of a job whose dispatcher has returned `error`: at most its
terminal frame is still sent. -/
inductive Closing (output : OutputSink) (error : ProtocolError) : Job → Prop
  | returned {disconnected} :
      Closing output error ⟨output, disconnected, .dispatching (.done (.error error))⟩
  | ending {disconnected} : Closing output error ⟨output, disconnected, .ending error⟩
  | terminating {disconnected frame} : output.terminalFrame error = some frame →
      Closing output error ⟨output, disconnected, .terminating frame⟩
  | silent {disconnected} : Closing output error ⟨output, disconnected, .done⟩
  | closed {frame} : output.terminalFrame error = some frame →
      Closing output error ⟨output.push frame .terminal, false, .done⟩

theorem Closing.step {error : ProtocolError} {output : OutputSink} {job job' : Job} {look : Look}
    (hc : Closing output error job) (h : job.step ser look = some job') :
    Closing output error job' := by
  cases hc with
  | returned =>
    cases Option.some.inj h
    exact .ending
  | ending =>
    cases Option.some.inj h
    simp only [OutputSink.requireTerminal]
    split
    · exact .silent
    · split
      · exact .terminating ‹_›
      · exact .silent
  | terminating hframe =>
    cases Option.some.inj h
    simp only [OutputSink.terminalTurn]
    split
    · exact .silent
    · rename_i hup
      simp only [Bool.not_eq_true] at hup
      split
      · rw [hup]
        exact .closed hframe
      · split
        · exact .silent
        · exact .terminating hframe
      · exact .silent
  | silent | closed _ => cases h

theorem Closing.exec {error : ProtocolError} {output : OutputSink} {job job' : Job}
    {looks : List Look} (hc : Closing output error job)
    (h : Runs.exec (Job.step ser) job looks = some job') : Closing output error job' :=
  Runs.exec_invariant (fun _ _ _ hc hs => Closing.step hc hs) looks _ _ hc h

/-- The connection's flag is never cleared. -/
theorem Job.disconnected_step {job job' : Job} {look : Look} (hd : job.disconnected = true)
    (h : job.step ser look = some job') : job'.disconnected = true := by
  obtain ⟨output, disconnected, pc⟩ := job
  cases hd
  cases pc with
  | entering program => cases Option.some.inj h; rfl
  | dispatching program =>
    cases Option.some.inj h
    cases program with
    | done _ | panic => rfl
    | call frame next =>
      simp only [OutputSink.dispatchTurn]
      split <;> rfl
  | sending frame lifecycle next =>
    cases Option.some.inj h
    simp only [OutputSink.sendTurn]
    split
    · rfl
    · simp
  | ending error =>
    cases Option.some.inj h
    simp only [OutputSink.requireTerminal]
    split
    · rfl
    · split <;> rfl
  | terminating frame =>
    cases Option.some.inj h
    simp [OutputSink.terminalTurn]
  | done => cases h

/-- With the connection up and room in the channel, the terminal frame goes out. -/
theorem terminal_sent {error : ProtocolError} {output : OutputSink} {frame : ResponseFrame}
    {line : List Char} (hframe : output.terminalFrame error = some frame)
    (hline : output.encodeBounded ser frame = .ok line) :
    Runs.exec (Job.step ser) ⟨output, false, .dispatching (.done (.error error))⟩
      [{}, {}, {}] = some ⟨output.push frame .terminal, false, .done⟩ := by
  have hrequired : output.requireTerminal ser false error = ⟨output, false, .terminating frame⟩ := by
    simp only [OutputSink.requireTerminal, hframe, hline]
  simp [Job.step, OutputSink.dispatchTurn, afterDispatch, hrequired, OutputSink.terminalTurn]

end VcdTools.Server
