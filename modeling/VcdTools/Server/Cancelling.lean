import VcdTools.Lib.Causes
import VcdTools.Server.ConnectionSteps

/-! # Cancelling a request

A `cancel` finds its target in the registry by its id, raises the target's token
there and says whether it found one. The worker of the target sees the token at
its looks. Ids are used again, so it has to be shown that a token is raised on
account of no other request than the one that holds the id. -/
namespace VcdTools.Server
open VcdTools.Lib Requests

/-! ## Tokens -/

namespace ConnectionState
variable {self : ConnectionState} {id k : String}

theorem isCancelled_iff : self.isCancelled k = true ↔ (k, true) ∈ self.active := by
  simp only [isCancelled, List.any_eq_true, Bool.and_eq_true, beq_iff_eq]
  constructor
  · rintro ⟨⟨_, _⟩, hmem, rfl, rfl⟩
    exact hmem
  · exact fun h => ⟨_, h, rfl, rfl⟩

theorem isActive_of_isCancelled (h : self.isCancelled k = true) : self.isActive k = true :=
  isActive_iff.mpr (List.mem_map.mpr ⟨_, isCancelled_iff.mp h, rfl⟩)

theorem isCancelled_insert (h : self.isActive id = false) :
    (self.insert id h).isCancelled k = self.isCancelled k := by
  simp [isCancelled, insert]

theorem isCancelled_remove (h : (self.remove id).isCancelled k = true) :
    self.isCancelled k = true := by
  rw [isCancelled_iff] at h ⊢
  exact (List.mem_filter.mp h).1

theorem isCancelled_kept (h : self.isCancelled k = true) (hne : k ≠ id) :
    (self.remove id).isCancelled k = true := by
  rw [isCancelled_iff] at h ⊢
  exact List.mem_filter.mpr ⟨h, by simpa using hne⟩

theorem isCancelled_cancelWhere (chosen : String → Bool) :
    (self.cancelWhere chosen).isCancelled k =
      (self.isCancelled k || (self.isActive k && chosen k)) := by
  rw [Bool.eq_iff_iff, Bool.or_eq_true, Bool.and_eq_true, isCancelled_iff, isCancelled_iff,
    isActive_iff, cancelWhere, List.mem_map, List.mem_map]
  constructor
  · rintro ⟨⟨key, token⟩, hmem, heq⟩
    obtain ⟨rfl, htoken⟩ := Prod.mk.inj heq
    cases token with
    | true => exact .inl hmem
    | false => exact .inr ⟨⟨_, hmem, rfl⟩, htoken⟩
  · rintro (hmem | ⟨⟨⟨key, token⟩, hmem, rfl⟩, hchosen⟩)
    · exact ⟨_, hmem, by simp⟩
    · exact ⟨_, hmem, by simp only [hchosen, Bool.or_true]⟩

theorem isCancelled_cancel : (self.cancel id).2.isCancelled k =
    (self.isCancelled k || (self.isActive k && k == id)) := by
  rw [cancel]
  split
  · exact isCancelled_cancelWhere _
  · rename_i hfree
    cases hk : k == id with
    | true =>
      cases eq_of_beq hk
      rw [Bool.not_eq_true] at hfree
      rw [hfree, Bool.false_and, Bool.or_false]
    | false => rw [Bool.and_false, Bool.or_false]

end ConnectionState

namespace Connection
/-! ## What one step does -/

/-- What a step may do to the place of line `i`. -/
inductive Moves (env : ConnectionEnv) (s : Connection) (i : Nat) :
    ConnectionAction → Place → Place → Prop
  | stays {a p} : Moves env s i a p p
  | taken {a} : Moves env s i a .unread .atReader
  | refused {a p} : p.holds = none → Moves env s i a p .gone
  | registered {a id} : s.registry.state.isActive id = false →
      Moves env s i a .atReader (.admitting id)
  | returned {a id} : Moves env s i a (.admitting id) .gone
  | submitted {a request} : Moves env s i a (.admitting request.id) (.queued request)
  | picked {program request} : Moves env s i (.pick i program) (.queued request)
      (.running (.start request.id env.config.maxEncodedFrameBytes s.flag program))
  | worked {look seen job next} :
      seen.cancelled = s.registry.state.isCancelled job.output.requestId →
      job.step env.ser seen = some next →
      Moves env s i (.work i look) (.running job) (.running next)
  | released {job} : Moves env s i (.release i) (.running job) .gone

/-- What a step may do to the active requests. -/
inductive Registers (s : Connection) : ConnectionAction → ConnectionState → Prop
  | stays {a state} : state.active = s.registry.state.active → Registers s a state
  | inserts {a id h} : Registers s a (s.registry.state.insert id h)
  | cancels {look i own target} : s.reader = .cancelling i own target →
      Registers s (.turn look) (s.registry.state.cancel target).2
  | removes {a id} : Registers s a (s.registry.state.remove id)
  | sweeps : Registers s .sweep s.registry.state.sweep

variable {env : ConnectionEnv} {s s' : Connection} {a : ConnectionAction} {i : Nat} {p : Place}
  {id k : String}

/-- Only line `i` is moved. -/
theorem moves_place {t : Connection} {before : Place} (hplace : s.places i = before)
    (h : Moves env s i a before p) (ht : t.places = (s.place i p).places) (j : Nat) :
    Moves env s j a (s.places j) (t.places j) := by
  rw [ht]
  by_cases hj : j = i
  · subst hj
    rw [place_self, hplace]
    exact h
  · rw [place_of_ne s p hj]
    exact .stays

theorem moves_stay (ht : s'.places = s.places) (j : Nat) :
    Moves env s j a (s.places j) (s'.places j) := by
  rw [ht]
  exact .stays

theorem read_moves (hi : Inv env s) (h : s.read env = some s') (j : Nat) :
    Moves env s j .read (s.places j) (s'.places j) := by
  obtain ⟨line, _, _, rfl⟩ := read_cases h
  have hplace : s.places s.next = .unread := hi.unread (Nat.le_refl _)
  have hgone : Moves env s s.next .read .unread .gone := .refused rfl
  rcases accept_cases env { s with next := s.next + 1 } s.next line with
    ⟨error, _, heq⟩ | ⟨id, target, heq⟩ | ⟨frame, heq⟩ | ⟨request, _, _, heq⟩
  · rw [heq]
    exact moves_place hplace hgone rfl j
  · rw [heq]
    exact moves_place hplace hgone rfl j
  · rw [heq]
    exact moves_place hplace hgone rfl j
  · rw [heq]
    exact moves_place hplace .taken rfl j

theorem register_moves {request : Request} {line : ClientLine} (hplace : s.places i = .atReader)
    (j : Nat) : Moves env s j a (s.places j) ((s.register i request line).places j) := by
  rw [register]
  cases hr : s.registry.state.register request.id with
  | error error => exact moves_place (p := .gone) hplace (.refused rfl) rfl j
  | ok state =>
    obtain ⟨hfree, _, rfl⟩ := ConnectionState.register_ok_iff.mp hr
    exact moves_place hplace (.registered hfree) rfl j

theorem turn_moves (hi : Inv env s) {look : ReaderLook} (h : s.turn env look = some s') (j : Nat) :
    Moves env s j a (s.places j) (s'.places j) := by
  have hok := hi.reader
  unfold ReaderOk at hok
  unfold turn at h
  cases hreader : s.reader with
  | reading | stopped =>
    rw [hreader] at h
    cases h
  | registering i request =>
    simp only [hreader] at h hok
    obtain ⟨line, _, rfl⟩ := Option.map_eq_some_iff.mp h
    exact register_moves hok.1 j
  | submitting i request =>
    simp only [hreader] at h hok
    split at h <;> cases h
    · exact moves_stay rfl j
    · exact moves_place hok .submitted rfl j
  | releasing i id error =>
    simp only [hreader] at h hok
    cases h
    exact moves_place hok .returned rfl j
  | preparing i request =>
    simp only [hreader] at h
    split at h <;> cases h <;> exact moves_stay rfl j
  | replying i frame | rejecting error =>
    simp only [hreader] at h
    repeat' split at h
    all_goals
      cases h
      exact moves_stay rfl j
  | cancelling i id target | forcing | closing | joining =>
    simp only [hreader] at h
    cases h
    exact moves_stay rfl j

theorem work_moves {look : Look} (h : s.work env i look = some s') (j : Nat) :
    Moves env s j (.work i look) (s.places j) (s'.places j) := by
  unfold work at h
  split at h
  · rename_i job hplace
    obtain ⟨next, hstep, h⟩ := Option.map_eq_some_iff.mp h
    have hmove : Moves env s i (.work i look) (.running job) (.running next) :=
      .worked rfl hstep
    split at h
    · cases h
      exact moves_place hplace hmove rfl j
    · cases h
      exact moves_place hplace hmove rfl j
  · cases h

/-- **One step moves a line only so.** -/
theorem step_moves (hi : Inv env s) (h : s.step env a = some s') (j : Nat) :
    Moves env s j a (s.places j) (s'.places j) := by
  cases a with
  | send text =>
    cases h
    exact moves_stay rfl j
  | read => exact read_moves hi h j
  | turn look => exact turn_moves hi h j
  | badFrame _ | close =>
    simp only [Connection.step] at h
    split at h <;> cases h
    exact moves_stay rfl j
  | pick i program =>
    simp only [Connection.step, pick] at h
    split at h
    · rename_i request hplace
      cases h
      exact moves_place hplace .picked rfl j
    · cases h
  | work i look => exact work_moves h j
  | release i =>
    obtain ⟨job, hplace, _, rfl⟩ := release_cases h
    exact moves_place hplace .released rfl j
  | recv =>
    simp only [Connection.step, recv] at h
    split at h <;> cases h
    exact moves_stay rfl j
  | check =>
    simp only [Connection.step, check] at h
    split at h <;> cases h
    exact moves_stay rfl j
  | wrote whole =>
    simp only [Connection.step, wrote] at h
    split at h
    · split at h <;> cases h
      · refine moves_stay ?_ j
        unfold deliver
        repeat' split
        all_goals rfl
      · exact moves_stay rfl j
    · cases h
  | writeFails =>
    simp only [Connection.step, writeFails] at h
    split at h <;> cases h
    exact moves_stay rfl j
  | sweep =>
    obtain ⟨_, _, rfl⟩ := Option.map_eq_some_iff.mp h
    exact moves_stay rfl j

theorem accept_registry (s : Connection) (i : Nat) (line : ClientLine) :
    (s.accept env i line).registry = s.registry := by
  rcases accept_cases env s i line with ⟨_, _, heq⟩ | ⟨_, _, heq⟩ | ⟨_, heq⟩ | ⟨_, _, _, heq⟩ <;>
    rw [heq] <;> rfl

theorem turn_registers {look : ReaderLook} (h : s.turn env look = some s') :
    s.Registers (.turn look) s'.registry.state := by
  unfold turn at h
  cases hreader : s.reader with
  | reading | stopped =>
    rw [hreader] at h
    cases h
  | cancelling i id target =>
    simp only [hreader] at h
    cases h
    exact .cancels hreader
  | registering i request =>
    simp only [hreader] at h
    obtain ⟨line, _, rfl⟩ := Option.map_eq_some_iff.mp h
    rw [register]
    cases hr : s.registry.state.register request.id with
    | error error => exact .stays rfl
    | ok state =>
      obtain ⟨hfree, _, rfl⟩ := ConnectionState.register_ok_iff.mp hr
      exact .inserts (h := hfree)
  | releasing i id error =>
    simp only [hreader] at h
    cases h
    exact .removes
  | preparing _ _ | submitting _ _ | replying _ _ | rejecting _ =>
    simp only [hreader] at h
    repeat' split at h
    all_goals
      cases h
      exact .stays rfl
  | forcing | closing | joining =>
    simp only [hreader] at h
    cases h
    exact .stays rfl

/-- **One step changes the active requests only so.** -/
theorem step_registers (h : s.step env a = some s') : s.Registers a s'.registry.state := by
  cases a with
  | send text =>
    cases h
    exact .stays rfl
  | read =>
    obtain ⟨line, _, _, rfl⟩ := read_cases h
    rw [accept_registry]
    exact .stays rfl
  | turn look => exact turn_registers h
  | badFrame _ | close =>
    simp only [Connection.step] at h
    split at h <;> cases h
    exact .stays rfl
  | pick i program =>
    simp only [Connection.step, pick] at h
    split at h <;> cases h
    exact .stays rfl
  | work i look =>
    obtain ⟨_, _, _, _, _, rfl | rfl⟩ := work_cases h
    · exact .stays rfl
    · exact .stays rfl
  | release i =>
    obtain ⟨job, _, _, rfl⟩ := release_cases h
    exact .removes
  | recv =>
    simp only [Connection.step, recv] at h
    split at h <;> cases h
    exact .stays rfl
  | check =>
    simp only [Connection.step, check] at h
    split at h <;> cases h
    exact .stays rfl
  | wrote whole =>
    simp only [Connection.step, wrote] at h
    split at h
    · split at h <;> cases h
      · refine .stays ?_
        unfold deliver
        repeat' split
        all_goals rfl
      · exact .stays rfl
    · cases h
  | writeFails =>
    simp only [Connection.step, writeFails] at h
    split at h <;> cases h
    exact .stays rfl
  | sweep =>
    obtain ⟨registry, hregistry, rfl⟩ := Option.map_eq_some_iff.mp h
    rw [Registry.step] at hregistry
    split at hregistry <;> cases hregistry
    exact .sweeps

/-! ## Who raises a token -/

/-- The step raises the token of `id`: a `cancel` that names it, or the sweep of
a `disconnect`. -/
def Stops (id : String) (s : Connection) : ConnectionAction → Prop
  | .turn _ => ∃ i own, s.reader = .cancelling i own id
  | .sweep => True
  | _ => False

section Registers
variable {state : ConnectionState} (h : s.Registers a state)
include h

theorem Registers.raised (hk : state.isCancelled k = true) :
    s.Stops k a ∧ s.registry.state.isActive k = true ∨ s.registry.state.isCancelled k = true := by
  cases h with
  | stays hsame =>
    right
    rwa [ConnectionState.isCancelled, hsame] at hk
  | inserts =>
    right
    rwa [ConnectionState.isCancelled_insert] at hk
  | @cancels look i own target hreader =>
    rw [ConnectionState.isCancelled_cancel, Bool.or_eq_true, Bool.and_eq_true, beq_iff_eq] at hk
    rcases hk with hk | ⟨hactive, rfl⟩
    · exact .inr hk
    · exact .inl ⟨⟨i, own, hreader⟩, hactive⟩
  | removes => exact .inr (ConnectionState.isCancelled_remove hk)
  | sweeps =>
    rw [ConnectionState.sweep, ConnectionState.isCancelled_cancelWhere, Bool.or_eq_true,
      Bool.and_true] at hk
    rcases hk with hk | hactive
    · exact .inr hk
    · exact .inl ⟨trivial, hactive⟩

/-- A token that is raised stays so while its id is active. -/
theorem Registers.keeps (hk : s.registry.state.isCancelled k = true)
    (hactive : state.isActive k = true) : state.isCancelled k = true := by
  cases h with
  | stays hsame => rwa [ConnectionState.isCancelled, hsame]
  | inserts => rwa [ConnectionState.isCancelled_insert]
  | cancels _ => rw [ConnectionState.isCancelled_cancel, hk, Bool.true_or]
  | removes =>
    exact ConnectionState.isCancelled_kept hk (ConnectionState.isActive_remove.mp hactive).2
  | sweeps => rw [ConnectionState.sweep, ConnectionState.isCancelled_cancelWhere, hk, Bool.true_or]

end Registers

/-- A line that gets an id gets one that nobody holds. -/
theorem Moves.held {p' : Place} (h : Moves env s i a p p') (hid : p'.holds = some id) :
    p.holds = some id ∨ s.registry.state.isActive id = false := by
  cases h with
  | stays | submitted | picked => exact .inl hid
  | taken | refused _ | returned | released => cases hid
  | registered hfree =>
    cases hid
    exact .inr hfree
  | worked _ hstep =>
    left
    rw [← hid]
    exact congrArg some (step_requestId hstep).symm

/-! ## What a raised token does -/

/-- A frame that ends a request without its result. -/
def failed : ResponseFrame → Bool
  | .error _ => true
  | .end_ f => !f.complete
  | .result _ | .begin _ | .chunk _ => false

/-- What a job adds to the frames that were there when its token was raised: at
most one frame more, at its end, and no success. -/
inductive Hushed (said : List ResponseFrame) (job : Job) : Prop
  | silent : job.output.enqueued = said → Hushed said job
  | closed {frame} : job.output.enqueued = said ++ [frame] → failed frame = true →
      job.pc = .done → Hushed said job

theorem terminalFrame_failed {output : OutputSink} {error : ProtocolError} {frame : ResponseFrame}
    (h : output.terminalFrame error = some frame) : failed frame = true := by
  unfold OutputSink.terminalFrame at h
  split at h <;> cases h <;> rfl

/-- **One look of a worker that sees the token.** -/
theorem Hushed.step {ser : Json.Serializer} {said : List ResponseFrame} {job next : Job}
    {look : Look} (hh : Hushed said job) (hok : JobOk id job) (hlook : look.cancelled = true)
    (h : job.step ser look = some next) : Hushed said next := by
  have hcheck : requestCheck look = .error queryCancelled := by
    rw [requestCheck, hlook]
    rfl
  have hpc := hok.pc
  unfold Job.step at h
  cases hh with
  | closed _ _ hdone =>
    rw [hdone] at h
    cases h
  | silent hsaid =>
    cases hp : job.pc with
    | entering program =>
      simp only [hp, Option.some.injEq] at h
      subst h
      exact .silent hsaid
    | dispatching program =>
      simp only [hp, Option.some.injEq] at h
      subst h
      refine .silent (Eq.trans ?_ hsaid)
      cases program with
      | done _ | panic => rfl
      | call frame k =>
        simp only [OutputSink.dispatchTurn]
        split <;> rfl
    | sending frame lifecycle k =>
      simp only [hp, Option.some.injEq] at h
      subst h
      rw [OutputSink.sendTurn, hcheck]
      exact .silent hsaid
    | ending error =>
      simp only [hp, Option.some.injEq] at h
      subst h
      refine .silent (Eq.trans ?_ hsaid)
      unfold OutputSink.requireTerminal
      repeat' split
      all_goals rfl
    | terminating frame =>
      simp only [hp, Option.some.injEq] at h hpc
      subst h
      obtain ⟨error, hframe⟩ := hpc
      unfold OutputSink.terminalTurn
      split
      · exact .silent hsaid
      · split
        · exact .closed (congrArg (· ++ [frame]) hsaid) (terminalFrame_failed hframe) rfl
        · split <;> exact .silent hsaid
        · exact .silent hsaid
    | done =>
      simp only [hp] at h
      cases h

/-- The frames that a line's worker has put into the channel. -/
def said : Place → List ResponseFrame
  | .running job => job.output.enqueued
  | .unread | .atReader | .admitting _ | .queued _ | .gone => []

/-- Every worker's job is one that `worker_loop` can be at. -/
def JobsOk (s : Connection) : Prop :=
  ∀ i job, s.places i = .running job → JobOk job.output.requestId job

theorem jobsOk_step (hi : Inv env s) (hj : s.JobsOk) (h : s.step env a = some s') : s'.JobsOk := by
  intro i next hnext
  have hmoves := step_moves hi h i
  rw [hnext] at hmoves
  cases hp : s.places i with
  | running job =>
    rw [hp] at hmoves
    cases hmoves with
    | stays => exact hj i _ hp
    | worked _ hstep =>
      rw [step_requestId hstep]
      exact (hj i job hp).step hstep
  | queued request =>
    rw [hp] at hmoves
    cases hmoves
    exact jobOk_start _ _ _
  | unread | atReader | admitting _ | gone =>
    rw [hp] at hmoves
    cases hmoves

/-- The line of a request whose token was raised. -/
structure Halted (env : ConnectionEnv) (id : String) (frames : List ResponseFrame) (i : Nat)
    (s : Connection) : Prop where
  inv : Inv env s
  jobs : s.JobsOk
  line : s.places i = .gone ∨ s.holders i = some id ∧ s.registry.state.isCancelled id = true ∧
    match s.places i with
    | .running job => Hushed frames job
    | _ => frames = []

theorem Halted.step {frames : List ResponseFrame} (hs : Halted env id frames i s)
    (h : s.step env a = some s') : Halted env id frames i s' := by
  obtain ⟨hi, hj, hline⟩ := hs
  refine ⟨hi.step h, jobsOk_step hi hj h, ?_⟩
  have hmoves := step_moves hi h i
  rcases hline with hgone | ⟨hheld, hraised, hframes⟩
  · rw [hgone] at hmoves
    generalize s'.places i = p' at hmoves
    cases hmoves <;> exact .inl rfl
  · have hkeeps : s'.holders i = some id → s'.registry.state.isCancelled id = true :=
      fun hheld' => (step_registers h).keeps hraised
        (((hi.step h).leased.active_iff id).mpr ⟨i, hheld'⟩)
    have hjob := hj i
    rw [holders] at hheld hkeeps ⊢
    generalize hp : s.places i = p at hmoves hheld hframes hjob
    generalize s'.places i = p' at hmoves hkeeps
    cases hmoves with
    | stays | submitted => exact .inr ⟨hheld, hkeeps hheld, hframes⟩
    | taken | registered _ => cases hheld
    | refused _ | returned | released => exact .inl rfl
    | picked => exact .inr ⟨hheld, hkeeps hheld, .silent hframes.symm⟩
    | @worked look seen job next hseen hstep =>
      have hid : job.output.requestId = id := Option.some.inj hheld
      have hlook : seen.cancelled = true := by rw [hseen, hid, hraised]
      have hheld' : (Place.running next).holds = some id :=
        (congrArg some (step_requestId hstep)).trans hheld
      exact .inr ⟨hheld', hkeeps hheld', hframes.step (hjob job rfl) hlook hstep⟩

/-- A line that holds the id when its token is raised. -/
theorem Halted.start (hi : Inv env s) (hj : s.JobsOk) (hheld : s.holders i = some id)
    (hraised : s.registry.state.isCancelled id = true) :
    Halted env id (said (s.places i)) i s := by
  refine ⟨hi, hj, .inr ⟨hheld, hraised, ?_⟩⟩
  cases hp : s.places i with
  | running job => exact .silent rfl
  | unread | atReader | admitting _ | queued _ | gone => rfl

theorem Halted.run {frames : List ResponseFrame} {more : List ConnectionAction} {t : Connection}
    (hs : Halted env id frames i s)
    (hmore : Runs.exec (Connection.step env) s more = some t) : Halted env id frames i t :=
  Runs.exec_invariant (fun _ _ _ hh h => Halted.step hh h) more s t hs hmore

/-- What its worker has put into the channel since then. -/
theorem Halted.adds {frames : List ResponseFrame} {job : Job} (hs : Halted env id frames i s)
    (hjob : s.places i = .running job) :
    ∃ fs : List ResponseFrame, job.output.enqueued = frames ++ fs ∧ fs.length ≤ 1 ∧
      ∀ f ∈ fs, failed f = true ∧ f.requestId = some id := by
  have hline := hs.line
  rw [holders, hjob] at hline
  obtain ⟨hid, -, hhushed⟩ := hline.resolve_left (by simp)
  cases hhushed with
  | silent hframes => exact ⟨[], by rw [hframes, List.append_nil], Nat.zero_le _, by simp⟩
  | @closed frame hframes hfailed _ =>
    refine ⟨[frame], hframes, Nat.le_refl _, fun f hf => ?_⟩
    cases List.mem_singleton.mp hf
    have hmem : frame ∈ job.output.enqueued := by
      rw [hframes]
      exact List.mem_append_right _ List.mem_cons_self
    exact ⟨hfailed, ((hs.jobs i job hjob).spoken.requestId frame hmem).trans hid⟩

/-! ## A cancel -/

/-- What the turn of the reader that looks `target` up comes to. -/
structure Cancels (env : ConnectionEnv) (i : Nat) (own target : String) (s s' : Connection) :
    Prop where
  answers : ∃ found, s'.reader = .replying i (.ofResult own (cancelResult found)) ∧
    (found = true ↔ ∃ j, s.holders j = some target)
  spares : ∀ id, id ≠ target →
    s'.registry.state.isCancelled id = s.registry.state.isCancelled id
  silences : ∀ j, s.holders j = some target → ∀ more t,
    Runs.exec (step env) s' more = some t → ∀ job, t.places j = .running job →
    ∃ fs : List ResponseFrame, job.output.enqueued = said (s.places j) ++ fs ∧ fs.length ≤ 1 ∧
      ∀ f ∈ fs, failed f = true ∧ f.requestId = some target

def streamText : String := "stream"
def cancelText : String := "cancel"

def streamed : Request := { id := "a", method := .list ⟨none, none, none, none⟩ }
def cancelling : Request := { id := "c", method := .cancel ⟨"a"⟩ }

def cancelEnv : ConnectionEnv where
  serde := {
    events text := (if text = cancelText then cancelling.serialize else streamed.serialize, none)
    display _ error := error
    print _ := streamText }
  ser := .whole
  config := {
    outputChunks := 4
    maxActiveRequests := 2
    maxTimeoutMs := 1000
    maxEncodedFrameBytes := 4096 }

/-- A begin frame, and then a chunk that the full channel holds back. -/
def streamDispatch : Dispatch Unit :=
  .call (.ofBegin "a" "signal_name.v1" "1") fun _ =>
    .call (.ofChunk "a" 1 [.str "top.a"]) fun
      | .ok () => .done (.ok ())
      | .error error => .done (.error error)

/-- The reader is about to look the target up. -/
def cancelRun : List ConnectionAction :=
  [.send streamText, .read, .turn {}, .turn {}, .turn {}, .pick 0 streamDispatch, .work 0 {},
    .work 0 {}, .work 0 {}, .send cancelText, .read]

def atCancel (s : Connection) : Bool :=
  match s.reader with
  | .cancelling i own target => i == 1 && own == "c" && target == "a"
  | _ => false

theorem reader_of_atCancel (h : s.atCancel = true) : s.reader = .cancelling 1 "c" "a" := by
  unfold atCancel at h
  split at h
  · rename_i i own target hreader
    simp only [Bool.and_eq_true, beq_iff_eq] at h
    obtain ⟨⟨rfl, rfl⟩, rfl⟩ := h
    exact hreader
  · cases h

/-- The worker goes on until it is done. -/
def hushedRun : List ConnectionAction := .replicate 5 (.work 0 {})

/-- The line of the stream, and how many frames it has put into the channel. -/
def streams (frames : Nat) (s : Connection) : Bool :=
  s.holders 0 == some "a" && (said (s.places 0)).length == frames

def isClosed (s : Connection) : Bool :=
  match s.places 0 with
  | .running job => job.isDone
  | _ => false

theorem running_of_isClosed (h : s.isClosed = true) :
    ∃ job, s.places 0 = .running job ∧ job.isDone = true := by
  unfold isClosed at h
  split at h
  · rename_i job hplace
    exact ⟨job, hplace, h⟩
  · cases h

/-- **Only a cancel of this very request stops it.** Whenever the token of the id
that a line holds is raised, then in the run so far some `cancel` named the id,
or a disconnect swept the registry, at a moment when this line held the id, and
it has held it ever since: no cancel of an earlier request with the same id can
hit it. -/
theorem cancelled_asked {env : ConnectionEnv} {acts : List ConnectionAction} {s : Connection}
    (h : Runs.exec (step env) (.init env) acts = some s) {i : Nat} {id : String}
    (hholds : s.holders i = some id) (hcancelled : s.registry.state.isCancelled id = true) :
    Runs.Since (step env) (fun s a => s.holders i = some id ∧ s.Stops id a)
      (fun s => s.holders i = some id) (.init env) acts := by
  refine Runs.since_of_step (I := Inv env) (B := fun s => s.registry.state.isCancelled id = true)
    (fun _ _ _ hi hs => hi.step hs) ?_ (inv_init env) (fun hb => Bool.false_ne_true hb) h hholds
    hcancelled
  intro s a s' hi hs hheld hraised
  have hbefore : s.registry.state.isActive id = true → s.holders i = some id := by
    intro hactive
    rcases (step_moves hi hs i).held hheld with hheld | hfree
    · exact hheld
    · rw [hactive] at hfree
      cases hfree
  rcases (step_registers hs).raised hraised with ⟨hstops, hactive⟩ | hraised
  · exact .inl ⟨hbefore hactive, hstops⟩
  · exact .inr ⟨hbefore (ConnectionState.isActive_of_isCancelled hraised), hraised⟩

theorem cancelled_asked_stream : ∃ s,
    Runs.exec (step cancelEnv) (.init cancelEnv) (cancelRun ++ [.turn {}]) = some s ∧
    Runs.Since (step cancelEnv) (fun s a => s.holders 0 = some "a" ∧ s.Stops "a" a)
      (fun s => s.holders 0 = some "a") (.init cancelEnv) (cancelRun ++ [.turn {}]) := by
  have hany : (Runs.exec (step cancelEnv) (.init cancelEnv) (cancelRun ++ [.turn {}])).any
      (fun s => s.holders 0 == some "a" && s.registry.state.isCancelled "a") = true := by
    decide +kernel
  obtain ⟨s, h, hs⟩ := (Option.any_eq_true _ _).mp hany
  obtain ⟨hheld, hraised⟩ := Bool.and_eq_true_iff.mp hs
  exact ⟨s, h, cancelled_asked h (eq_of_beq hheld) hraised⟩

end Connection
end VcdTools.Server
