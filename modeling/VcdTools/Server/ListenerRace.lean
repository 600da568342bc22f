import VcdTools.Lib.Runs
import VcdTools.Server.ListenerSteps

/-! # Servers that race for a path

A run removes a file from the path on the strength of an earlier look at it. As
long as nobody publishes a socket between that look and the removal, the path of
an open socket stays, and so at most one run succeeds. -/
namespace VcdTools.Server
open VcdTools.Lib

namespace ListenerState
variable {config : BindConfig} {s s' : ListenerState} {i j : Nat} {run run' : BindRun}
  {look : BindLook}

/-! ## Every step -/

/-- Where a run publishes its socket, no other run is between a look at the path
and the removal that follows it. -/
def NobodyPoised (s : ListenerState) : BindAction → Prop
  | .step i look => (s.runs i).pc = .linking → look.fails = none → s.path = none →
      ∀ j, j ≠ i → (s.runs j).poised (s.runs i).ino = false
  | _ => True

theorem put_self (s : ListenerState) (i : Nat) (run : BindRun) : (s.put i run).runs i = run :=
  Function.update_self ..

theorem put_of_ne (s : ListenerState) (run : BindRun) (h : j ≠ i) :
    (s.put i run).runs j = s.runs j := Function.update_of_ne h ..

theorem put_wf (hi : Inv s) (hwf : run.Wf) (j : Nat) : ((s.put i run).runs j).Wf := by
  by_cases hji : j = i
  · subst hji
    rw [put_self]
    exact hwf
  · rw [put_of_ne s run hji]
    exact hi.wf j

theorem put_created (hi : Inv s) (hcreated : (s.runs i).pc.created = true → run.pc.created = true)
    (hpath : s.path = some (.made j)) : ((s.put i run).runs j).pc.created = true := by
  by_cases hji : j = i
  · subst hji
    rw [put_self]
    exact hcreated (hi.created j hpath)
  · rw [put_of_ne s run hji]
    exact hi.created j hpath

/-- The other runs are where they were. -/
theorem Move.frame (h : Move config s i look s') (hji : j ≠ i) : s'.runs j = s.runs j := by
  cases h with
  | stay run' | remove run' | publish run' => exact put_of_ne s run' hji

theorem Inv.move (hi : Inv s) (h : Move config s i look s') : Inv s' := by
  cases h with
  | stay run' hwf hcreated _ =>
    exact ⟨put_wf hi hwf, fun j hpath => put_created hi (fun h => (hcreated h).1) hpath⟩
  | remove run' file _ hwf _ _ _ =>
    exact ⟨put_wf hi hwf, fun j hpath => (by cases hpath)⟩
  | publish run' _ _ _ hwf hpc _ =>
    refine ⟨put_wf hi hwf, fun j hpath => ?_⟩
    cases hpath
    show ((s.put i run').runs i).pc.created = true
    rw [put_self, hpc]
    rfl

/-- What is in view stays in view, up to a listener that closes. -/
theorem view_put (hi : Inv s) {run' : BindRun}
    (hsame : (s.runs i).pc.created = true → run'.ino = (s.runs i).ino ∧
      (run'.pc.listens = true → (s.runs i).pc.listens = true))
    {x' : PathView} (hx' : (s.put i run').view config = some x') :
    ∃ x, s.view config = some x ∧ x.file = x'.file ∧ x.ino = x'.ino ∧
      (x.listening = false → x'.listening = false) := by
  obtain ⟨file, hpath, rfl⟩ := Option.map_eq_some_iff.mp hx'
  refine ⟨_, congrArg (Option.map _) hpath, rfl, ?_⟩
  cases file with
  | initial => exact ⟨rfl, id⟩
  | made j =>
    by_cases hji : j = i
    · subst hji
      obtain ⟨hino, hlistens⟩ := hsame (hi.created j hpath)
      have hself := put_self s j run'
      simp only [metadata, ListenerState.listening, hself]
      refine ⟨hino.symm, fun hclosed => ?_⟩
      by_contra hopen
      exact Bool.false_ne_true (hclosed.symm.trans (hlistens (Bool.not_eq_false _ ▸ hopen)))
    · have hother := put_of_ne s run' hji
      simp only [metadata, ListenerState.listening, hother]
      exact ⟨trivial, id⟩

theorem put_ok (hi : Inv s) (hu : Undisturbed config s) {run' : BindRun}
    (hsame : (s.runs i).pc.created = true → run'.ino = (s.runs i).ino ∧
      (run'.pc.listens = true → (s.runs i).pc.listens = true))
    (hok : RunOk (s.view config) i run') (j : Nat) :
    RunOk ((s.put i run').view config) j ((s.put i run').runs j) := by
  have hview : RunOk (s.view config) j ((s.put i run').runs j) := by
    by_cases hji : j = i
    · subst hji
      rw [put_self]
      exact hok
    · rw [put_of_ne s run' hji]
      exact hu.runs j
  exact hview.mono (fun x' hx' => view_put hi hsame hx') fun hnone => by
    rw [view, Option.map_eq_none_iff] at hnone ⊢
    exact hnone

/-- What a run removes is its own, or nobody listens on it. -/
theorem Undisturbed.taken (hu : Undisturbed config s) {file : SocketFile}
    (hpath : s.path = some file)
    (htakes : (∀ ino, (s.runs i).takesStale ino = true) ∨ ∀ ino, (s.runs i).takesOwn ino = true) :
    file = .made i ∨ s.listening file = false := by
  have hview : s.view config = some ⟨file, (s.metadata config file).ino, s.listening file⟩ :=
    congrArg (Option.map _) hpath
  rcases htakes with hstale | hown
  · exact .inr ((hu.runs i).stale _ hview (hstale _))
  · exact .inl ((hu.runs i).own _ hview (hown _))

theorem Undisturbed.move (hi : Inv s) (hu : Undisturbed config s)
    (hnobody : s.NobodyPoised (.step i look)) (h : Move config s i look s') :
    Undisturbed config s' := by
  cases h with
  | stay run' _ hcreated hok =>
    exact ⟨put_ok hi hu (fun h => (hcreated h).2) (hok (hu.runs i)), hu.initial⟩
  | remove run' file hpath _ hidle _ htakes =>
    have htaken := hu.taken hpath htakes
    constructor
    · intro j
      show RunOk none j ((s.put i run').runs j)
      by_cases hji : j = i
      · subst hji
        rw [put_self]
        exact hidle.ok
      · rw [put_of_ne s run' hji]
        have hview : s.view config =
            some ⟨file, (s.metadata config file).ino, s.listening file⟩ :=
          congrArg (Option.map _) hpath
        refine RunOk.removed (hview ▸ hu.runs j) fun hserves hfile => ?_
        have hlistens := (Bool.and_eq_true_iff.mp hserves).1
        dsimp only at hfile
        subst hfile
        rcases htaken with hmade | hclosed
        · cases hmade
          exact hji rfl
        · exact Bool.false_ne_true (hclosed.symm.trans hlistens)
    · intro hlistening
      have hinitial := hpath.symm.trans (hu.initial hlistening)
      cases hinitial
      rcases htaken with hmade | hclosed
      · cases hmade
      · exact absurd (hclosed.symm.trans hlistening) Bool.false_ne_true
  | publish run' hlook hpath hlinking _ hpc hino =>
    have hpoised := hnobody hlinking hlook hpath
    constructor
    · intro j
      by_cases hji : j = i
      · subst hji
        show RunOk _ j ((s.put j run').runs j)
        rw [put_self]
        refine ⟨fun _ => ⟨_, rfl, rfl⟩, fun x _ htakes => ?_, fun x _ htakes => ?_⟩
        · rw [BindRun.takesStale, hpc] at htakes
          cases htakes
        · rw [BindRun.takesOwn, hpc] at htakes
          cases htakes
      · have hnone : s.view config = none := by rw [view, hpath, Option.map_none]
        show RunOk (some ⟨.made i, ((s.put i run').runs i).ino, _⟩) j ((s.put i run').runs j)
        rw [put_of_ne s run' hji, put_self, hino]
        exact RunOk.published (hnone ▸ hu.runs j) (hpoised j hji)
    · intro hlistening
      cases hpath.symm.trans (hu.initial hlistening)

/-- Dropping a listener, or its `cleanup`, starts where the listener is bound. -/
theorem release_move (look : BindLook) {outcome : BindOutcome} (hwf : (s.runs i).Wf)
    (hpc : (s.runs i).pc = .bound) : Move config s i look
      (s.goto i (s.runs i) (.cleaning (s.runs i).guard.targets outcome)) := by
  simp only [BindRun.Wf, hpc] at hwf
  exact .clean_path (by rw [hpc]; rfl) hwf.1 hwf.2

theorem drop_move (look : BindLook) (hwf : (s.runs i).Wf) (h : s.step config (.drop i) = some s') :
    Move config s i look s' := by
  unfold step at h
  cases hpc : (s.runs i).pc with
  | bound =>
    simp only [hpc] at h
    cases h
    exact release_move look hwf hpc
  | finished outcome =>
    cases outcome with
    | cleaned =>
      simp only [hpc] at h
      cases h
      simp only [BindRun.Wf, hpc] at hwf
      exact .late hwf rfl rfl (fun h => (by cases h))
        fun _ => (cleaned_idle (.inr (.inr rfl))).ok
    | failed error =>
      simp only [hpc] at h
      cases h
    | dropped =>
      simp only [hpc] at h
      cases h
  | _ =>
    simp only [hpc] at h
    cases h

theorem cleanup_move (look : BindLook) (hwf : (s.runs i).Wf) (h : s.step config (.cleanup i) = some s') :
    Move config s i look s' := by
  unfold step at h
  cases hpc : (s.runs i).pc with
  | bound =>
    simp only [hpc] at h
    cases h
    exact release_move look hwf hpc
  | _ =>
    simp only [hpc] at h
    cases h

theorem Undisturbed.hangup (hu : Undisturbed config s) :
    Undisturbed config { s with initialListening := false } := by
  refine ⟨fun j => (hu.runs j).mono (fun x' hx' => ?_) fun hnone => ?_, fun h => (by cases h)⟩
  · obtain ⟨file, hpath, rfl⟩ := Option.map_eq_some_iff.mp hx'
    refine ⟨_, congrArg (Option.map _) hpath, rfl, ?_⟩
    cases file with
    | initial => exact ⟨rfl, fun _ => rfl⟩
    | made j => exact ⟨rfl, id⟩
  · rw [view, Option.map_eq_none_iff] at hnone ⊢
    exact hnone

theorem Inv.step (hi : Inv s) {a : BindAction} (h : s.step config a = some s') : Inv s' := by
  cases a with
  | step i look =>
    simp only [ListenerState.step] at h
    split at h
    · exact hi.move (turn_move (hi.wf i) h)
    · cases h
  | drop i => exact hi.move (drop_move {} (hi.wf i) h)
  | cleanup i => exact hi.move (cleanup_move {} (hi.wf i) h)
  | hangup =>
    cases h
    exact ⟨hi.wf, hi.created⟩

/-- **One step** that surprises nobody leaves nobody disturbed. -/
theorem Undisturbed.step (hi : Inv s) (hu : Undisturbed config s) {a : BindAction}
    (hnobody : s.NobodyPoised a) (h : s.step config a = some s') : Undisturbed config s' := by
  cases a with
  | step i look =>
    simp only [ListenerState.step] at h
    split at h
    · exact hu.move hi hnobody (turn_move (hi.wf i) h)
    · cases h
  | drop i =>
    have hpc : (s.runs i).pc ≠ .linking := by
      intro hpc
      simp only [ListenerState.step, hpc] at h
      cases h
    exact hu.move hi (fun hlinking => absurd hlinking hpc) (drop_move {} (hi.wf i) h)
  | cleanup i =>
    have hpc : (s.runs i).pc ≠ .linking := by
      intro hpc
      simp only [ListenerState.step, hpc] at h
      cases h
    exact hu.move hi (fun hlinking => absurd hlinking hpc) (cleanup_move {} (hi.wf i) h)
  | hangup =>
    cases h
    exact hu.hangup

theorem inv_init : Inv (.init config) where
  wf := fun _ => ⟨rfl, rfl⟩
  created := fun i h => by
    rw [init, Option.map_eq_some_iff] at h
    obtain ⟨file, _, hfile⟩ := h
    cases hfile

theorem undisturbed_init : Undisturbed config (.init config) where
  runs := fun _ => BindRun.Idle.ok ⟨rfl, fun _ => rfl, fun _ => rfl⟩
  initial := fun h => by
    obtain ⟨file, hfile, _⟩ := (Option.any_eq_true _ _).mp h
    rw [init, hfile]
    rfl

/-! ## What the runs have of it -/

structure PathSafe (s : ListenerState) : Prop where
  /-- The path of an open, published socket stays until its own run takes it away. -/
  kept : ∀ i, (s.runs i).pc.serves = true → s.path = some (.made i)
  initial : s.initialListening = true → s.path = some .initial
  /-- No two listeners are bound. -/
  exclusive : ∀ i j, (s.runs i).pc = .bound → (s.runs j).pc = .bound → i = j
  /-- A run that failed has left no temporary socket. -/
  tidy : ∀ i error, (s.runs i).pc = .finished (.failed error) → (s.runs i).temporary = false
  /-- A guard that is about to remove the path removes its own socket. -/
  own : ∀ i targets outcome, (s.runs i).pc = .erasing .path targets outcome →
    s.path = none ∨ s.path = some (.made i)

theorem Undisturbed.pathSafe (hi : Inv s) (hu : Undisturbed config s) : PathSafe s := by
  have hkept : ∀ i, (s.runs i).pc.serves = true → s.path = some (.made i) := by
    intro i hserves
    obtain ⟨x, hx, hfile⟩ := (hu.runs i).kept hserves
    obtain ⟨file, hpath, rfl⟩ := Option.map_eq_some_iff.mp hx
    exact hpath.trans (congrArg some hfile)
  refine ⟨hkept, hu.initial, fun i j hpci hpcj => ?_, fun i error hpc => ?_,
    fun i targets outcome hpc => ?_⟩
  · have hpi := hkept i (by rw [hpci]; rfl)
    have hpj := hkept j (by rw [hpcj]; rfl)
    cases hpi.symm.trans hpj
    rfl
  · have hwf := hi.wf i
    simp only [BindRun.Wf, hpc] at hwf
    exact hwf
  · cases hpath : s.path with
    | none => exact .inl rfl
    | some file =>
      refine .inr (congrArg some ((hu.runs i).own _ (congrArg (Option.map _) hpath) ?_))
      rw [BindRun.takesOwn, hpc]
      rfl

/-- **Runs that race for a path** leave each other's sockets alone, one of them
at most gets the path, and no temporary name is left, when no run publishes its
socket between another run's look at the path and the removal that follows. -/
theorem bind_race_safe (config : BindConfig) (acts : List BindAction)
    (hnobody : Runs.Along (step config) NobodyPoised (.init config) acts) :
    Runs.Always (step config) PathSafe (.init config) acts := by
  have hundisturbed : Runs.Always (step config) (fun s => Inv s ∧ Undisturbed config s)
      (.init config) acts :=
    Runs.always_of_along (I := fun _ => True) (fun _ _ _ _ _ => trivial)
      (fun s a s' _ hs hc hstep => ⟨hs.1.step hstep, hs.2.step hs.1 hc hstep⟩) acts _ trivial
      ⟨inv_init, undisturbed_init⟩ hnobody
  exact hundisturbed.imp fun s hs => hs.2.pathSafe hs.1

/-! ## Two servers after a crash -/

/-- The path is the stale socket of a server that has crashed. -/
def crashedConfig : BindConfig where
  target := ⟨true, some (.ok ⟨true, 1000, 0o700⟩)⟩
  effectiveUid := 1000
  runs := 2
  initial := some ⟨⟨true, 1000, 5⟩, false⟩

/-- Up to the second look at the path. -/
def validation (i : Nat) : List BindAction := List.replicate 4 (.step i {})

/-- The rest, with a socket of the given number. -/
def creation (i ino : Nat) : List BindAction := List.replicate 9 (.step i { ino })

/-- The runs there are, at a publication. -/
def RunsUnpoised (config : BindConfig) (s : ListenerState) : BindAction → Prop
  | .step i look => (s.runs i).pc = .linking → look.fails = none → s.path = none →
      ∀ j < config.runs, j ≠ i → (s.runs j).poised (s.runs i).ino = false
  | _ => True

instance (config : BindConfig) (s : ListenerState) : (a : BindAction) →
    Decidable (RunsUnpoised config s a)
  | .step _ _ => inferInstanceAs (Decidable (_ → _ → _ → _))
  | .drop _ | .cleanup _ | .hangup => inferInstanceAs (Decidable True)

theorem step_beyond (hi : Inv s) (hbeyond : ∀ j, config.runs ≤ j → s.runs j = .start)
    {a : BindAction} (h : s.step config a = some s') :
    ∀ j, config.runs ≤ j → s'.runs j = .start := by
  intro j hj
  have hstart := hbeyond j hj
  cases a with
  | step i look =>
    simp only [step] at h
    split at h
    · rename_i hlt
      have hji : j ≠ i := fun heq => Nat.not_lt.mpr hj (heq ▸ hlt)
      exact ((turn_move (hi.wf i) h).frame hji).trans hstart
    · cases h
  | drop i =>
    by_cases hji : j = i
    · subst hji
      simp only [step, hstart] at h
      cases h
    · exact ((drop_move {} (hi.wf i) h).frame hji).trans hstart
  | cleanup i =>
    by_cases hji : j = i
    · subst hji
      simp only [step, hstart] at h
      cases h
    · exact ((cleanup_move {} (hi.wf i) h).frame hji).trans hstart
  | hangup =>
    cases h
    exact hstart

/-- Runs that have not started surprise nobody. -/
theorem nobody_poised_of_runs (hi : Inv s) (hbeyond : ∀ j, config.runs ≤ j → s.runs j = .start)
    {acts : List BindAction} (h : Runs.Along (step config) (RunsUnpoised config) s acts) :
    Runs.Along (step config) NobodyPoised s acts := by
  induction acts generalizing s with
  | nil => trivial
  | cons a acts ih =>
    intro s' hstep
    obtain ⟨hruns, hrest⟩ := h s' hstep
    refine ⟨?_, ih (hi.step hstep) (step_beyond hi hbeyond hstep) hrest⟩
    cases a with
    | step i look =>
      intro hlinking hlook hpath j hji
      by_cases hj : j < config.runs
      · exact hruns hlinking hlook hpath j hj hji
      · rw [hbeyond j (Nat.le_of_not_lt hj)]
        rfl
    | drop i | cleanup i | hangup => trivial

/-- Server 1 has looked at the stale socket when server 0 replaces it; it is then
refused by the live one, and server 0 closes its listener. -/
def overtakenRun : List BindAction :=
  List.replicate 2 (.step 1 {}) ++ validation 0 ++ creation 0 6 ++ .step 1 {} ::
    .drop 0 :: List.replicate 3 (.step 0 {})

theorem bind_race_safe_overtaken :
    (∃ s, Runs.exec (step crashedConfig) (.init crashedConfig) overtakenRun = some s ∧
      (s.runs 0).pc = .finished .dropped ∧ (s.runs 1).pc = .finished (.failed
        (.new .addrInUse "Unix socket already has a live listener"))) ∧
    Runs.Always (step crashedConfig) PathSafe (.init crashedConfig) overtakenRun := by
  refine ⟨?_, bind_race_safe crashedConfig _
    (nobody_poised_of_runs inv_init (fun _ _ => rfl) (by decide +kernel))⟩
  have hrun : ((Runs.exec (step crashedConfig) (.init crashedConfig) overtakenRun).any fun s =>
      (s.runs 0).pc == .finished .dropped && (s.runs 1).pc == .finished (.failed
        (.new .addrInUse "Unix socket already has a live listener"))) = true := by decide +kernel
  obtain ⟨s, hs, hends⟩ := (Option.any_eq_true _ _).mp hrun
  obtain ⟨hfirst, hsecond⟩ := Bool.and_eq_true_iff.mp hends
  exact ⟨s, hs, eq_of_beq hfirst, eq_of_beq hsecond⟩

/-- Both servers have validated the stale socket before either removes it: the
second removal takes away the first server's socket, and both are bound. -/
theorem both_bound : ∃ s, Runs.exec (step crashedConfig) (.init crashedConfig)
      (validation 0 ++ validation 1 ++ creation 0 6 ++ creation 1 7) = some s ∧
    (s.runs 0).pc = .bound ∧ (s.runs 1).pc = .bound := by
  have hrun : ((Runs.exec (step crashedConfig) (.init crashedConfig)
      (validation 0 ++ validation 1 ++ creation 0 6 ++ creation 1 7)).any fun s =>
        (s.runs 0).pc == .bound && (s.runs 1).pc == .bound) = true := by decide +kernel
  obtain ⟨s, hs, hbound⟩ := (Option.any_eq_true _ _).mp hrun
  obtain ⟨hfirst, hsecond⟩ := Bool.and_eq_true_iff.mp hbound
  exact ⟨s, hs, eq_of_beq hfirst, eq_of_beq hsecond⟩

/-- **A live socket is unlinked**: two servers that restart together. -/
theorem bind_race_unsafe : ¬ ∀ (config : BindConfig) (acts : List BindAction),
    Runs.Always (step config) PathSafe (.init config) acts := by
  intro hall
  obtain ⟨s, hrun, hfirst, hsecond⟩ := both_bound
  have hsafe := (Runs.always_iff_prefix _ _).mp (hall crashedConfig _) _ List.prefix_rfl s hrun
  exact absurd (hsafe.exclusive 0 1 hfirst hsecond) (by decide)

end ListenerState
end VcdTools.Server
