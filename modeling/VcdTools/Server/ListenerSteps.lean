import VcdTools.Server.Listener

/-! # One step of a run of `bind_inner`

A run leaves the path alone, removes from it what it has come for, or publishes
its socket where there is nothing. `RunOk` is what a run relies on: that its
published socket is at the path, and that what it would remove is its own or has
no listener. -/
namespace VcdTools.Server

/-- The run has its socket open and published. -/
def BindPc.serves (pc : BindPc) : Bool := pc.listens && pc.published

/-- The run has made its socket. -/
def BindPc.created : BindPc → Bool
  | .checking | .looking | .connecting _ | .validating _ | .removing | .binding => false
  | _ => true

/-- Having found the path stale, the run removes a file with this number from it. -/
def BindRun.takesStale (run : BindRun) (ino : Nat) : Bool :=
  match run.pc with
  | .validating existing => existing.ino == ino
  | .removing => true
  | _ => false

/-- Cleaning up, the run removes a file with this number from the path. -/
def BindRun.takesOwn (run : BindRun) (ino : Nat) : Bool :=
  match run.pc with
  | .cleaning targets _ => targets.contains .path && run.guard.identity == some ino
  | .erasing name targets _ =>
    name == .path || targets.contains .path && run.guard.identity == some ino
  | _ => false

/-- The run is between a look at the path and the removal that follows, and
would not notice that the file there is another one with this number. -/
def BindRun.poised (run : BindRun) (ino : Nat) : Bool := run.takesStale ino || run.takesOwn ino

/-- What `cleanup` has still to look at. -/
inductive BindRun.Cleans (run : BindRun) : List SocketName → Prop
  | both : run.temporary = true → run.guard.identity = some run.ino → Cleans run [.temporary, .path]
  | temporary : run.temporary = true →
      run.guard.identity = none ∨ run.guard.identity = some run.ino → Cleans run [.temporary]
  | path : run.temporary = false → run.guard.identity = some run.ino → Cleans run [.path]
  | done : run.temporary = false → Cleans run []

/-- What `cleanup` is about to remove, and what comes after it. -/
inductive BindRun.Erases (run : BindRun) : SocketName → List SocketName → Prop
  | both : run.temporary = true → run.guard.identity = some run.ino →
      Erases run .temporary [.path]
  | temporary : run.temporary = true → Erases run .temporary []
  | path : run.temporary = false → Erases run .path []

/-- The temporary name and the guard, by how far the run has come. -/
def BindRun.Wf (run : BindRun) : Prop :=
  match run.pc with
  | .checking | .looking | .connecting _ | .validating _ | .removing | .binding =>
    run.temporary = false ∧ run.guard = ⟨.temporary, none, none⟩
  | .hooking | .capturing => run.temporary = true ∧ run.guard = ⟨.temporary, none, none⟩
  | .restricting | .inspecting | .linking =>
    run.temporary = true ∧ run.guard = ⟨.temporary, none, some run.ino⟩
  | .unlinking => run.temporary = true ∧ run.guard = ⟨.temporary, some .path, some run.ino⟩
  | .confirming | .bound => run.temporary = false ∧ run.guard = ⟨.path, none, some run.ino⟩
  | .cleaning targets _ => run.Cleans targets
  | .erasing name targets _ => run.Erases name targets
  | .finished _ => run.temporary = false

/-- Before it has a socket, a run has nothing to remove. -/
theorem BindRun.Wf.early {run : BindRun} (hwf : run.Wf) (hfresh : run.pc.created = false) :
    run.temporary = false ∧ run.guard = ⟨.temporary, none, none⟩ := by
  unfold BindRun.Wf at hwf
  cases hpc : run.pc with
  | checking | looking | connecting _ | validating _ | removing | binding =>
    rw [hpc] at hwf
    exact hwf
  | hooking | capturing | restricting | inspecting | linking | unlinking | confirming | bound
  | cleaning _ _ | erasing _ _ _ | finished _ =>
    rw [hpc] at hfresh
    cases hfresh

/-- What there is to know of the file at the path. -/
structure PathView where
  file : SocketFile
  ino : Nat
  listening : Bool

structure RunOk (view : Option PathView) (i : Nat) (run : BindRun) : Prop where
  kept : run.pc.serves = true → ∃ x, view = some x ∧ x.file = .made i
  stale : ∀ x, view = some x → run.takesStale x.ino = true → x.listening = false
  own : ∀ x, view = some x → run.takesOwn x.ino = true → x.file = .made i

/-- Nothing to keep and nothing to remove. -/
structure BindRun.Idle (run : BindRun) : Prop where
  serves : run.pc.serves = false
  stale : ∀ ino, run.takesStale ino = false
  own : ∀ ino, run.takesOwn ino = false

section Runs
variable {view view' : Option PathView} {i j : Nat} {run run' : BindRun}

theorem BindRun.Idle.ok (h : run.Idle) : RunOk view i run where
  kept := fun hserves => absurd (h.serves.symm.trans hserves) Bool.false_ne_true
  stale := fun x _ htakes => absurd ((h.stale x.ino).symm.trans htakes) Bool.false_ne_true
  own := fun x _ htakes => absurd ((h.own x.ino).symm.trans htakes) Bool.false_ne_true

/-- A listener that closes changes nothing for the others. -/
theorem RunOk.mono (h : RunOk view i run)
    (hview : ∀ x', view' = some x' → ∃ x, view = some x ∧ x.file = x'.file ∧ x.ino = x'.ino ∧
      (x.listening = false → x'.listening = false))
    (hsame : view' = none → view = none) : RunOk view' i run := by
  constructor
  · intro hserves
    obtain ⟨x, hx, hfile⟩ := h.kept hserves
    cases hview' : view' with
    | none => cases hx.symm.trans (hsame hview')
    | some x' =>
      obtain ⟨y, hy, hfile', _⟩ := hview x' hview'
      cases hx.symm.trans hy
      exact ⟨x', rfl, hfile'.symm.trans hfile⟩
  · intro x' hx' htakes
    obtain ⟨x, hx, _, hino, hlow⟩ := hview x' hx'
    exact hlow (h.stale x hx (by rw [hino]; exact htakes))
  · intro x' hx' htakes
    obtain ⟨x, hx, hfile, hino, _⟩ := hview x' hx'
    exact hfile.symm.trans (h.own x hx (by rw [hino]; exact htakes))

/-- The run's socket is at the path, so that is what it takes. -/
theorem RunOk.of_serving (h : RunOk view i run) (hserves : run.pc.serves = true)
    (hstale : ∀ ino, run'.takesStale ino = false) : RunOk view i run' where
  kept := fun _ => h.kept hserves
  stale := fun x _ htakes => absurd ((hstale x.ino).symm.trans htakes) Bool.false_ne_true
  own := fun x hx _ => by
    obtain ⟨y, hy, hfile⟩ := h.kept hserves
    cases hx.symm.trans hy
    exact hfile

/-- A run that has no more in view than before. -/
theorem RunOk.carry (h : RunOk view i run) (hserves : run'.pc.serves = true → run.pc.serves = true)
    (hstale : ∀ ino, run'.takesStale ino = false)
    (hown : ∀ ino, run'.takesOwn ino = true → run.takesOwn ino = true) : RunOk view i run' where
  kept := fun hserves' => h.kept (hserves hserves')
  stale := fun x _ htakes => absurd ((hstale x.ino).symm.trans htakes) Bool.false_ne_true
  own := fun x hx htakes => h.own x hx (hown x.ino htakes)

/-- The file of somebody else is gone. -/
theorem RunOk.removed {x : PathView} (h : RunOk (some x) i run)
    (hother : run.pc.serves = true → x.file ≠ .made i) : RunOk none i run := by
  constructor
  · intro hserves
    obtain ⟨y, hy, hfile⟩ := h.kept hserves
    cases hy
    exact absurd hfile (hother hserves)
  · intro x hx
    cases hx
  · intro x hx
    cases hx

/-- A socket appears at the path, and the run would not take it away. -/
theorem RunOk.published {x : PathView} (h : RunOk none i run) (hpoised : run.poised x.ino = false) :
    RunOk (some x) i run := by
  obtain ⟨hstale, hown⟩ := Bool.or_eq_false_iff.mp hpoised
  constructor
  · intro hserves
    obtain ⟨y, hy, _⟩ := h.kept hserves
    cases hy
  · intro y hy htakes
    cases hy
    exact absurd (hstale.symm.trans htakes) Bool.false_ne_true
  · intro y hy htakes
    cases hy
    exact absurd (hown.symm.trans htakes) Bool.false_ne_true

end Runs

namespace ListenerState
variable {config : BindConfig} {s s' : ListenerState} {i j : Nat} {run run' : BindRun}
  {look : BindLook}

def view (config : BindConfig) (s : ListenerState) : Option PathView :=
  s.path.map fun file => ⟨file, (s.metadata config file).ino, s.listening file⟩

/-- What holds of every run. -/
structure Inv (s : ListenerState) : Prop where
  wf : ∀ i, (s.runs i).Wf
  created : ∀ i, s.path = some (.made i) → (s.runs i).pc.created = true

/-- What holds as long as no run is surprised. -/
structure Undisturbed (config : BindConfig) (s : ListenerState) : Prop where
  runs : ∀ i, RunOk (s.view config) i (s.runs i)
  initial : s.initialListening = true → s.path = some .initial

/-! ## What a step does -/

/-- The three things that a step of run `i` may do: leave the path alone,
remove what it has come for, or publish its socket where there is nothing. -/
inductive Move (config : BindConfig) (s : ListenerState) (i : Nat) (look : BindLook) :
    ListenerState → Prop
  | stay (run' : BindRun) : run'.Wf →
      ((s.runs i).pc.created = true → run'.pc.created = true ∧ run'.ino = (s.runs i).ino ∧
        (run'.pc.listens = true → (s.runs i).pc.listens = true)) →
      (RunOk (s.view config) i (s.runs i) → RunOk (s.view config) i run') →
      Move config s i look (s.put i run')
  | remove (run' : BindRun) (file : SocketFile) : s.path = some file → run'.Wf → run'.Idle →
      ((s.runs i).pc.created = true → run'.pc.created = true) →
      ((∀ ino, (s.runs i).takesStale ino = true) ∨ ∀ ino, (s.runs i).takesOwn ino = true) →
      Move config s i look { s.put i run' with path := none }
  | publish (run' : BindRun) : look.fails = none → s.path = none → (s.runs i).pc = .linking → run'.Wf →
      run'.pc = .unlinking → run'.ino = (s.runs i).ino →
      Move config s i look { s.put i run' with path := some (.made i) }

/-- A run that has no socket yet goes on. -/
theorem Move.early (pc : BindPc) (hfresh : (s.runs i).pc.created = false)
    (hwf : ({ s.runs i with pc } : BindRun).Wf)
    (hok : RunOk (s.view config) i (s.runs i) →
      RunOk (s.view config) i { s.runs i with pc }) :
    Move config s i look (s.goto i (s.runs i) pc) :=
  .stay _ hwf (fun hcreated => absurd (hfresh.symm.trans hcreated) Bool.false_ne_true) hok

/-- A run that fails before it has a socket is through. -/
theorem Move.abort {error : IoError} (hwf : (s.runs i).Wf)
    (hfresh : (s.runs i).pc.created = false) :
    Move config s i look (s.abort i (s.runs i) error) :=
  .early _ hfresh (hwf.early hfresh).1 fun _ =>
    BindRun.Idle.ok ⟨rfl, fun _ => rfl, fun _ => rfl⟩

theorem probe_looking (hwf : (s.runs i).Wf) (hpc : (s.runs i).pc = .looking) :
    Move config s i look (s.probe config i (s.runs i) .looking) := by
  have hfresh : (s.runs i).pc.created = false := by rw [hpc]; rfl
  unfold probe
  simp only
  split
  · exact .early .binding hfresh (hwf.early hfresh) fun _ => BindRun.Idle.ok ⟨rfl, fun _ => rfl, fun _ => rfl⟩
  · split
    · exact .abort hwf hfresh
    · exact .early (.connecting _) hfresh (hwf.early hfresh) fun _ =>
        BindRun.Idle.ok ⟨rfl, fun _ => rfl, fun _ => rfl⟩

/-- The refused connection says that nobody listens on the file at the path. -/
theorem probe_connecting {existing : FileMetadata} (hwf : (s.runs i).Wf)
    (hpc : (s.runs i).pc = .connecting existing) :
    Move config s i look (s.probe config i (s.runs i) (.connecting existing)) := by
  have hfresh : (s.runs i).pc.created = false := by rw [hpc]; rfl
  unfold probe
  simp only
  split
  · exact .abort hwf hfresh
  · rename_i file hpath
    split
    · exact .abort hwf hfresh
    · rename_i hrefused
      split
      · exact .abort hwf hfresh
      · refine .early (.validating existing) hfresh (hwf.early hfresh) fun _ =>
          ⟨fun h => (by cases h), fun x hx _ => ?_, fun x _ h => (by cases h)⟩
        rw [view, hpath] at hx
        cases hx
        exact Bool.not_eq_true _ ▸ hrefused

theorem probe_validating {existing : FileMetadata} (hwf : (s.runs i).Wf)
    (hpc : (s.runs i).pc = .validating existing) :
    Move config s i look (s.probe config i (s.runs i) (.validating existing)) := by
  have hfresh : (s.runs i).pc.created = false := by rw [hpc]; rfl
  unfold probe
  simp only
  split
  · exact .abort hwf hfresh
  · rename_i file hpath
    split
    · rename_i hmatches
      refine .early .removing hfresh (hwf.early hfresh) fun hok =>
        ⟨fun h => (by cases h), fun x hx _ => ?_, fun x _ h => (by cases h)⟩
      -- the file has the number that was looked at before the connection
      refine hok.stale x hx ?_
      rw [view, hpath] at hx
      cases hx
      simp only [BindRun.takesStale, hpc, beq_iff_eq]
      exact (eq_of_beq (Bool.and_eq_true_iff.mp hmatches).2).symm
    · exact .abort hwf hfresh

theorem probe_removing (hwf : (s.runs i).Wf) (hpc : (s.runs i).pc = .removing) :
    Move config s i look (s.probe config i (s.runs i) .removing) := by
  have hfresh : (s.runs i).pc.created = false := by rw [hpc]; rfl
  have htakes : ∀ ino, (s.runs i).takesStale ino = true := by
    intro ino
    rw [BindRun.takesStale, hpc]
  unfold probe
  simp only
  split
  · exact .abort hwf hfresh
  · rename_i file hpath
    exact .remove _ file hpath (hwf.early hfresh) ⟨rfl, fun _ => rfl, fun _ => rfl⟩
      (fun hcreated => absurd (hfresh.symm.trans hcreated) Bool.false_ne_true) (.inl htakes)

/-- A run that has its socket goes on with it. -/
theorem Move.late {run' : BindRun} (hwf : run'.Wf) (hcreated : run'.pc.created = true)
    (hino : run'.ino = (s.runs i).ino)
    (hlistens : run'.pc.listens = true → (s.runs i).pc.listens = true)
    (hok : RunOk (s.view config) i (s.runs i) → RunOk (s.view config) i run') :
    Move config s i look (s.put i run') :=
  .stay _ hwf (fun _ => ⟨hcreated, hino, hlistens⟩) hok

/-! ## The socket of a run -/

theorem targets_temporary {guard : CreatedSocketGuard} {identity : Option Nat}
    (h : guard = ⟨.temporary, none, identity⟩) : guard.targets = [.temporary] := by
  rw [h]
  rfl

theorem targets_both {guard : CreatedSocketGuard} {identity : Option Nat}
    (h : guard = ⟨.temporary, some .path, identity⟩) : guard.targets = [.temporary, .path] := by
  rw [h]
  rfl

theorem targets_path {guard : CreatedSocketGuard} {identity : Option Nat}
    (h : guard = ⟨.path, none, identity⟩) : guard.targets = [.path] := by
  rw [h]
  rfl

/-- A run that fails before its socket is published removes the temporary name. -/
theorem Move.fail_temporary {error : IoError} {identity : Option Nat}
    (hlistens : (s.runs i).pc.listens = true) (htemporary : (s.runs i).temporary = true)
    (hguard : (s.runs i).guard = ⟨.temporary, none, identity⟩)
    (hidentity : identity = none ∨ identity = some (s.runs i).ino) :
    Move config s i look (s.fail i (s.runs i) error) := by
  unfold ListenerState.fail
  rw [targets_temporary hguard]
  refine .late (.temporary htemporary ?_) rfl rfl (fun _ => hlistens)
    fun _ => BindRun.Idle.ok ⟨rfl, fun _ => rfl, fun _ => rfl⟩
  rw [hguard]
  exact hidentity

/-- A guard that cleans up a published socket. -/
theorem Move.clean_path {outcome : BindOutcome} (hserves : (s.runs i).pc.serves = true)
    (htemporary : (s.runs i).temporary = false)
    (hguard : (s.runs i).guard = ⟨.path, none, some (s.runs i).ino⟩) :
    Move config s i look (s.goto i (s.runs i) (.cleaning (s.runs i).guard.targets outcome)) := by
  rw [targets_path hguard]
  refine .late (.path htemporary ?_) rfl rfl (fun _ => (Bool.and_eq_true_iff.mp hserves).1)
    fun hok => hok.of_serving hserves fun _ => rfl
  rw [hguard]

/-- The temporary name is there until the guard takes it away. -/
theorem resolve_temporary (h : run.temporary = true) :
    s.resolve i run .temporary = some (.made i) := if_pos h

theorem made_matches : (s.metadata config (.made i)).matches (s.runs i).ino = true :=
  beq_self_eq_true _

theorem Move.none (hwf : (s.runs i).Wf) : Move config s i look s := by
  have hmove : Move config s i look (s.put i (s.runs i)) :=
    .stay _ hwf (fun h => ⟨h, rfl, id⟩) id
  rwa [put, Function.update_eq_self] at hmove

/-- From the bound temporary name to the finished listener. -/
theorem create_move (hwf : (s.runs i).Wf) (hlook : look.fails = none) :
    Move config s i look (s.create config i (s.runs i) (s.runs i).pc) := by
  have hidle : ∀ {run' : BindRun}, run'.Idle →
      (RunOk (s.view config) i (s.runs i) → RunOk (s.view config) i run') := fun h _ => h.ok
  have hnone : Move config s i look s := .none hwf
  unfold create
  unfold BindRun.Wf at hwf
  cases hpc : (s.runs i).pc with
  | hooking =>
    simp only [hpc] at hwf ⊢
    exact .late hwf rfl rfl (fun _ => by rw [hpc]; rfl) (hidle ⟨rfl, fun _ => rfl, fun _ => rfl⟩)
  | capturing =>
    simp only [hpc] at hwf ⊢
    simp only [resolve_temporary hwf.1]
    refine .late ⟨hwf.1, ?_⟩ rfl rfl (fun _ => by rw [hpc]; rfl)
      (hidle ⟨rfl, fun _ => rfl, fun _ => rfl⟩)
    rw [hwf.2]
    rfl
  | restricting =>
    simp only [hpc] at hwf ⊢
    exact .late hwf rfl rfl (fun _ => by rw [hpc]; rfl) (hidle ⟨rfl, fun _ => rfl, fun _ => rfl⟩)
  | inspecting =>
    simp only [hpc] at hwf ⊢
    simp only [resolve_temporary hwf.1, hwf.2, Option.any_some, made_matches, if_true]
    exact .late hwf rfl rfl (fun _ => by rw [hpc]; rfl) (hidle ⟨rfl, fun _ => rfl, fun _ => rfl⟩)
  | linking =>
    simp only [hpc] at hwf ⊢
    split
    · exact .fail_temporary (by rw [hpc]; rfl) hwf.1 hwf.2 (.inr rfl)
    · rename_i hpath
      refine .publish _ hlook hpath hpc ⟨hwf.1, ?_⟩ rfl rfl
      rw [hwf.2]
  | unlinking =>
    have hserves : (s.runs i).pc.serves = true := by rw [hpc]; rfl
    simp only [hpc] at hwf ⊢
    simp only [resolve_temporary hwf.1]
    refine .late ⟨rfl, ?_⟩ rfl rfl (fun _ => by rw [hpc]; rfl)
      fun hok => hok.of_serving hserves fun _ => rfl
    rw [hwf.2]
  | confirming =>
    have hserves : (s.runs i).pc.serves = true := by rw [hpc]; rfl
    simp only [hpc] at hwf ⊢
    split
    · exact .clean_path hserves hwf.1 hwf.2
    · split
      · exact .late hwf rfl rfl (fun _ => by rw [hpc]; rfl)
          fun hok => hok.of_serving hserves fun _ => rfl
      · exact .clean_path hserves hwf.1 hwf.2
  | _ => exact hnone

theorem owns_made {identity : Option Nat} (hidentity : run.guard.identity = identity)
    (h : identity = none ∨ identity = some (s.runs i).ino) :
    run.guard.owns (s.metadata config (.made i)) = true := by
  rw [CreatedSocketGuard.owns, hidentity]
  rcases h with rfl | rfl
  · rfl
  · exact made_matches

/-- A clean-up that is through with the path. -/
theorem cleaned_idle {run' : BindRun} {outcome : BindOutcome}
    (hpc : run'.pc = .cleaning [] outcome ∨ run'.pc = .erasing .temporary [] outcome ∨
      run'.pc = .finished outcome) : run'.Idle := by
  obtain ⟨pc, ino, temporary, guard⟩ := run'
  simp only at hpc
  rcases hpc with rfl | rfl | rfl <;>
    exact ⟨by simp [BindPc.serves, BindPc.published], fun _ => rfl, fun _ => rfl⟩

/-- The guard looks at a name. -/
theorem cleaning_move {targets : List SocketName} {outcome : BindOutcome}
    (hpc : (s.runs i).pc = .cleaning targets outcome) (hwf : (s.runs i).Cleans targets) :
    Move config s i look (s.clean config i (s.runs i) (.cleaning targets outcome)) := by
  have hlistens : outcome.listens = true → (s.runs i).pc.listens = true := by
    intro h
    rw [hpc]
    exact h
  have hidle : ∀ {run' : BindRun}, run'.Idle →
      (RunOk (s.view config) i (s.runs i) → RunOk (s.view config) i run') := fun h _ => h.ok
  cases hwf with
  | done htemporary =>
    refine .late htemporary rfl rfl (fun h => hlistens ?_) (hidle (cleaned_idle (.inr (.inr rfl))))
    rw [eq_of_beq h]
    rfl
  | both htemporary hidentity =>
    simp only [clean, resolve_temporary htemporary, owns_made hidentity (.inr rfl), if_true]
    refine .late (.both htemporary hidentity) rfl rfl hlistens fun hok => ?_
    refine hok.carry (fun h => ?_) (fun _ => rfl) fun ino h => ?_
    · rw [hpc]
      exact h
    · rw [BindRun.takesOwn, hpc]
      exact h
  | temporary htemporary hidentity =>
    simp only [clean, resolve_temporary htemporary, owns_made rfl hidentity, if_true]
    exact .late (.temporary htemporary) rfl rfl hlistens (hidle (cleaned_idle (.inr (.inl rfl))))
  | path htemporary hidentity =>
    have hthrough : Move config s i look (s.goto i (s.runs i) (.cleaning [] outcome)) :=
      .late (.done htemporary) rfl rfl hlistens (hidle (cleaned_idle (.inl rfl)))
    unfold clean
    simp only
    split
    · exact hthrough
    · rename_i file hpath
      split
      · rename_i howns
        refine .late (.path htemporary) rfl rfl hlistens fun hok => ⟨fun h => ?_, ?_, ?_⟩
        · refine hok.kept ?_
          rw [hpc]
          exact h
        · intro x _ h
          cases h
        · -- the file has the number of the run's own socket
          intro x hx _
          refine hok.own x hx ?_
          have hfile : s.view config =
              some ⟨file, (s.metadata config file).ino, s.listening file⟩ :=
            congrArg (Option.map _) hpath
          cases hfile.symm.trans hx
          rw [CreatedSocketGuard.owns, hidentity] at howns
          have hino := eq_of_beq (Bool.and_eq_true_iff.mp howns).2
          simp only [BindRun.takesOwn, hpc, hidentity, hino]
          exact beq_self_eq_true (some _)
      · exact hthrough

/-- The guard removes a name. -/
theorem erasing_move {name : SocketName} {targets : List SocketName} {outcome : BindOutcome}
    (hpc : (s.runs i).pc = .erasing name targets outcome) (hwf : (s.runs i).Erases name targets) :
    Move config s i look (s.clean config i (s.runs i) (.erasing name targets outcome)) := by
  have hlistens : outcome.listens = true → (s.runs i).pc.listens = true := by
    intro h
    rw [hpc]
    exact h
  cases hwf with
  | both htemporary hidentity =>
    simp only [clean, resolve_temporary htemporary]
    refine .late (.path rfl hidentity) rfl rfl hlistens fun hok => ?_
    refine hok.carry (fun h => ?_) (fun _ => rfl) fun ino h => ?_
    · rw [hpc]
      exact h
    · rw [BindRun.takesOwn, hpc]
      exact h
  | temporary htemporary =>
    simp only [clean, resolve_temporary htemporary]
    exact .late (.done rfl) rfl rfl hlistens fun _ => (cleaned_idle (.inl rfl)).ok
  | path htemporary =>
    unfold clean
    simp only
    split
    · refine .late htemporary rfl rfl (fun h => hlistens ?_)
        fun _ => (cleaned_idle (.inr (.inr rfl))).ok
      rw [eq_of_beq h]
      rfl
    · rename_i file hpath
      refine .remove _ file hpath (.done htemporary) (cleaned_idle (.inl rfl)) (fun _ => rfl)
        (.inr fun ino => ?_)
      rw [BindRun.takesOwn, hpc]
      rfl

/-- A call of `bind_inner` that fails once there is a guard. -/
theorem fail_move {error : IoError} (hwf : (s.runs i).Wf) (hlistens : (s.runs i).pc.listens = true)
    (hfirst : (s.runs i).pc ≠ .bound)
    (hcleaning : ∀ targets outcome, (s.runs i).pc ≠ .cleaning targets outcome)
    (herasing : ∀ name targets outcome, (s.runs i).pc ≠ .erasing name targets outcome)
    (hfinished : ∀ outcome, (s.runs i).pc ≠ .finished outcome) :
    Move config s i look (s.fail i (s.runs i) error) := by
  unfold BindRun.Wf at hwf
  cases hpc : (s.runs i).pc with
  | hooking | capturing =>
    simp only [hpc] at hwf
    exact .fail_temporary hlistens hwf.1 hwf.2 (.inl rfl)
  | restricting | inspecting | linking =>
    simp only [hpc] at hwf
    exact .fail_temporary hlistens hwf.1 hwf.2 (.inr rfl)
  | unlinking =>
    have hserves : (s.runs i).pc.serves = true := by rw [hpc]; rfl
    simp only [hpc] at hwf
    unfold ListenerState.fail
    rw [targets_both hwf.2]
    refine .late (.both hwf.1 ?_) rfl rfl (fun _ => hlistens)
      fun hok => hok.of_serving hserves fun _ => rfl
    rw [hwf.2]
  | confirming =>
    simp only [hpc] at hwf
    exact .clean_path (by rw [hpc]; rfl) hwf.1 hwf.2
  | checking | looking | connecting _ | validating _ | removing | binding =>
    rw [hpc] at hlistens
    cases hlistens
  | bound => exact absurd hpc hfirst
  | cleaning targets outcome => exact absurd hpc (hcleaning targets outcome)
  | erasing name targets outcome => exact absurd hpc (herasing name targets outcome)
  | finished outcome => exact absurd hpc (hfinished outcome)

/-- **What a step of a run does.** -/
theorem turn_move (hwf : (s.runs i).Wf)
    (h : s.turn config i (s.runs i) look = some s') : Move config s i look s' := by
  unfold turn at h
  cases hpc : (s.runs i).pc with
  | checking =>
    have hfresh : (s.runs i).pc.created = false := by rw [hpc]; rfl
    simp only [hpc] at h
    split at h
    · cases h
      exact .abort hwf hfresh
    · cases h
      exact .early .looking hfresh (hwf.early hfresh) fun _ =>
        BindRun.Idle.ok ⟨rfl, fun _ => rfl, fun _ => rfl⟩
  | looking =>
    have hfresh : (s.runs i).pc.created = false := by rw [hpc]; rfl
    simp only [hpc] at h
    split at h
    · cases h
      exact .early .binding hfresh (hwf.early hfresh) fun _ =>
        BindRun.Idle.ok ⟨rfl, fun _ => rfl, fun _ => rfl⟩
    · cases h
      exact probe_looking hwf hpc
  | connecting existing =>
    have hfresh : (s.runs i).pc.created = false := by rw [hpc]; rfl
    simp only [hpc] at h
    split at h
    · cases h
      exact .abort hwf hfresh
    · cases h
      exact probe_connecting hwf hpc
  | validating existing =>
    have hfresh : (s.runs i).pc.created = false := by rw [hpc]; rfl
    simp only [hpc] at h
    split at h
    · cases h
      exact .abort hwf hfresh
    · cases h
      exact probe_validating hwf hpc
  | removing =>
    have hfresh : (s.runs i).pc.created = false := by rw [hpc]; rfl
    simp only [hpc] at h
    split at h
    · cases h
      exact .abort hwf hfresh
    · cases h
      exact probe_removing hwf hpc
  | binding =>
    have hfresh : (s.runs i).pc.created = false := by rw [hpc]; rfl
    simp only [hpc] at h
    split at h
    · cases h
      exact .abort hwf hfresh
    · split at h
      · cases h
      · cases h
        exact .stay _ ⟨rfl, (hwf.early hfresh).2⟩
          (fun hcreated => absurd (hfresh.symm.trans hcreated) Bool.false_ne_true)
          fun _ => BindRun.Idle.ok ⟨rfl, fun _ => rfl, fun _ => rfl⟩
  | hooking | capturing | restricting | inspecting | linking | unlinking | confirming =>
    simp only [hpc] at h
    split at h
    · cases h
      refine fail_move hwf (by rw [hpc]; rfl) ?_ ?_ ?_ ?_ <;> simp [hpc]
    · rename_i hlook
      cases h
      exact hpc ▸ create_move hwf hlook
  | cleaning targets outcome =>
    simp only [hpc] at h
    cases h
    simp only [BindRun.Wf, hpc] at hwf
    exact cleaning_move hpc hwf
  | erasing name targets outcome =>
    simp only [hpc] at h
    cases h
    simp only [BindRun.Wf, hpc] at hwf
    exact erasing_move hpc hwf
  | bound =>
    simp only [hpc] at h
    cases h
  | finished outcome =>
    simp only [hpc] at h
    cases h

end ListenerState
end VcdTools.Server
