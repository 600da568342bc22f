import VcdTools.Lib.Potential
import VcdTools.Server.App

/-! # What the server keeps

In every run, whoever moves: the limiter counts the threads that hold a permit,
a stream is turned away only at the limit, no thread is lost or joined twice,
and a server that returns has ended all its threads. Once the flag is set, the
server stops by itself. -/
namespace VcdTools.Server
open VcdTools.Lib

/-- The permit that the loop has in hand. -/
def AppPc.permits : AppPc → Nat
  | .announcing | .spawning => 1
  | _ => 0

/-- The handles that `reap_finished` has put back so far. -/
def AppPc.kept : AppPc → List Nat
  | .reaping active => active
  | _ => []

/-- The stream that has not been reported yet. -/
def AppPc.unreported : AppPc → Nat
  | .admitting | .rejecting | .announcing => 1
  | _ => 0

/-- The stream that was reported as accepted and has no thread. -/
def AppPc.unspawned : AppPc → Nat
  | .spawning | .panicked => 1
  | _ => 0

/-- The flag has been set by the teardown. -/
def AppPc.isStopped : AppPc → Bool
  | .joining _ | .cleaning _ | .returned _ => true
  | _ => false

/-- All handles have been joined. -/
def AppPc.isCleared : AppPc → Bool
  | .cleaning _ | .returned _ => true
  | _ => false

/-- `run_server_with_dispatcher` has been left. -/
def AppPc.isOver : AppPc → Bool
  | .returned _ | .panicked => true
  | _ => false

/-- What a thread has still to do once the flag is set. -/
def ConnectionThread.weight : ConnectionThread → Nat
  | .preparing => 8
  | .counting => 7
  | .reading jobs => 6 + jobs
  | .closing jobs => 5 + jobs
  | .joining jobs => 4 + jobs
  | .uncounting _ => 3
  | .releasing _ => 2
  | .reporting => 1
  | .finished _ => 0

/-- The jobs that a client sends. -/
def ThreadLook.credit : ThreadLook → Nat
  | .data admitted _ => admitted
  | _ => 0

/-- All steps but those that bring data are the server's own. -/
def ThreadLook.own : ThreadLook → Bool
  | .data _ _ => false
  | _ => true

/-- What the loop has still to do once the flag is set, with so many handles: a
stream that it has yet to admit may cost it one more thread. -/
def AppPc.weight (handles : Nat) : AppPc → Nat
  | .reaping active => 19 + active.length + 2 * handles
  | .hooking => 18 + handles
  | .accepting => 17 + handles
  | .admitting => 16 + handles
  | .announcing => 15 + handles
  | .spawning => 14 + handles
  | .rejecting => 5 + handles
  | .checking => 4 + handles
  | .stopping _ => 3 + handles
  | .joining _ => 2 + handles
  | .cleaning _ => 1
  | .returned _ | .panicked => 0

/-- The error that ended the accept loop. -/
def AppPc.failure : AppPc → Option IoError
  | .stopping result | .joining result | .cleaning result | .returned result =>
    match result with
    | .error error => some error
    | .ok () => none
  | _ => none

namespace AppAction

def own : AppAction → Bool
  | .signal => false
  | .loop _ => true
  | .thread _ look => look.own

def credit : AppAction → Nat
  | .signal | .loop _ => 0
  | .thread _ look => look.credit

end AppAction

namespace App
variable {config : RuntimeConfig} {s s' : App} {i : Nat} {old new : ConnectionThread}
  {look : ThreadLook}

/-! ## The steps of a thread -/

/-- Thread `i` goes from `old` to `new`. -/
structure Moved (s s' : App) (i : Nat) (look : ThreadLook) (old new : ConnectionThread) :
    Prop where
  here : s.threads[i]? = some old
  unfinished : old.isFinished = false
  threads : s'.threads = s.threads.set i new
  active : s'.active + old.holdsPermit.toNat = s.active + new.holdsPermit.toNat
  gainsNone : new.holdsPermit.toNat ≤ old.holdsPermit.toNat
  counted : s'.counted + old.holdsRunGuard.toNat = s.counted + new.holdsRunGuard.toNat
  events : s'.events = s.events ++ List.replicate new.hasReported.toNat .connectionFinished
  pc : s'.pc = s.pc
  shutdown : s'.shutdown = s.shutdown
  handles : s'.handles = s.handles
  joined : s'.joined = s.joined
  streams : s'.streams = s.streams
  weight : s.shutdown = true → look.own.toNat + new.weight ≤ old.weight + look.credit

theorem moved_setThread (here : s.threads[i]? = some old) (unfinished : old.isFinished = false)
    (hpermit : new.holdsPermit = old.holdsPermit) (hguard : new.holdsRunGuard = old.holdsRunGuard)
    (hreported : new.hasReported = false)
    (hweight : look.own.toNat + new.weight ≤ old.weight + look.credit) :
    Moved s (s.setThread i new) i look old new where
  here := here
  unfinished := unfinished
  threads := rfl
  active := by rw [hpermit]; rfl
  gainsNone := by rw [hpermit]
  counted := by rw [hguard]; rfl
  events := by rw [hreported]; exact (List.append_nil _).symm
  pc := rfl
  shutdown := rfl
  handles := rfl
  joined := rfl
  streams := rfl
  weight := fun _ => hweight

/-- What a step of a connection thread does. -/
theorem thread_moved (h : s.thread i look = some s') : ∃ old new, Moved s s' i look old new := by
  unfold thread at h
  split at h
  case h_1 here | h_2 here | h_6 here | h_7 here | h_8 here | h_9 here | h_10 here | h_11 here |
      h_12 here | h_13 here | h_14 here =>
    cases h
    refine ⟨_, _, moved_setThread here rfl rfl rfl rfl ?_⟩
    simp only [ThreadLook.own, ThreadLook.credit, ConnectionThread.weight, Bool.toNat_true]
    omega
  case h_3 here =>
    cases h
    exact ⟨_, .reading 0, here, rfl, rfl, rfl, Nat.le_refl _,
      by simp [ConnectionThread.holdsRunGuard], (List.append_nil _).symm, rfl, rfl, rfl, rfl, rfl,
      fun _ => Nat.le_refl _⟩
  case h_4 jobs disconnected here =>
    split at h
    · cases h
      refine ⟨_, _, moved_setThread here rfl rfl rfl rfl ?_⟩
      simp only [ThreadLook.own, ThreadLook.credit, ConnectionThread.weight, Bool.toNat_true]
      omega
    · rename_i hflags
      cases h
      refine ⟨_, .reading jobs, here, rfl, ?_, rfl, Nat.le_refl _, rfl, (List.append_nil _).symm,
        rfl, rfl, rfl, rfl, rfl, fun hset => absurd (by simp [hset]) hflags⟩
      obtain ⟨hlt, hget⟩ := List.getElem?_eq_some_iff.mp here
      rw [← hget, List.set_getElem_self]
  case h_5 jobs admitted breaks here =>
    cases h
    cases breaks with
    | true | false =>
      refine ⟨_, _, moved_setThread here rfl rfl rfl rfl ?_⟩
      simp only [ThreadLook.own, ThreadLook.credit, ConnectionThread.weight, Bool.toNat_false,
        if_true, if_false, Bool.false_eq_true]
      omega
  case h_15 reports here =>
    cases h
    exact ⟨_, .releasing reports, here, rfl, rfl, rfl, Nat.le_refl _,
      by simp [ConnectionThread.holdsRunGuard], (List.append_nil _).symm, rfl, rfl, rfl, rfl, rfl,
      fun _ => Nat.le_refl _⟩
  case h_16 reports here =>
    cases h
    cases reports with
    | true | false =>
      exact ⟨_, _, here, rfl, rfl, by simp [ConnectionThread.holdsPermit], Nat.zero_le _, rfl,
        (List.append_nil _).symm, rfl, rfl, rfl, rfl, rfl, fun _ => by
          simp [ThreadLook.own, ThreadLook.credit, ConnectionThread.weight]⟩
  case h_17 here =>
    cases h
    exact ⟨_, .finished true, here, rfl, rfl, rfl, Nat.le_refl _, rfl, rfl, rfl, rfl, rfl, rfl,
      rfl, fun _ => Nat.le_refl _⟩
  case h_18 => cases h

/-! ## The accounts -/

structure Accounted (config : RuntimeConfig) (s : App) : Prop where
  /-- The limiter counts the permits of the threads and the one that the loop has in hand. -/
  permits : s.active = s.threads.countP (·.holdsPermit) + s.pc.permits
  limit : s.active ≤ config.maxConnections
  guards : s.counted = s.threads.countP (·.holdsRunGuard)
  /-- The handle of every thread is in the vector, or its thread has been joined. -/
  handles : (s.pc.kept ++ s.handles ++ s.joined).Perm (List.range s.threads.length)
  joined : ∀ i ∈ s.joined, s.isFinished i = true
  accepted : s.events.count .connectionAccepted = s.threads.length + s.pc.unspawned
  reported : s.events.count .connectionFinished = s.threads.countP (·.hasReported)
  /-- Every stream is reported as accepted or as rejected. -/
  streams : s.streams = s.events.count .connectionAccepted +
    s.events.count .connectionRejected + s.pc.unreported
  stopped : s.pc.isStopped = true → s.shutdown = true
  cleared : s.pc.isCleared = true → s.handles = []

theorem accounted_init (config : RuntimeConfig) (shutdown : Bool) :
    Accounted config (.init shutdown) where
  permits := rfl
  limit := Int.natCast_nonneg _
  guards := rfl
  handles := List.Perm.refl _
  joined := nofun
  accepted := rfl
  reported := rfl
  streams := rfl
  stopped := nofun
  cleared := nofun

theorem isFinished_iff : s.isFinished i = true ↔
    ∃ thread, s.threads[i]? = some thread ∧ thread.isFinished = true := by
  simp only [isFinished, Option.any_eq_true]

/-- A finished thread stays what it is. -/
theorem Moved.isFinished (hm : Moved s s' i look old new) {j : Nat}
    (h : s.isFinished j = true) : s'.isFinished j = true := by
  obtain ⟨thread, hget, hfinished⟩ := isFinished_iff.mp h
  have hne : i ≠ j := by
    rintro rfl
    have heq : old = thread := Option.some.inj (hm.here.symm.trans hget)
    rw [← heq, hm.unfinished] at hfinished
    cases hfinished
  exact isFinished_iff.mpr ⟨thread, hm.threads ▸ Pool.get_set_ne hne hget, hfinished⟩

theorem Accounted.moved (hi : Accounted config s) (hm : Moved s s' i look old new) :
    Accounted config s' := by
  have hold : old.hasReported = false := by
    cases old with
    | finished reported => cases hm.unfinished
    | _ => rfl
  have hpermits := Pool.countP_set_toNat (·.holdsPermit) hm.here new
  have hguards := Pool.countP_set_toNat (·.holdsRunGuard) hm.here new
  have hreported := Pool.countP_set_toNat (·.hasReported) hm.here new
  rw [hold, Bool.toNat_false, Nat.add_zero] at hreported
  rw [← hm.threads] at hpermits hguards hreported
  have hlength : s'.threads.length = s.threads.length := by rw [hm.threads, List.length_set]
  refine ⟨?_, ?_, ?_, ?_, ?_, ?_, ?_, ?_, ?_, ?_⟩
  · have := hi.permits
    have := hm.active
    rw [hm.pc]
    omega
  · have := hi.limit
    have := hm.active
    have := hm.gainsNone
    omega
  · have := hi.guards
    have := hm.counted
    omega
  · rw [hm.pc, hm.handles, hm.joined, hlength]
    exact hi.handles
  · rw [hm.joined]
    exact fun j hj => hm.isFinished (hi.joined j hj)
  · rw [hm.events, hm.pc, hlength, List.count_append, hi.accepted]
    simp [List.count_replicate]
  · rw [hm.events, List.count_append, hi.reported, List.count_replicate_self, hreported]
  · rw [hm.streams, hm.events, hm.pc, hi.streams]
    simp [List.count_replicate]
  · rw [hm.pc, hm.shutdown]
    exact hi.stopped
  · rw [hm.pc, hm.handles]
    exact hi.cleared

/-- A handle moves from the front of the vector to the end of the joined ones. -/
theorem perm_join (kept rest joined : List Nat) (i : Nat) :
    (kept ++ rest ++ (joined ++ [i])).Perm (kept ++ i :: rest ++ joined) := by
  rw [← List.append_assoc]
  refine (List.perm_append_singleton i _).trans ?_
  rw [List.append_assoc, List.append_assoc, List.cons_append]
  exact List.perm_middle.symm

/-- What a step of the loop does not touch. -/
theorem Accounted.ofLoop (hi : Accounted config s) {pc : AppPc} {handles joined : List Nat}
    (hpermits : pc.permits = s.pc.permits) (hunspawned : pc.unspawned = s.pc.unspawned)
    (hunreported : pc.unreported = s.pc.unreported)
    (hhandles : (pc.kept ++ handles ++ joined).Perm (s.pc.kept ++ s.handles ++ s.joined))
    (hjoined : ∀ i ∈ joined, s.isFinished i = true)
    (hstopped : pc.isStopped = true → s.shutdown = true)
    (hcleared : pc.isCleared = true → handles = []) :
    Accounted config { s with pc, handles, joined } where
  permits := hpermits ▸ hi.permits
  limit := hi.limit
  guards := hi.guards
  handles := hhandles.trans hi.handles
  joined := hjoined
  accepted := hunspawned ▸ hi.accepted
  reported := hi.reported
  streams := hunreported ▸ hi.streams
  stopped := hstopped
  cleared := hcleared

theorem Accounted.join (hi : Accounted config s) {rest : List Nat} (hrest : s.handles = i :: rest)
    (hfinished : s.isFinished i = true) :
    (s.pc.kept ++ rest ++ (s.joined ++ [i])).Perm (s.pc.kept ++ s.handles ++ s.joined) ∧
      ∀ j ∈ s.joined ++ [i], s.isFinished j = true := by
  constructor
  · rw [hrest]
    exact perm_join _ _ _ _
  · intro j hj
    rcases List.mem_append.mp hj with hj | hj
    · exact hi.joined j hj
    · cases List.mem_singleton.mp hj
      exact hfinished

/-- A step of the loop that only moves on. -/
theorem Accounted.goTo (hi : Accounted config s) {pc : AppPc}
    (hpermits : pc.permits = s.pc.permits) (hunspawned : pc.unspawned = s.pc.unspawned)
    (hunreported : pc.unreported = s.pc.unreported) (hkept : pc.kept = s.pc.kept)
    (hstopped : pc.isStopped = true → s.shutdown = true)
    (hcleared : pc.isCleared = true → s.handles = []) : Accounted config { s with pc } :=
  hi.ofLoop hpermits hunspawned hunreported (hkept ▸ List.Perm.refl _) hi.joined hstopped hcleared

/-- The permit in hand goes to a new thread. -/
theorem Accounted.spawn {shutdown : Bool} {active counted : Int}
    {threads : List ConnectionThread} {handles joined : List Nat} {events : List ServerEvent}
    {streams : Nat}
    (hi : Accounted config
      ⟨.spawning, shutdown, active, counted, threads, handles, joined, events, streams⟩) :
    Accounted config ⟨.checking, shutdown, active, counted, threads ++ [.preparing],
      handles ++ [threads.length], joined, events, streams⟩ where
  permits := by
    have := hi.permits
    simp only [AppPc.permits, List.countP_append] at this ⊢
    exact this
  limit := hi.limit
  guards := by
    have := hi.guards
    simp only [List.countP_append] at this ⊢
    exact this
  handles := by
    have := hi.handles
    simp only [AppPc.kept, List.nil_append, List.length_append, List.length_singleton,
      List.range_succ] at this ⊢
    rw [List.append_assoc]
    refine (List.perm_append_comm.append_left _).trans ?_
    rw [← List.append_assoc]
    exact this.append_right _
  joined := fun i hi' => by
    obtain ⟨thread, hget, hfinished⟩ := isFinished_iff.mp (hi.joined i hi')
    exact isFinished_iff.mpr ⟨thread, Pool.get_append_old hget, hfinished⟩
  accepted := by
    have := hi.accepted
    simp only [AppPc.unspawned, List.length_append] at this ⊢
    exact this
  reported := by
    have := hi.reported
    simp only [List.countP_append] at this ⊢
    exact this
  streams := hi.streams
  stopped := nofun
  cleared := nofun

theorem Accounted.loop (hi : Accounted config s) {look : AppLook}
    (h : s.loop config look = some s') : Accounted config s' := by
  obtain ⟨pc, shutdown, active, counted, threads, handles, joined, events, streams⟩ := s
  cases pc with
  | checking =>
    simp only [App.loop] at h
    split at h
    · cases h; exact hi.goTo rfl rfl rfl rfl nofun nofun
    · cases h; exact hi.goTo rfl rfl rfl rfl nofun nofun
  | reaping kept =>
    cases handles with
    | nil =>
      cases h
      refine hi.ofLoop rfl rfl rfl ?_ hi.joined nofun nofun
      simp [AppPc.kept]
    | cons i rest =>
      simp only [App.loop] at h
      split at h
      · rename_i hfinished
        cases h
        obtain ⟨hperm, hjoined⟩ := hi.join rfl hfinished
        exact hi.ofLoop rfl rfl rfl hperm hjoined hi.stopped nofun
      · cases h
        refine hi.ofLoop rfl rfl rfl ?_ hi.joined nofun nofun
        simp [AppPc.kept]
  | hooking =>
    simp only [App.loop] at h
    split at h
    · cases h; exact hi.goTo rfl rfl rfl rfl nofun nofun
    · cases h; exact hi.goTo rfl rfl rfl rfl nofun nofun
  | accepting =>
    simp only [App.loop] at h
    split at h
    · cases h
      exact { hi with stopped := nofun, cleared := nofun, streams := congrArg (· + 1) hi.streams }
    · cases h; exact hi.goTo rfl rfl rfl rfl nofun nofun
    · cases h; exact hi.goTo rfl rfl rfl rfl nofun nofun
  | admitting =>
    simp only [App.loop] at h
    split at h
    · rename_i hroom
      cases h
      exact { hi with
        permits := congrArg (· + 1) hi.permits
        limit := hroom
        stopped := nofun
        cleared := nofun }
    · cases h; exact hi.goTo rfl rfl rfl rfl nofun nofun
  | rejecting =>
    cases h
    exact { hi with
      accepted := by simpa [AppPc.unspawned] using hi.accepted
      reported := by simpa using hi.reported
      streams := by have := hi.streams; simp [AppPc.unreported] at this ⊢; omega
      stopped := nofun
      cleared := nofun }
  | announcing =>
    cases h
    exact { hi with
      accepted := by simpa [AppPc.unspawned] using hi.accepted
      reported := by simpa using hi.reported
      streams := by have := hi.streams; simp [AppPc.unreported] at this ⊢; omega
      stopped := nofun
      cleared := nofun }
  | spawning =>
    simp only [App.loop] at h
    split at h
    · cases h
      exact hi.spawn
    · cases h
      exact { hi with
        permits := by have := hi.permits; simp only [AppPc.permits] at this ⊢; omega
        limit := by have := hi.limit; simp only at this ⊢; omega
        stopped := nofun
        cleared := nofun }
  | stopping result =>
    cases h
    exact { hi with stopped := fun _ => rfl, cleared := nofun }
  | joining result =>
    cases handles with
    | nil => cases h; exact hi.goTo rfl rfl rfl rfl hi.stopped fun _ => rfl
    | cons i rest =>
      simp only [App.loop] at h
      split at h
      · rename_i hfinished
        cases h
        obtain ⟨hperm, hjoined⟩ := hi.join rfl hfinished
        exact hi.ofLoop rfl rfl rfl hperm hjoined hi.stopped nofun
      · cases h
  | cleaning result =>
    cases result with
    | error error => cases h; exact hi.goTo rfl rfl rfl rfl hi.stopped hi.cleared
    | ok _ => cases h; exact hi.goTo rfl rfl rfl rfl hi.stopped hi.cleared
  | returned result => cases h
  | panicked => cases h

theorem Accounted.step (hi : Accounted config s) {a : AppAction}
    (h : s.step config a = some s') : Accounted config s' := by
  cases a with
  | signal =>
    cases h
    exact { hi with stopped := fun _ => rfl }
  | loop look => exact hi.loop h
  | thread i look =>
    obtain ⟨old, new, hm⟩ := thread_moved h
    exact hi.moved hm

/-- What holds of every reachable state holds along every run. -/
theorem always_of_accounted {P : App → Prop} (hP : ∀ s, Accounted config s → P s)
    (shutdown : Bool) (actions : List AppAction) :
    Runs.Always (step config) P (.init shutdown) actions := by
  rw [Runs.always_iff_prefix]
  intro taken _ s hs
  exact hP s (Runs.exec_invariant (fun _ _ _ hi h => Accounted.step hi h) taken _ s
    (accounted_init config shutdown) hs)

/-! ## Admission -/

/-- What the limiter and the statistics say at any time. -/
structure Admits (config : RuntimeConfig) (s : App) : Prop extends Accounted config s where
  /-- The connections counted are threads that hold a permit. -/
  nested : s.counted ≤ s.threads.countP (·.holdsPermit)
  /-- A stream is turned away exactly when the threads hold all the permits. -/
  turnsAway : s.pc = .admitting → ∀ look s', s.loop config look = some s' →
    (s'.pc = .rejecting ↔ s.threads.countP (·.holdsPermit) = config.maxConnections)

theorem holdsPermit_of_holdsRunGuard {thread : ConnectionThread}
    (h : thread.holdsRunGuard = true) : thread.holdsPermit = true := by
  cases thread with
  | reading _ | closing _ | joining _ | uncounting _ => rfl
  | preparing | counting | releasing _ | reporting | finished _ => cases h

/-- **Whoever moves, the limiter, the statistics, the handles and the events
account for every stream and every thread.** -/
theorem server_accounted (config : RuntimeConfig) (shutdown : Bool) (actions : List AppAction) :
    Runs.Always (step config) (Admits config) (.init shutdown) actions := by
  refine always_of_accounted (fun s hi => ⟨hi, ?_, ?_⟩) shutdown actions
  · rw [hi.guards]
    exact Int.ofNat_le.mpr (List.countP_mono_left fun _ _ => holdsPermit_of_holdsRunGuard)
  · intro hpc look s' h
    have hpermits := hi.permits
    have hlimit := hi.limit
    simp only [App.loop, hpc] at h
    rw [hpc] at hpermits
    simp only [AppPc.permits] at hpermits
    split at h
    · cases h
      constructor
      · nofun
      · intro hfull
        omega
    · cases h
      exact ⟨fun _ => by omega, fun _ => rfl⟩

/-! ## The end -/

/-- `run_server_with_dispatcher` has returned, and with it everything it spawned. -/
structure Ended (config : RuntimeConfig) (s : App) : Prop where
  shutdown : s.shutdown = true
  finished : ∀ thread ∈ s.threads, thread.isFinished = true
  /-- Every thread has been joined, once. -/
  joined : s.joined.Perm (List.range s.threads.length)
  permits : s.active = 0
  guards : s.counted = 0
  still : ∀ a, a ≠ .signal → s.step config a = none

/-- What is true of the teardown at any time. -/
structure TearsDown (config : RuntimeConfig) (s : App) : Prop where
  ended : ∀ result, s.pc = .returned result → Ended config s
  /-- The error that ended the accept loop is what the server returns, however
  the cleanup ends. -/
  failed : ∀ error, s.pc.failure = some error → ∀ as s',
    Runs.exec (step config) s as = some s' → s'.pc.failure = some error

theorem failure_step {error : IoError} (hfailed : s.pc.failure = some error) {a : AppAction}
    (h : s.step config a = some s') : s'.pc.failure = some error := by
  cases a with
  | signal =>
    cases h
    exact hfailed
  | thread i look =>
    obtain ⟨old, new, hm⟩ := thread_moved h
    exact hm.pc ▸ hfailed
  | loop look =>
    obtain ⟨pc, shutdown, active, counted, threads, handles, joined, events, streams⟩ := s
    cases pc with
    | stopping result =>
      cases h
      exact hfailed
    | joining result =>
      cases handles with
      | nil => cases h; exact hfailed
      | cons i rest =>
        simp only [step, loop] at h
        split at h
        · cases h; exact hfailed
        · cases h
    | cleaning result =>
      cases result with
      | error _ => cases h; exact hfailed
      | ok _ => cases hfailed
    | returned result => cases h
    | panicked => cases h
    | checking | reaping _ | hooking | accepting | admitting | rejecting | announcing |
        spawning => cases hfailed

theorem Accounted.ended (hi : Accounted config s) {result : Except IoError Unit}
    (hpc : s.pc = .returned result) : Ended config s := by
  have hcleared := hi.cleared (by rw [hpc]; rfl)
  have hjoined : s.joined.Perm (List.range s.threads.length) := by
    have := hi.handles
    rw [hpc, hcleared] at this
    exact this
  have hfinished : ∀ thread ∈ s.threads, thread.isFinished = true := by
    intro thread hmem
    obtain ⟨i, hlt, rfl⟩ := List.getElem_of_mem hmem
    obtain ⟨thread, hget, hfinished⟩ :=
      isFinished_iff.mp (hi.joined i (hjoined.mem_iff.mpr (List.mem_range.mpr hlt)))
    rw [List.getElem?_eq_getElem hlt] at hget
    cases hget
    exact hfinished
  have hnone : ∀ p : ConnectionThread → Bool, (∀ reported, p (.finished reported) = false) →
      s.threads.countP p = 0 := by
    intro p hp
    refine List.countP_eq_zero.mpr fun thread hmem => ?_
    cases thread with
    | finished reported => simp [hp]
    | _ => cases hfinished _ hmem
  refine ⟨hi.stopped (by rw [hpc]; rfl), hfinished, hjoined, ?_, ?_, ?_⟩
  · rw [hi.permits, hpc, hnone _ fun _ => rfl]
    rfl
  · rw [hi.guards, hnone _ fun _ => rfl]
    rfl
  · intro a ha
    cases a with
    | signal => exact absurd rfl ha
    | loop look =>
      rw [App.step, App.loop, hpc]
    | thread i look =>
      rw [Option.eq_none_iff_forall_ne_some]
      intro s' h
      obtain ⟨old, new, hm⟩ := thread_moved h
      have := hfinished old (List.mem_of_getElem? hm.here)
      rw [hm.unfinished] at this
      cases this

/-- **A server that returns leaves nothing behind.** -/
theorem server_tears_down (config : RuntimeConfig) (shutdown : Bool) (actions : List AppAction) :
    Runs.Always (step config) (TearsDown config) (.init shutdown) actions :=
  always_of_accounted (fun _ hi => ⟨fun _ hpc => hi.ended hpc, fun error hfailed as s' h =>
    Runs.exec_invariant (I := fun s => s.pc.failure = some error)
      (fun _ _ _ hfailed h => failure_step hfailed h) as _ s' hfailed h⟩) shutdown actions

/-! ## The way to the end -/

/-- Upper bound of the steps that are left once the flag is set. -/
def potential (s : App) : Nat := s.pc.weight s.handles.length + (s.threads.map (·.weight)).sum

/-- **The server stops**: what is left for it to do is bounded but for what clients
still send, it always has a next step, and can be over without them. -/
structure Stops (config : RuntimeConfig) (s : App) : Prop where
  bounded : ∀ as s', Runs.exec (step config) s as = some s' →
    as.countP (·.own) ≤ s.potential + (as.map (·.credit)).sum
  live : s.pc.isOver = false → ∃ a s', a.own = true ∧ s.step config a = some s'
  ends : ∃ as s', Runs.exec (step config) s as = some s' ∧ s'.pc.isOver = true ∧
    (∀ a ∈ as, a.own = true) ∧ as.length ≤ s.potential

theorem loop_paid {look : AppLook} (hset : s.shutdown = true)
    (h : s.loop config look = some s') : 1 + s'.potential ≤ s.potential := by
  obtain ⟨pc, shutdown, active, counted, threads, handles, joined, events, streams⟩ := s
  cases hset
  cases pc with
  | checking => cases h; simp only [potential, AppPc.weight]; omega
  | reaping kept =>
    cases handles with
    | nil => cases h; simp [potential, AppPc.weight]; omega
    | cons i rest =>
      simp only [App.loop] at h
      split at h
      · cases h; simp only [potential, AppPc.weight, List.length_cons]; omega
      · cases h
        simp only [potential, AppPc.weight, List.length_cons, List.length_append, List.length_nil]
        omega
  | hooking =>
    simp only [App.loop] at h
    split at h
    · cases h; simp only [potential, AppPc.weight]; omega
    · cases h; simp only [potential, AppPc.weight]; omega
  | accepting =>
    simp only [App.loop] at h
    split at h
    · cases h; simp only [potential, AppPc.weight]; omega
    · cases h; simp only [potential, AppPc.weight]; omega
    · cases h; simp only [potential, AppPc.weight]; omega
  | admitting =>
    simp only [App.loop] at h
    split at h
    · cases h; simp only [potential, AppPc.weight]; omega
    · cases h; simp only [potential, AppPc.weight]; omega
  | rejecting => cases h; simp only [potential, AppPc.weight]; omega
  | announcing => cases h; simp only [potential, AppPc.weight]; omega
  | spawning =>
    simp only [App.loop] at h
    split at h
    · cases h
      simp only [potential, AppPc.weight, List.length_append, List.map_append, List.sum_append,
        List.length_singleton, List.map_singleton, List.sum_singleton, ConnectionThread.weight]
      omega
    · cases h; simp only [potential, AppPc.weight]; omega
  | stopping result => cases h; simp only [potential, AppPc.weight]; omega
  | joining result =>
    cases handles with
    | nil => cases h; simp only [potential, AppPc.weight, List.length_nil]; omega
    | cons i rest =>
      simp only [App.loop] at h
      split at h
      · cases h; simp only [potential, AppPc.weight, List.length_cons]; omega
      · cases h
  | cleaning result =>
    cases result with
    | error _ => cases h; simp only [potential, AppPc.weight]; omega
    | ok _ => cases h; simp only [potential, AppPc.weight]; omega
  | returned result => cases h
  | panicked => cases h

theorem loop_shutdown {look : AppLook} (hset : s.shutdown = true)
    (h : s.loop config look = some s') : s'.shutdown = true := by
  unfold loop at h
  repeat' split at h
  all_goals cases h
  all_goals first | exact hset | rfl

/-- Once the flag is set, a step is paid for. -/
theorem step_paid (hset : s.shutdown = true) {a : AppAction} (h : s.step config a = some s') :
    s'.shutdown = true ∧ Potential.cost (·.own) a + s'.potential ≤ s.potential + a.credit := by
  cases a with
  | signal =>
    cases h
    exact ⟨rfl, Nat.le_of_eq (Nat.zero_add _)⟩
  | loop look =>
    exact ⟨loop_shutdown hset h, loop_paid hset h⟩
  | thread i look =>
    obtain ⟨old, new, hm⟩ := thread_moved h
    refine ⟨hm.shutdown ▸ hset, ?_⟩
    have hsum := Potential.sum_map_set_add (·.weight) hm.here new
    have hweight := hm.weight hset
    have hcost : Potential.cost (·.own) (AppAction.thread i look) = look.own.toNat := by
      rw [Potential.cost, AppAction.own]
      cases look with
      | data _ _ => rfl
      | next | setupFails | timedOut _ | ended | jobDone | panics => rfl
    rw [hcost]
    simp only [potential, hm.threads, hm.pc, hm.handles, AppAction.credit]
    omega

/-- The step that a thread has left to take without a client. -/
def nextLook : ConnectionThread → ThreadLook
  | .reading _ => .timedOut false
  | .joining (_ + 1) => .jobDone
  | _ => .next

theorem thread_live {thread : ConnectionThread} (hget : s.threads[i]? = some thread)
    (hleft : thread.isFinished = false) : ∃ s', s.thread i (nextLook thread) = some s' := by
  cases thread with
  | reading jobs =>
    simp only [App.thread, nextLook, hget]
    split
    · exact ⟨_, rfl⟩
    · exact ⟨_, rfl⟩
  | joining jobs =>
    cases jobs with
    | zero | succ _ => simp only [App.thread, nextLook, hget]; exact ⟨_, rfl⟩
  | finished _ => cases hleft
  | preparing | counting | closing _ | uncounting _ | releasing _ | reporting =>
    simp only [App.thread, nextLook, hget]; exact ⟨_, rfl⟩

theorem nextLook_own (thread : ConnectionThread) :
    (nextLook thread).own = true ∧ (nextLook thread).credit = 0 := by
  cases thread with
  | joining jobs =>
    cases jobs with
    | zero | succ _ => exact ⟨rfl, rfl⟩
  | _ => exact ⟨rfl, rfl⟩

theorem loop_live {look : AppLook} {s' : App} (h : s.loop config look = some s') :
    ∃ a s', a.own = true ∧ a.credit = 0 ∧ s.step config a = some s' :=
  ⟨.loop look, s', rfl, rfl, h⟩

/-- Who waits, waits for a thread that can go on. -/
theorem Accounted.live (hi : Accounted config s) (hleft : s.pc.isOver = false) :
    ∃ a s', a.own = true ∧ a.credit = 0 ∧ s.step config a = some s' := by
  cases hloop : s.loop config {} with
  | some s' => exact loop_live hloop
  | none =>
    unfold App.loop at hloop
    split at hloop
    case h_10 result hpc =>
      split at hloop
      · cases hloop
      · rename_i i rest hhandles
        split at hloop
        · cases hloop
        · rename_i hrunning
          -- the thread that the teardown waits for
          have hmem : i ∈ List.range s.threads.length :=
            hi.handles.mem_iff.mp (by rw [hhandles]; simp)
          obtain ⟨thread, hget⟩ : ∃ thread, s.threads[i]? = some thread :=
            ⟨_, List.getElem?_eq_getElem (List.mem_range.mp hmem)⟩
          have hthread : thread.isFinished = false := by
            rw [isFinished_iff] at hrunning
            simpa [hget] using hrunning
          obtain ⟨s', h⟩ := thread_live hget hthread
          exact ⟨.thread i (nextLook _), s', (nextLook_own _).1, (nextLook_own _).2, h⟩
    case h_12 hpc => rw [hpc] at hleft; cases hleft
    case h_13 hpc => rw [hpc] at hleft; cases hleft
    all_goals repeat' split at hloop
    all_goals cases hloop

/-- **Once the flag is set, the server stops**, in every run and whoever moves. -/
theorem server_stops (config : RuntimeConfig) (shutdown : Bool) (actions : List AppAction) :
    Runs.Always (step config) (fun s => s.shutdown = true → Stops config s) (.init shutdown)
      actions := by
  have hstep : ∀ s a s', Accounted config s ∧ s.shutdown = true → s.step config a = some s' →
      (Accounted config s' ∧ s'.shutdown = true) ∧
        Potential.cost (·.own) a + s'.potential ≤ s.potential + a.credit := by
    intro s a s' ⟨hi, hset⟩ h
    obtain ⟨hset', hpaid⟩ := step_paid hset h
    exact ⟨⟨hi.step h, hset'⟩, hpaid⟩
  refine always_of_accounted (fun s hi hset => ⟨?_, ?_, ?_⟩) shutdown actions
  · intro as s' h
    exact (Nat.le_add_right _ _).trans (Potential.exec_paid hstep as s s' ⟨hi, hset⟩ h)
  · intro hleft
    obtain ⟨a, s', hown, -, h⟩ := hi.live hleft
    exact ⟨a, s', hown, h⟩
  · have hlive (t : App) (ht : Accounted config t ∧ t.shutdown = true)
        (hleft : ¬ t.pc.isOver = true) := ht.1.live (by simpa using hleft)
    exact Potential.exists_exec_over hstep hlive s ⟨hi, hset⟩

end App
end VcdTools.Server
