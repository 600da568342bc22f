import VcdTools.Lib.Pool
import VcdTools.Opened.MetadataMoves

/-! # The invariant of the metadata cache

What holds in every state that any interleaving reaches: the waiter count of
the current attempt, the one builder behind `Building`, the order of the
attempt ids, what each caller may still return, and whose scan a stored
outcome comes from. -/
namespace VcdTools.Opened
open VcdTools.Query VcdTools.Lib

variable {debug : Bool} {state state' : MetadataState} {c : Caller} {pc' : Pc}

/-! ## Counts and owners -/

/-- The attempt a caller is counted on as a waiter, until it acknowledges or
drops its registration. -/
def Pc.counted : Pc → Option Nat
  | .looping waitingFor _ => waitingFor
  | .observedReady _ registration => registration
  | .acknowledging registration _ | .abandoning registration _ => some registration
  | _ => none

/-- The attempt a caller was elected for and has not published yet. -/
def Pc.builds : Pc → Option Nat
  | .building a | .publishing a _ | .publishingWithContext a _ | .unwinding a => some a
  | _ => none

/-- The attempt of `Building` or `Failed` and the count stored with it. -/
def MetadataPhase.waiting : MetadataPhase → Option (Nat × Nat)
  | .building attempt waiters => some (attempt, waiters)
  | .failed attempt _ pendingWaiters => some (attempt, pendingWaiters)
  | _ => none

/-- The callers counted on `attempt`. -/
def Cache.waiters (s : Cache) (attempt : Nat) : Nat :=
  s.callers.countP fun c => c.pc.counted = some attempt

@[simp] theorem blockOrLeave_counted (context : QueryContext) (a : Nat) :
    (blockOrLeave context a).counted = some a := by
  unfold blockOrLeave
  split <;> rfl

@[simp] theorem blockOrLeave_builds (context : QueryContext) (a : Nat) :
    (blockOrLeave context a).builds = none := by
  unfold blockOrLeave
  split <;> rfl

theorem elect_some (h : state.elect = some state') :
    state'.nextAttempt = state.nextAttempt + 1 ∧
      state'.phase = .building state.nextAttempt 0 ∧
      state'.elections = state.elections ++ [state.nextAttempt] := by
  obtain ⟨next, hn, rfl⟩ := Option.map_eq_some_iff.mp h
  exact ⟨checkedSucc_some hn, rfl, rfl⟩

/-! ## How the shared state moves -/

/-- One step of any caller, seen from the shared state. -/
inductive Shift (state : MetadataState) : MetadataState → Prop
  | same : Shift state state
  | recountBuilding {a w w'} : state.phase = .building a w →
      Shift state (state.withPhase (.building a w'))
  | recountFailed {a e p p'} : state.phase = .failed a e p →
      Shift state (state.withPhase (.failed a e p'))
  | elects {elected} : state.phase = .absent → state.elect = some elected → Shift state elected
  | publishesReady {a w m} : state.phase = .building a w →
      Shift state (state.withPhase (.ready m a))
  | publishesFailed {a w e} : state.phase = .building a w →
      Shift state (state.withPhase (.failed a e w))
  | resets {a w} : state.phase = .building a w → Shift state (state.withPhase .absent)
  | retries {a e} : state.phase = .failed a e 0 → Shift state (state.withPhase .absent)

theorem dropRegistration_shift (r : Nat) : Shift state (dropRegistration state r) := by
  unfold dropRegistration
  split
  · split
    · exact .recountBuilding ‹_›
    · exact .same
  · split
    · exact .recountFailed ‹_›
    · exact .same
  · exact .same

theorem Move.shift (h : Move debug state c state' pc') : Shift state state' := by
  cases h with
  | retryClears _ hp => exact .retries hp
  | plainAcknowledges _ _ hp => exact .recountFailed hp
  | plainRegisters _ _ hp | contextRegisters _ _ hp _ => exact .recountBuilding hp
  | elects _ hp he _ => exact .elects hp he
  | acknowledges _ | abandons _ => exact dropRegistration_shift _
  | publishesReady _ hp | publishesContextReady _ hp => exact .publishesReady hp
  | publishesFailed _ hp | publishesContextFailed _ hp _ | unwinds _ hp =>
    exact .publishesFailed hp
  | publishesTransient _ hp _ => exact .resets hp
  | _ => exact .same

theorem Shift.nextAttempt_le (h : Shift state state') : state.nextAttempt ≤ state'.nextAttempt := by
  cases h with
  | elects _ he => rw [(elect_some he).1]; omega
  | _ => exact Nat.le_refl _

theorem Shift.elections (h : Shift state state') :
    (state'.elections = state.elections ∧ state'.nextAttempt = state.nextAttempt) ∨
      (state'.elections = state.elections ++ [state.nextAttempt] ∧
        state'.nextAttempt = state.nextAttempt + 1) := by
  cases h with
  | elects _ he => exact .inr ⟨(elect_some he).2.2, (elect_some he).1⟩
  | _ => exact .inl ⟨rfl, rfl⟩

/-- Once `Ready`, always `Ready` with the same value. -/
theorem Shift.ready {m : VcdMeta} {b : Nat} (h : Shift state state')
    (hp : state.phase = .ready m b) : state'.phase = .ready m b := by
  cases h with
  | same => exact hp
  | recountBuilding h | recountFailed h | elects h _ | publishesReady h | publishesFailed h
  | resets h | retries h => rw [hp] at h; cases h

/-- An attempt that is neither building nor failed and was handed out before
never comes back. -/
theorem Shift.over {r : Nat} (h : Shift state state') (hlt : r < state.nextAttempt)
    (ho : ∀ n, state.phase.waiting ≠ some (r, n)) : ∀ n, state'.phase.waiting ≠ some (r, n) := by
  intro n hn
  cases h with
  | same => exact ho n hn
  | @recountBuilding a w w' hp =>
    simp only [MetadataState.withPhase_phase, MetadataPhase.waiting, Option.some.injEq,
      Prod.mk.injEq] at hn
    exact ho w (by rw [hp, ← hn.1]; rfl)
  | @recountFailed a e p p' hp =>
    simp only [MetadataState.withPhase_phase, MetadataPhase.waiting, Option.some.injEq,
      Prod.mk.injEq] at hn
    exact ho p (by rw [hp, ← hn.1]; rfl)
  | elects _ he =>
    rw [(elect_some he).2.1] at hn
    simp only [MetadataPhase.waiting, Option.some.injEq, Prod.mk.injEq] at hn
    omega
  | @publishesFailed a w e hp =>
    simp only [MetadataState.withPhase_phase, MetadataPhase.waiting, Option.some.injEq,
      Prod.mk.injEq] at hn
    exact ho w (by rw [hp, ← hn.1]; rfl)
  | publishesReady _ | resets _ | retries _ => simp [MetadataPhase.waiting] at hn

/-- `Building a` starts with the election of `a`. -/
theorem Shift.building {a w : Nat} (h : Shift state state') (hlt : a < state.nextAttempt)
    (ho : ∀ n, state.phase ≠ .building a n) : state'.phase ≠ .building a w := by
  intro hw
  cases h with
  | same => exact ho w hw
  | recountBuilding hp =>
    simp only [MetadataState.withPhase_phase, MetadataPhase.building.injEq] at hw
    exact ho _ (hw.1 ▸ hp)
  | elects _ he =>
    rw [(elect_some he).2.1, MetadataPhase.building.injEq] at hw
    omega
  | recountFailed _ | publishesReady _ | publishesFailed _ | resets _ | retries _ =>
    simp at hw

/-- `Failed a` comes from `Building a`; its error does not change. -/
theorem Shift.failed {a p : Nat} {e : CachedMetadataError} (h : Shift state state')
    (hp' : state'.phase = .failed a e p) :
    (∃ w, state.phase = .building a w) ∨ ∃ p₀, state.phase = .failed a e p₀ := by
  cases h with
  | same => exact .inr ⟨p, hp'⟩
  | recountFailed hp =>
    simp only [MetadataState.withPhase_phase, MetadataPhase.failed.injEq] at hp'
    obtain ⟨rfl, rfl, _⟩ := hp'
    exact .inr ⟨_, hp⟩
  | publishesFailed hp =>
    simp only [MetadataState.withPhase_phase, MetadataPhase.failed.injEq] at hp'
    exact .inl ⟨_, hp'.1 ▸ hp⟩
  | elects _ he => rw [(elect_some he).2.1] at hp'; cases hp'
  | recountBuilding _ | publishesReady _ | resets _ | retries _ => simp at hp'

/-! ## What a caller may still return -/

/-- `q` is what the caller's own context says. -/
def Caller.Ended (c : Caller) (q : QueryError) : Prop :=
  (q = .cancelled ∧ c.context.cancelled = true) ∨
    (q = .deadlineExceeded ∧ c.context.expired = true)

/-- A result is the published value, or an error; a policy error is about the
caller's own context or its own scan. -/
def OutcomeOk (state : MetadataState) (c : Caller) : Outcome → Prop
  | .ok metadata => ∃ b, state.phase = .ready metadata b
  | .queryError q => q.isPolicy = true →
      c.Ended q ∨ ∃ a, c.scanned = some (a, .withContext (.error q))
  | _ => True

/-- Before its own scan has ended. -/
def Pc.unscanned : Pc → Prop
  | .checking _ | .publishing _ _ | .publishingWithContext _ _ | .unwinding _ | .returned _ =>
    False
  | _ => True

def PcOk (state : MetadataState) (c : Caller) : Prop :=
  match c.pc with
  | .entering => c.entry = .metadataWithContext
  | .retrying _ => c.entry = .retryMetadata
  | .looping _ _ | .building _ => True
  | .observedReady metadata _ =>
    c.entry = .metadataWithContext ∧ ∃ b, state.phase = .ready metadata b
  | .acknowledging r o => c.entry = .metadataWithContext ∧
    (∀ w, state.phase ≠ .building r w) ∧
    (∀ e p, state.phase = .failed r e p → o = .queryError (.fromVcd e.toError)) ∧
    ∃ e : CachedMetadataError, o = .queryError (.fromVcd e.toError)
  | .abandoning r o => c.entry = .metadataWithContext ∧
    ((o = .panicked ∧ ∀ n, state.phase.waiting ≠ some (r, n)) ∨
      ∃ q, o = .queryError q ∧ c.Ended q)
  | .checking o => c.entry = .metadataWithContext ∧ OutcomeOk state c o
  | .publishing a result => c.entry ≠ .metadataWithContext ∧ c.scanned = some (a, .plain result)
  | .publishingWithContext a result =>
    c.entry = .metadataWithContext ∧ c.scanned = some (a, .withContext result)
  | .unwinding a => c.scanned = some (a, .panicked)
  | .returned o => OutcomeOk state c o

section PcOk
variable {m : VcdMeta} {r a : Nat} {reg : Option Nat} {o : Outcome}

theorem PcOk.retrying {asleep : Bool} (h : PcOk state c) (hpc : c.pc = .retrying asleep) :
    c.entry = .retryMetadata := by
  simpa only [PcOk, hpc] using h

theorem PcOk.observedReady (h : PcOk state c) (hpc : c.pc = .observedReady m reg) :
    c.entry = .metadataWithContext ∧ ∃ b, state.phase = .ready m b := by
  simpa only [PcOk, hpc] using h

theorem PcOk.acknowledging (h : PcOk state c) (hpc : c.pc = .acknowledging r o) :
    c.entry = .metadataWithContext ∧ (∀ w, state.phase ≠ .building r w) ∧
      (∀ e p, state.phase = .failed r e p → o = .queryError (.fromVcd e.toError)) ∧
      ∃ e : CachedMetadataError, o = .queryError (.fromVcd e.toError) := by
  simpa only [PcOk, hpc] using h

theorem PcOk.abandoning (h : PcOk state c) (hpc : c.pc = .abandoning r o) :
    c.entry = .metadataWithContext ∧
      ((o = .panicked ∧ ∀ n, state.phase.waiting ≠ some (r, n)) ∨
        ∃ q, o = .queryError q ∧ c.Ended q) := by
  simpa only [PcOk, hpc] using h

theorem PcOk.checking (h : PcOk state c) (hpc : c.pc = .checking o) :
    c.entry = .metadataWithContext ∧ OutcomeOk state c o := by
  simpa only [PcOk, hpc] using h

theorem PcOk.publishing {result : Except VcdError VcdMeta} (h : PcOk state c)
    (hpc : c.pc = .publishing a result) :
    c.entry ≠ .metadataWithContext ∧ c.scanned = some (a, .plain result) := by
  simpa only [PcOk, hpc] using h

theorem PcOk.publishingWithContext {result : Except QueryError VcdMeta} (h : PcOk state c)
    (hpc : c.pc = .publishingWithContext a result) :
    c.entry = .metadataWithContext ∧ c.scanned = some (a, .withContext result) := by
  simpa only [PcOk, hpc] using h

theorem PcOk.unwinding (h : PcOk state c) (hpc : c.pc = .unwinding a) :
    c.scanned = some (a, .panicked) := by
  simpa only [PcOk, hpc] using h

theorem PcOk.returned (h : PcOk state c) (hpc : c.pc = .returned o) : OutcomeOk state c o := by
  simpa only [PcOk, hpc] using h

end PcOk

/-- The cached error a scan leaves behind: `none` when it stores `Ready` or
resets the phase. -/
def Scan.cached : Scan → Option CachedMetadataError
  | .plain (.error error) => some (.capture error)
  | .withContext (.error error) => (cacheError error).map .capture
  | .panicked => some .builderPanicked
  | _ => none

def Scan.metadata : Scan → Option VcdMeta
  | .plain (.ok metadata) | .withContext (.ok metadata) => some metadata
  | _ => none

structure Inv (s : Cache) : Prop where
  /-- The stored count is the number of callers counted on the attempt. -/
  accounted : ∀ a n, s.state.phase.waiting = some (a, n) → n = s.waiters a
  current_lt : ∀ a n, s.state.phase.waiting = some (a, n) → a < s.state.nextAttempt
  counted_lt : ∀ i c a, s.caller i = some c → c.pc.counted = some a → a < s.state.nextAttempt
  /-- A caller that was elected and has not published finds its own attempt. -/
  builder : ∀ i c a, s.caller i = some c → c.pc.builds = some a →
    ∃ w, s.state.phase = .building a w
  builder_unique : ∀ i j c d a b, s.caller i = some c → s.caller j = some d →
    c.pc.builds = some a → d.pc.builds = some b → i = j
  building : ∀ a w, s.state.phase = .building a w →
    ∃ i c, s.caller i = some c ∧ c.pc.builds = some a
  sorted : s.state.elections.Pairwise (· < ·)
  elections_lt : ∀ a ∈ s.state.elections, a < s.state.nextAttempt
  pcOk : ∀ i c, s.caller i = some c → PcOk s.state c
  unscanned : ∀ i c, s.caller i = some c → c.pc.unscanned → c.scanned = none
  /-- A stored error comes from the scan of the attempt it is stored for. -/
  failed : ∀ a e p, s.state.phase = .failed a e p →
    ∃ i c scan, s.caller i = some c ∧ c.scanned = some (a, scan) ∧ scan.cached = some e
  ready : ∀ m a, s.state.phase = .ready m a →
    ∃ i c scan, s.caller i = some c ∧ c.scanned = some (a, scan) ∧ scan.metadata = some m

theorem inv_init : Inv .init where
  accounted := by intro a n h; cases h
  current_lt := by intro a n h; cases h
  counted_lt := by intro i c a h; simp [Cache.init] at h
  builder := by intro i c a h; simp [Cache.init] at h
  builder_unique := by intro i j c d a b h; simp [Cache.init] at h
  building := by intro a w h; cases h
  sorted := List.Pairwise.nil
  elections_lt := by intro a h; cases h
  pcOk := by intro i c h; simp [Cache.init] at h
  unscanned := by intro i c h; simp [Cache.init] at h
  failed := by intro a e p h; cases h
  ready := by intro m a h; cases h

/-! ## One step keeps it -/

/-- What the replacement of one caller `c` by `c'` and of the shared state has
to do for the invariant to survive. -/
structure Effect (state state' : MetadataState) (c c' : Caller) : Prop where
  shift : Shift state state'
  balance : ∀ a n', state'.phase.waiting = some (a, n') →
    (∃ n, state.phase.waiting = some (a, n) ∧
      n' + (if c.pc.counted = some a then 1 else 0) =
        n + (if c'.pc.counted = some a then 1 else 0)) ∨
    (a = state.nextAttempt ∧ a < state'.nextAttempt ∧ n' = 0 ∧ c'.pc.counted = none)
  counted : ∀ a, c'.pc.counted = some a →
    c.pc.counted = some a ∨ ∃ n, state.phase.waiting = some (a, n)
  builds : (c'.pc.builds = c.pc.builds ∧
      ∀ a, (∃ w, state'.phase = .building a w) ↔ ∃ w, state.phase = .building a w) ∨
    (state.phase = .absent ∧ c'.pc.builds = some state.nextAttempt ∧
      state'.phase = .building state.nextAttempt 0) ∨
    ((∃ a, c.pc.builds = some a) ∧ c'.pc.builds = none ∧ ∀ b w, state'.phase ≠ .building b w)
  pcOk : PcOk state' c'
  unscanned : c'.pc.unscanned → c'.scanned = none
  scanned : c'.scanned = c.scanned ∨ c.scanned = none
  failed : ∀ a e p, state'.phase = .failed a e p → (∃ p₀, state.phase = .failed a e p₀) ∨
    ∃ scan, c'.scanned = some (a, scan) ∧ scan.cached = some e
  ready : ∀ m a, state'.phase = .ready m a → state.phase = .ready m a ∨
    ∃ scan, c'.scanned = some (a, scan) ∧ scan.metadata = some m

theorem OutcomeOk.shift {o : Outcome} (h : Shift state state') (ho : OutcomeOk state c o) :
    OutcomeOk state' c o := by
  cases o with
  | ok m =>
    obtain ⟨b, hb⟩ := ho
    exact ⟨b, h.ready hb⟩
  | queryError q => exact ho
  | vcdError e | panicked => trivial

/-- The other callers' steps keep what a caller may return. -/
theorem PcOk.shift (h : Shift state state')
    (hlt : ∀ a, c.pc.counted = some a → a < state.nextAttempt) (hok : PcOk state c) :
    PcOk state' c := by
  unfold PcOk at hok ⊢
  cases hpc : c.pc with
  | observedReady m r =>
    simp only [hpc] at hok ⊢
    obtain ⟨he, b, hb⟩ := hok
    exact ⟨he, b, h.ready hb⟩
  | acknowledging r o =>
    simp only [hpc] at hok ⊢
    obtain ⟨he, hb, hf, ho⟩ := hok
    have hr : r < state.nextAttempt := hlt r (by rw [hpc]; rfl)
    refine ⟨he, fun w => h.building hr hb, fun e p hp => ?_, ho⟩
    rcases h.failed hp with ⟨w, hw⟩ | ⟨p₀, hp₀⟩
    · exact absurd hw (hb w)
    · exact hf e p₀ hp₀
  | abandoning r o =>
    simp only [hpc] at hok ⊢
    obtain ⟨he, ⟨ho, hover⟩ | hq⟩ := hok
    · exact ⟨he, .inl ⟨ho, h.over (hlt r (by rw [hpc]; rfl)) hover⟩⟩
    · exact ⟨he, .inr hq⟩
  | checking o =>
    simp only [hpc] at hok ⊢
    exact ⟨hok.1, hok.2.shift h⟩
  | returned o =>
    simp only [hpc] at hok ⊢
    exact hok.shift h
  | looping _ _ | building _ => trivial
  | entering | retrying _ | publishing _ _ | publishingWithContext _ _ | unwinding _ =>
    simpa only [hpc] using hok

/-- Whoever has scanned still has after another caller's step. -/
theorem Effect.keepsScan {callers : List Caller} {i j : Nat} {c' d : Caller}
    {scan : Nat × Scan} {P : Prop} (he : Effect state state' c c')
    (hget : callers[i]? = some c) (hj : callers[j]? = some d) (hd : d.scanned = some scan)
    (k : ∀ (l : Nat) (f : Caller), (callers.set i c')[l]? = some f → f.scanned = some scan → P) :
    P := by
  by_cases hij : i = j
  · subst hij
    cases Option.some.inj (hget.symm.trans hj)
    rcases he.scanned with h | h
    · exact k i c' (Pool.get_set_self hget) (h.trans hd)
    · rw [h] at hd
      cases hd
  · exact k j d (Pool.get_set_ne hij hj) hd

theorem Inv.replace {s : Cache} {i : Nat} {c' : Caller} (hi : Inv s)
    (hget : s.callers[i]? = some c) (he : Effect s.state state' c c') :
    Inv ⟨state', s.callers.set i c'⟩ where
  accounted := by
    intro a n' hn'
    have hset := Pool.countP_set_add (y := c') (fun d : Caller => decide (d.pc.counted = some a)) hget
    simp only [decide_eq_true_eq] at hset
    simp only [Cache.waiters]
    rcases he.balance a n' hn' with ⟨n, hn, hbal⟩ | ⟨rfl, _, rfl, hc'⟩
    · have hacc := hi.accounted a n hn
      simp only [Cache.waiters] at hacc
      omega
    · -- the attempt is fresh: nobody is counted on it yet
      have hzero : (s.callers.countP fun d => decide (d.pc.counted = some s.state.nextAttempt)) = 0 := by
        rw [List.countP_eq_zero]
        intro d hd hcd
        obtain ⟨j, hj⟩ := List.mem_iff_getElem?.mp hd
        have := hi.counted_lt j d _ hj (of_decide_eq_true hcd)
        omega
      simp only [hc', reduceCtorEq, if_false] at hset
      omega
  current_lt := by
    intro a n hn
    have hle := he.shift.nextAttempt_le
    rcases he.balance a n hn with ⟨m, hm, _⟩ | ⟨_, hlt, _, _⟩
    · exact Nat.lt_of_lt_of_le (hi.current_lt a m hm) hle
    · exact hlt
  counted_lt := by
    intro j d a hj hd
    have hle := he.shift.nextAttempt_le
    rcases Pool.get_set hj with ⟨rfl, rfl⟩ | ⟨_, hj⟩
    · rcases he.counted a hd with hc | ⟨n, hn⟩
      · exact Nat.lt_of_lt_of_le (hi.counted_lt i c a hget hc) hle
      · exact Nat.lt_of_lt_of_le (hi.current_lt a n hn) hle
    · exact Nat.lt_of_lt_of_le (hi.counted_lt j d a hj hd) hle
  builder := by
    intro j d a hj hd
    rcases he.builds with ⟨hb, hphase⟩ | ⟨habs, hb, hphase⟩ | ⟨⟨b, hb⟩, hnone, _⟩
    · rcases Pool.get_set hj with ⟨rfl, rfl⟩ | ⟨_, hj⟩
      · exact (hphase a).mpr (hi.builder i c a hget (hb ▸ hd))
      · exact (hphase a).mpr (hi.builder j d a hj hd)
    · rcases Pool.get_set hj with ⟨rfl, rfl⟩ | ⟨_, hj⟩
      · rw [hb] at hd
        exact ⟨0, Option.some.inj hd ▸ hphase⟩
      · obtain ⟨w, hw⟩ := hi.builder j d a hj hd
        rw [habs] at hw
        cases hw
    · rcases Pool.get_set hj with ⟨rfl, rfl⟩ | ⟨hij, hj⟩
      · rw [hnone] at hd
        cases hd
      · exact absurd (hi.builder_unique i j c d b a hget hj hb hd) hij
  builder_unique := by
    intro j k d e a b hj hk hd he'
    rcases he.builds with ⟨hb, _⟩ | ⟨habs, hb, _⟩ | ⟨⟨x, hx⟩, hnone, _⟩
    · rcases Pool.get_set hj with ⟨rfl, rfl⟩ | ⟨_, hj₀⟩ <;>
        rcases Pool.get_set hk with ⟨rfl, rfl⟩ | ⟨_, hk₀⟩
      · rfl
      · exact hi.builder_unique _ _ _ _ a b hget hk₀ (hb ▸ hd) he'
      · exact hi.builder_unique _ _ _ _ a b hj₀ hget hd (hb ▸ he')
      · exact hi.builder_unique _ _ _ _ a b hj₀ hk₀ hd he'
    · have nobody : ∀ (l : Nat) (f : Caller) (y : Nat), s.callers[l]? = some f →
          f.pc.builds ≠ some y := by
        intro l f y hl hf
        obtain ⟨w, hw⟩ := hi.builder l f y hl hf
        rw [habs] at hw
        cases hw
      rcases Pool.get_set hj with ⟨rfl, rfl⟩ | ⟨_, hj⟩
      · rcases Pool.get_set hk with ⟨rfl, rfl⟩ | ⟨_, hk⟩
        · rfl
        · exact absurd he' (nobody k e b hk)
      · exact absurd hd (nobody j d a hj)
    · have others : ∀ (l : Nat) (f : Caller) (y : Nat), (s.callers.set i c')[l]? = some f →
          f.pc.builds ≠ some y := by
        intro l f y hl hf
        rcases Pool.get_set hl with ⟨rfl, rfl⟩ | ⟨hil, hl⟩
        · rw [hnone] at hf
          cases hf
        · exact hil (hi.builder_unique i l c f x y hget hl hx hf)
      exact absurd hd (others j d a hj)
  building := by
    intro a w hw
    rcases he.builds with ⟨hb, hphase⟩ | ⟨_, hb, hphase⟩ | ⟨_, _, hno⟩
    · obtain ⟨w₀, hw₀⟩ := (hphase a).mp ⟨w, hw⟩
      obtain ⟨j, d, hj, hd⟩ := hi.building a w₀ hw₀
      by_cases hij : i = j
      · subst hij
        cases Option.some.inj (hget.symm.trans hj)
        exact ⟨i, c', Pool.get_set_self hget, hb ▸ hd⟩
      · exact ⟨j, d, Pool.get_set_ne hij hj, hd⟩
    · simp only [hphase, MetadataPhase.building.injEq] at hw
      exact ⟨i, c', Pool.get_set_self hget, hw.1 ▸ hb⟩
    · exact absurd hw (hno a w)
  sorted := by
    rcases he.shift.elections with ⟨h, _⟩ | ⟨h, _⟩
    · simpa only [h] using hi.sorted
    · simp only [h]
      refine List.pairwise_append.mpr ⟨hi.sorted, List.pairwise_singleton _ _, fun a ha b hb => ?_⟩
      rw [List.mem_singleton.mp hb]
      exact hi.elections_lt a ha
  elections_lt := by
    intro a ha
    rcases he.shift.elections with ⟨h, hn⟩ | ⟨h, hn⟩
    · simp only [h] at ha
      simpa only [hn] using hi.elections_lt a ha
    · simp only [h, List.mem_append, List.mem_singleton] at ha
      simp only [hn]
      rcases ha with ha | rfl
      · exact Nat.lt_succ_of_lt (hi.elections_lt a ha)
      · exact Nat.lt_succ_self _
  pcOk := by
    intro j d hj
    rcases Pool.get_set hj with ⟨rfl, rfl⟩ | ⟨_, hj⟩
    · exact he.pcOk
    · exact (hi.pcOk j d hj).shift he.shift fun a ha => hi.counted_lt j d a hj ha
  unscanned := by
    intro j d hj hd
    rcases Pool.get_set hj with ⟨rfl, rfl⟩ | ⟨_, hj⟩
    · exact he.unscanned hd
    · exact hi.unscanned j d hj hd
  failed := by
    intro a e p hp
    rcases he.failed a e p hp with ⟨p₀, hp₀⟩ | ⟨scan, hscan, hcached⟩
    · obtain ⟨j, d, scan, hj, hd, hcached⟩ := hi.failed a e p₀ hp₀
      exact he.keepsScan hget hj hd fun k f hk hf => ⟨k, f, scan, hk, hf, hcached⟩
    · exact ⟨i, c', scan, Pool.get_set_self hget, hscan, hcached⟩
  ready := by
    intro m a hp
    rcases he.ready m a hp with hp₀ | ⟨scan, hscan, hm⟩
    · obtain ⟨j, d, scan, hj, hd, hm⟩ := hi.ready m a hp₀
      exact he.keepsScan hget hj hd fun k f hk hf => ⟨k, f, scan, hk, hf, hm⟩
    · exact ⟨i, c', scan, Pool.get_set_self hget, hscan, hm⟩

/-! ## Every move has such an effect -/

/-- What the invariant says about the caller that moves. -/
structure Enabled (state : MetadataState) (c : Caller) : Prop where
  pcOk : PcOk state c
  unscanned : c.pc.unscanned → c.scanned = none
  builder : ∀ a, c.pc.builds = some a → ∃ w, state.phase = .building a w
  counted_pos : ∀ a n, state.phase.waiting = some (a, n) → c.pc.counted = some a → 0 < n

theorem Inv.enabled {s : Cache} {i : Nat} (hi : Inv s) (hget : s.callers[i]? = some c) :
    Enabled s.state c where
  pcOk := hi.pcOk i c hget
  unscanned := hi.unscanned i c hget
  builder a := hi.builder i c a hget
  counted_pos a n hn hc := by
    rw [hi.accounted a n hn]
    exact Pool.countP_pos_of_get hget (decide_eq_true hc)

theorem dropRegistration_waiting (r : Nat) :
    (dropRegistration state r).phase.waiting =
      state.phase.waiting.map fun (a, n) => (a, if a = r then n - 1 else n) := by
  unfold dropRegistration
  cases hp : state.phase with
  | building a w | failed a e w =>
    by_cases ha : a = r
    · simp [ha, MetadataPhase.waiting]
    · simp [ha, hp, MetadataPhase.waiting]
  | absent | ready m b => simp [hp, MetadataPhase.waiting]

theorem dropRegistration_building {r : Nat} (a : Nat) :
    (∃ w, (dropRegistration state r).phase = .building a w) ↔
      ∃ w, state.phase = .building a w := by
  unfold dropRegistration
  cases hp : state.phase with
  | building b w =>
    by_cases hb : b = r
    · simp [hb]
    · simp [hb, hp]
  | failed b e w =>
    by_cases hb : b = r
    · simp [hb]
    · simp [hb, hp]
  | absent | ready m b => simp [hp]

theorem dropRegistration_failed {r a p : Nat} {e : CachedMetadataError}
    (h : (dropRegistration state r).phase = .failed a e p) :
    ∃ p₀, state.phase = .failed a e p₀ := by
  unfold dropRegistration at h
  cases hp : state.phase with
  | building b w =>
    simp only [hp] at h
    split at h
    · cases h
    · rw [hp] at h; cases h
  | failed b e' w =>
    simp only [hp] at h
    split at h
    · cases h
      exact ⟨w, rfl⟩
    · rw [hp] at h
      exact ⟨p, h⟩
  | absent | ready m b => simp [hp] at h

theorem dropRegistration_ready {r a : Nat} {m : VcdMeta}
    (h : (dropRegistration state r).phase = .ready m a) : state.phase = .ready m a := by
  unfold dropRegistration at h
  cases hp : state.phase with
  | building b w | failed b e w =>
    simp only [hp] at h
    split at h
    · cases h
    · rw [hp] at h; cases h
  | absent => simp [hp] at h
  | ready m b => simpa [hp] using h

section Effects
variable (h : Move debug state c state' pc') (he : Enabled state c)
include h he

theorem Move.balance (a n' : Nat) (hn' : state'.phase.waiting = some (a, n')) :
    (∃ n, state.phase.waiting = some (a, n) ∧
      n' + (if c.pc.counted = some a then 1 else 0) =
        n + (if pc'.counted = some a then 1 else 0)) ∨
    (a = state.nextAttempt ∧ a < state'.nextAttempt ∧ n' = 0 ∧ pc'.counted = none) := by
  have hpos := he.counted_pos a
  have same : state'.phase.waiting = state.phase.waiting →
      (c.pc.counted = some a ↔ pc'.counted = some a) →
      ∃ n, state.phase.waiting = some (a, n) ∧
        n' + (if c.pc.counted = some a then 1 else 0) =
          n + (if pc'.counted = some a then 1 else 0) :=
    fun hs hc => ⟨n', hs ▸ hn', by simp only [hc]⟩
  cases h with
  | refused hpc | admitted hpc | retryBlocks hpc | retryPasses hpc | contextFailed hpc
  | contextAcknowledges hpc | contextAsserts hpc | plainSleeps hpc | readyRefused hpc
  | readyAbandons hpc | checked hpc | checkRefused hpc | unwindsLate hpc =>
    exact .inl (same rfl (by simp [hpc, Pc.counted]))
  | publishPanics hpc =>
    rcases hpc with ⟨_, hpc⟩ | ⟨_, hpc⟩ <;> exact .inl (same rfl (by simp [hpc, Pc.counted]))
  | contextSleeps hpc =>
    exact .inl (same rfl (by rw [blockOrLeave_counted, hpc]; rfl))
  | plainForeign hpc _ hp hne =>
    refine .inl (same rfl ?_)
    simp only [hp, MetadataPhase.waiting, Option.some.injEq, Prod.mk.injEq] at hn'
    simp only [hpc, Pc.counted, reduceCtorEq, iff_false]
    exact fun hw => hne (hn'.1 ▸ hw)
  | retryClears _ _ | publishesReady _ _ | publishesContextReady _ _ | publishesTransient _ _ _ =>
    simp [MetadataPhase.waiting] at hn'
  | plainReady _ _ hp | contextReady _ _ hp | contextRefused _ _ hp _ | exhausted _ hp _ _ =>
    simp [hp, MetadataPhase.waiting] at hn'
  | readyReturns hpc _ =>
    obtain ⟨_, b, hb⟩ : c.entry = .metadataWithContext ∧ ∃ b, state.phase = .ready _ b := by
      simpa only [PcOk, hpc] using he.pcOk
    simp [hb, MetadataPhase.waiting] at hn'
  | @plainAcknowledges _ x e p hpc _ hp =>
    simp only [MetadataState.withPhase_phase, MetadataPhase.waiting, Option.some.injEq,
      Prod.mk.injEq] at hn'
    obtain ⟨rfl, rfl⟩ := hn'
    have hp₀ := hpos p (by rw [hp]; rfl) (by rw [hpc]; rfl)
    refine .inl ⟨p, by rw [hp]; rfl, ?_⟩
    simp only [hpc, Pc.counted, if_true, reduceCtorEq, if_false]
    omega
  | @plainAsserts x _ hpc _ hwhy =>
    refine .inl (same rfl ?_)
    simp only [hpc, Pc.counted, Option.some.injEq, reduceCtorEq, iff_false]
    rintro rfl
    rcases hwhy with hp | ⟨b, w, hp, hne⟩ | ⟨e, hp⟩
    · simp [hp, MetadataPhase.waiting] at hn'
    · simp only [hp, MetadataPhase.waiting, Option.some.injEq, Prod.mk.injEq] at hn'
      exact hne hn'.1.symm
    · have := hpos 0 (by rw [hp]; rfl) (by rw [hpc]; rfl)
      omega
  | plainRegisters hpc _ hp =>
    simp only [MetadataState.withPhase_phase, MetadataPhase.waiting, Option.some.injEq,
      Prod.mk.injEq] at hn'
    obtain ⟨rfl, rfl⟩ := hn'
    exact .inl ⟨_, by rw [hp]; rfl, by simp [hpc, Pc.counted]⟩
  | contextRegisters hpc _ hp hne =>
    simp only [MetadataState.withPhase_phase, MetadataPhase.waiting, Option.some.injEq,
      Prod.mk.injEq] at hn'
    obtain ⟨rfl, rfl⟩ := hn'
    refine .inl ⟨_, by rw [hp]; rfl, ?_⟩
    rw [blockOrLeave_counted, hpc]
    simp [Pc.counted, hne]
  | elects _ _ hel _ =>
    obtain ⟨hnext, hphase, _⟩ := elect_some hel
    simp only [hphase, MetadataPhase.waiting, Option.some.injEq, Prod.mk.injEq] at hn'
    exact .inr ⟨hn'.1.symm, by omega, hn'.2.symm, rfl⟩
  | @acknowledges r o hpc | @abandons r o hpc =>
    rw [dropRegistration_waiting] at hn'
    obtain ⟨⟨b, n⟩, hn, heq⟩ := Option.map_eq_some_iff.mp hn'
    simp only [Prod.mk.injEq] at heq
    obtain ⟨rfl, rfl⟩ := heq
    have hp₀ := hpos n hn
    refine .inl ⟨n, hn, ?_⟩
    simp only [hpc, Pc.counted, Option.some.injEq, reduceCtorEq, if_false] at hp₀ ⊢
    by_cases hr : b = r
    · have := hp₀ hr.symm
      simp only [hr, if_true]
      omega
    · simp [hr, Ne.symm hr]
  | publishesFailed hpc hp | publishesContextFailed hpc hp _ | unwinds hpc hp =>
    simp only [MetadataState.withPhase_phase, MetadataPhase.waiting, Option.some.injEq,
      Prod.mk.injEq] at hn'
    obtain ⟨rfl, rfl⟩ := hn'
    exact .inl ⟨_, by rw [hp]; rfl, by simp [hpc, Pc.counted]⟩

omit he in
theorem Move.counted (a : Nat) (hc : pc'.counted = some a) :
    c.pc.counted = some a ∨ ∃ n, state.phase.waiting = some (a, n) := by
  cases h with
  | plainRegisters _ _ hp =>
    cases hc
    exact .inr ⟨_, by rw [hp]; rfl⟩
  | contextRegisters _ _ hp _ | contextSleeps _ _ hp =>
    rw [blockOrLeave_counted] at hc
    cases hc
    exact .inr ⟨_, by rw [hp]; rfl⟩
  | plainSleeps hpc _ _ | contextReady hpc _ _ | contextAcknowledges hpc _ _
  | contextAsserts hpc _ _ _ | readyAbandons hpc _ =>
    rw [hpc]
    exact .inl hc
  | _ => simp [Pc.counted] at hc

/-- Only an election starts a build, and only a publication or a builder's
unwinding ends one. -/
theorem Move.builds :
    (pc'.builds = c.pc.builds ∧
      ∀ a, (∃ w, state'.phase = .building a w) ↔ ∃ w, state.phase = .building a w) ∨
    (state.phase = .absent ∧ pc'.builds = some state.nextAttempt ∧
      state'.phase = .building state.nextAttempt 0) ∨
    ((∃ a, c.pc.builds = some a) ∧ pc'.builds = none ∧ ∀ b w, state'.phase ≠ .building b w) := by
  have ours : ∀ a, c.pc.builds = some a → ownWaiters state a ≠ none := by
    intro a ha hn
    obtain ⟨w, hw⟩ := he.builder a ha
    rw [ownWaiters_some.mpr hw] at hn
    cases hn
  cases h with
  | elects _ hp hel _ => exact .inr (.inl ⟨hp, rfl, (elect_some hel).2.1⟩)
  | publishPanics hpc hn =>
    rcases hpc with ⟨_, hpc⟩ | ⟨_, hpc⟩ <;> exact absurd hn (ours _ (by rw [hpc]; rfl))
  | unwindsLate hpc hn => exact absurd hn (ours _ (by rw [hpc]; rfl))
  | publishesReady hpc _ | publishesFailed hpc _ | publishesContextReady hpc _
  | publishesContextFailed hpc _ _ | publishesTransient hpc _ _ | unwinds hpc _ =>
    exact .inr (.inr ⟨⟨_, by rw [hpc]; rfl⟩, rfl, by simp⟩)
  | retryClears hpc hp | plainAcknowledges hpc _ hp =>
    exact .inl ⟨by simp [hpc, Pc.builds], by simp [hp]⟩
  | plainRegisters hpc _ hp => exact .inl ⟨by simp [hpc, Pc.builds], by simp [hp]⟩
  | contextRegisters hpc _ hp _ =>
    exact .inl ⟨by rw [blockOrLeave_builds, hpc]; rfl, by simp [hp]⟩
  | contextSleeps hpc _ _ =>
    exact .inl ⟨by rw [blockOrLeave_builds, hpc]; rfl, fun _ => Iff.rfl⟩
  | acknowledges hpc | abandons hpc =>
    exact .inl ⟨by simp [hpc, Pc.builds], dropRegistration_building⟩
  | refused hpc | admitted hpc | retryBlocks hpc | retryPasses hpc | plainReady hpc
  | plainForeign hpc | plainSleeps hpc | plainAsserts hpc | contextReady hpc | contextFailed hpc
  | contextAcknowledges hpc | contextAsserts hpc | contextRefused hpc | exhausted hpc
  | readyReturns hpc | readyRefused hpc | readyAbandons hpc | checked hpc | checkRefused hpc =>
    exact .inl ⟨by simp [hpc, Pc.builds], fun _ => Iff.rfl⟩

omit he in
/-- What a move leaves in `Failed` was there, or is what its caller's scan
ended with. -/
theorem Move.failed (hok : PcOk state c) (a : Nat) (e : CachedMetadataError) (p : Nat)
    (hp' : state'.phase = .failed a e p) : (∃ p₀, state.phase = .failed a e p₀) ∨
      ∃ scan, c.scanned = some (a, scan) ∧ scan.cached = some e := by
  cases h with
  | publishesFailed hpc _ =>
    simp only [MetadataState.withPhase_phase, MetadataPhase.failed.injEq] at hp'
    obtain ⟨rfl, rfl, _⟩ := hp'
    exact .inr ⟨_, (hok.publishing hpc).2, rfl⟩
  | publishesContextFailed hpc _ hcache =>
    simp only [MetadataState.withPhase_phase, MetadataPhase.failed.injEq] at hp'
    obtain ⟨rfl, rfl, _⟩ := hp'
    exact .inr ⟨_, (hok.publishingWithContext hpc).2, by simp [Scan.cached, hcache]⟩
  | unwinds hpc _ =>
    simp only [MetadataState.withPhase_phase, MetadataPhase.failed.injEq] at hp'
    obtain ⟨rfl, rfl, _⟩ := hp'
    exact .inr ⟨_, hok.unwinding hpc, rfl⟩
  | plainAcknowledges _ _ hp =>
    simp only [MetadataState.withPhase_phase, MetadataPhase.failed.injEq] at hp'
    obtain ⟨rfl, rfl, _⟩ := hp'
    exact .inl ⟨_, hp⟩
  | acknowledges _ | abandons _ => exact .inl (dropRegistration_failed hp')
  | elects _ _ hel _ => rw [(elect_some hel).2.1] at hp'; cases hp'
  | retryClears _ _ | plainRegisters _ _ _ | contextRegisters _ _ _ _ | publishesReady _ _
  | publishesContextReady _ _ | publishesTransient _ _ _ => simp at hp'
  | _ => exact .inl ⟨p, hp'⟩

omit he in
theorem Move.ready (hok : PcOk state c) (m : VcdMeta) (a : Nat)
    (hp' : state'.phase = .ready m a) : state.phase = .ready m a ∨
      ∃ scan, c.scanned = some (a, scan) ∧ scan.metadata = some m := by
  cases h with
  | publishesReady hpc _ =>
    simp only [MetadataState.withPhase_phase, MetadataPhase.ready.injEq] at hp'
    obtain ⟨rfl, rfl⟩ := hp'
    exact .inr ⟨_, (hok.publishing hpc).2, rfl⟩
  | publishesContextReady hpc _ =>
    simp only [MetadataState.withPhase_phase, MetadataPhase.ready.injEq] at hp'
    obtain ⟨rfl, rfl⟩ := hp'
    exact .inr ⟨_, (hok.publishingWithContext hpc).2, rfl⟩
  | acknowledges _ | abandons _ => exact .inl (dropRegistration_ready hp')
  | elects _ _ hel _ => rw [(elect_some hel).2.1] at hp'; cases hp'
  | retryClears _ _ | plainRegisters _ _ _ | contextRegisters _ _ _ _ | plainAcknowledges _ _ _
  | publishesFailed _ _ | publishesContextFailed _ _ _ | publishesTransient _ _ _
  | unwinds _ _ => simp at hp'
  | _ => exact .inl hp'

omit he in
/-- What a caller may return after its own move. -/
theorem Move.pcOk (hok : PcOk state c)
    (hown : ∀ a, c.pc.builds = some a → ∃ w, state.phase = .building a w) :
    PcOk state' { c with pc := pc' } := by
  have ended : ∀ {error}, c.context.check = .error error → c.Ended error :=
    QueryContext.check_error
  have lost : ∀ a, c.pc.builds = some a → ownWaiters state a = none → False := by
    intro a ha hn
    obtain ⟨w, hw⟩ := hown a ha
    rw [ownWaiters_some.mpr hw] at hn
    cases hn
  cases h with
  | admitted _ _ | retryPasses _ _ | plainRegisters _ _ _ | plainSleeps _ _ _ | elects _ _ _ _
  | retryClears _ _ => trivial
  | retryBlocks hpc _ => exact hok.retrying hpc
  | refused _ _ hc | contextRefused _ _ _ hc | readyRefused _ hc | checkRefused _ hc =>
    exact fun _ => .inl (ended hc)
  | plainReady _ _ hp => exact ⟨_, hp⟩
  | plainAcknowledges _ _ _ | plainForeign _ _ _ _ | plainAsserts _ _ _ | publishesFailed _ _
  | unwinds _ _ | unwindsLate _ _ => trivial
  | contextReady _ he hp => exact ⟨he, _, hp⟩
  | contextFailed _ he _ => exact ⟨he, fun hq => absurd hq (by simp)⟩
  | contextAcknowledges hpc he hp =>
    refine ⟨he, by simp [hp], fun e p hp' => ?_, _, rfl⟩
    rw [hp] at hp'
    cases hp'
    rfl
  | contextAsserts hpc he hp hne =>
    refine ⟨he, .inl ⟨rfl, fun n hn => ?_⟩⟩
    simp only [hp, MetadataPhase.waiting, Option.some.injEq, Prod.mk.injEq] at hn
    exact hne hn.1.symm
  | contextRegisters _ he _ _ | contextSleeps _ he _ =>
    unfold blockOrLeave
    split
    · exact ⟨he, .inr ⟨_, rfl, ended ‹_›⟩⟩
    · trivial
  | exhausted _ _ _ ho =>
    rcases ho with rfl | rfl
    · trivial
    · exact fun hq => absurd hq (by simp [QueryError.isPolicy])
  | readyReturns hpc _ => exact (hok.observedReady hpc).2
  | readyAbandons hpc hc => exact ⟨(hok.observedReady hpc).1, .inr ⟨_, rfl, ended hc⟩⟩
  | acknowledges hpc =>
    obtain ⟨he, _, _, e, rfl⟩ := hok.acknowledging hpc
    exact ⟨he, fun hq => absurd hq (by simp)⟩
  | abandons hpc =>
    obtain ⟨_, ⟨rfl, _⟩ | ⟨q, rfl, hq⟩⟩ := hok.abandoning hpc
    · trivial
    · exact fun _ => .inl hq
  | checked hpc _ => exact (hok.checking hpc).2
  | publishesReady _ _ => exact ⟨_, rfl⟩
  | publishesContextReady hpc _ => exact ⟨(hok.publishingWithContext hpc).1, _, rfl⟩
  | publishesContextFailed hpc _ _ =>
    exact ⟨(hok.publishingWithContext hpc).1, fun hq => absurd hq (by simp)⟩
  | publishesTransient hpc _ _ => exact fun _ => .inr ⟨_, (hok.publishingWithContext hpc).2⟩
  | publishPanics hpc hn =>
    rcases hpc with ⟨_, hpc⟩ | ⟨_, hpc⟩ <;> exact (lost _ (by rw [hpc]; rfl) hn).elim

omit he in
/-- Only the end of its own scan takes a caller past it. -/
theorem Move.unscanned (hun : pc'.unscanned) : c.pc.unscanned := by
  cases h with
  | publishPanics hpc _ => exact hun.elim
  | _ => first | exact hun.elim | simp only [*, Pc.unscanned]

theorem Move.effect : Effect state state' c { c with pc := pc' } where
  shift := h.shift
  balance := h.balance he
  counted := h.counted
  builds := h.builds he
  pcOk := h.pcOk he.pcOk he.builder
  unscanned := fun hun => he.unscanned (h.unscanned hun)
  scanned := .inl rfl
  failed := h.failed he.pcOk
  ready := h.ready he.pcOk

end Effects

/-! ## The other actions -/

theorem finishScan_some {scan : Scan} (h : finishScan c scan = some pc') :
    c.pc = .building c.attempt ∧
      ((scan = .panicked ∧ pc' = .unwinding c.attempt) ∨
        (∃ result, scan = .withContext result ∧ c.entry = .metadataWithContext ∧
          pc' = .publishingWithContext c.attempt result) ∨
        ∃ result, scan = .plain result ∧ c.entry ≠ .metadataWithContext ∧
          pc' = .publishing c.attempt result) := by
  unfold finishScan at h
  unfold Caller.attempt
  split at h <;> cases h <;> simp_all

theorem scan_effect {scan : Scan} (he : Enabled state c) (h : finishScan c scan = some pc') :
    Effect state state c { c with pc := pc', scanned := some (c.attempt, scan) } := by
  obtain ⟨hpc, hcase⟩ := finishScan_some h
  have hcounted : pc'.counted = none := by
    rcases hcase with ⟨_, rfl⟩ | ⟨_, _, _, rfl⟩ | ⟨_, _, _, rfl⟩ <;> rfl
  have hbuilds : pc'.builds = some c.attempt := by
    rcases hcase with ⟨_, rfl⟩ | ⟨_, _, _, rfl⟩ | ⟨_, _, _, rfl⟩ <;> rfl
  refine
    { shift := .same
      balance := fun a n' hn' => .inl ⟨n', hn', by rw [hcounted, hpc]; simp [Pc.counted]⟩
      counted := fun a ha => by rw [hcounted] at ha; cases ha
      builds := .inl ⟨by rw [hbuilds, hpc]; rfl, fun _ => Iff.rfl⟩
      pcOk := ?_
      unscanned := ?_
      scanned := .inr (he.unscanned (by rw [hpc]; trivial))
      failed := fun a e p hp => .inl ⟨p, hp⟩
      ready := fun m a hp => .inl hp }
  · rcases hcase with ⟨rfl, rfl⟩ | ⟨_, rfl, hentry, rfl⟩ | ⟨_, rfl, hentry, rfl⟩
    · exact rfl
    · exact ⟨hentry, rfl⟩
    · exact ⟨hentry, rfl⟩
  · rcases hcase with ⟨_, rfl⟩ | ⟨_, _, _, rfl⟩ | ⟨_, _, _, rfl⟩ <;> exact fun hun => hun.elim

/-- A context only gets worse: whatever it said, it still says. -/
structure Worsens (c c' : Caller) : Prop where
  pc : c'.pc = c.pc
  entry : c'.entry = c.entry
  scanned : c'.scanned = c.scanned
  cancelled : c.context.cancelled = true → c'.context.cancelled = true
  expired : c.context.expired = true → c'.context.expired = true

theorem cancel_worsens (c : Caller) : Worsens c c.cancel := ⟨rfl, rfl, rfl, fun _ => rfl, id⟩

theorem expire_worsens (c : Caller) : Worsens c c.expire := ⟨rfl, rfl, rfl, id, fun _ => rfl⟩

theorem Worsens.ended {c c' : Caller} {q : QueryError} (h : Worsens c c') (hq : c.Ended q) :
    c'.Ended q := by
  rcases hq with ⟨rfl, hc⟩ | ⟨rfl, he⟩
  · exact .inl ⟨rfl, h.cancelled hc⟩
  · exact .inr ⟨rfl, h.expired he⟩

theorem Worsens.outcomeOk {c c' : Caller} {o : Outcome} (h : Worsens c c')
    (ho : OutcomeOk state c o) : OutcomeOk state c' o := by
  cases o with
  | ok m => exact ho
  | queryError q =>
    intro hq
    rcases ho hq with he | ⟨a, ha⟩
    · exact .inl (h.ended he)
    · exact .inr ⟨a, h.scanned.trans ha⟩
  | vcdError e | panicked => trivial

theorem Worsens.pcOk {c c' : Caller} (h : Worsens c c') (hok : PcOk state c) :
    PcOk state c' := by
  unfold PcOk at hok ⊢
  rw [h.pc, h.entry, h.scanned]
  cases hpc : c.pc with
  | abandoning r o =>
    simp only [hpc] at hok ⊢
    obtain ⟨he, hov | ⟨q, ho, hq⟩⟩ := hok
    · exact ⟨he, .inl hov⟩
    · exact ⟨he, .inr ⟨q, ho, h.ended hq⟩⟩
  | checking o =>
    simp only [hpc] at hok ⊢
    exact ⟨hok.1, h.outcomeOk hok.2⟩
  | returned o =>
    simp only [hpc] at hok ⊢
    exact h.outcomeOk hok
  | looping _ _ | building _ => trivial
  | entering | retrying _ | observedReady _ _ | acknowledging _ _ | publishing _ _
  | publishingWithContext _ _ | unwinding _ => simpa only [hpc] using hok

theorem Worsens.effect {c c' : Caller} (h : Worsens c c') (he : Enabled state c) :
    Effect state state c c' where
  shift := .same
  balance := fun a n' hn' => .inl ⟨n', hn', by simp only [h.pc]⟩
  counted := fun a ha => .inl (h.pc ▸ ha)
  builds := .inl ⟨by rw [h.pc], fun _ => Iff.rfl⟩
  pcOk := h.pcOk he.pcOk
  unscanned := fun hun => h.scanned.trans (he.unscanned (h.pc ▸ hun))
  scanned := .inl h.scanned
  failed := fun a e p hp => .inl ⟨p, hp⟩
  ready := fun m a hp => .inl hp

theorem new_counted (entry : Entry) (context : QueryContext) :
    (Caller.new entry context).pc.counted = none := by
  cases entry <;> rfl

theorem new_builds (entry : Entry) (context : QueryContext) :
    (Caller.new entry context).pc.builds = none := by
  cases entry <;> rfl

theorem Inv.call {s : Cache} (hi : Inv s) (entry : Entry) (context : QueryContext) :
    Inv { s with callers := s.callers ++ [.new entry context] } where
  accounted a n hn := by
    rw [hi.accounted a n hn]
    simp [Cache.waiters, new_counted]
  current_lt := hi.current_lt
  counted_lt i d a hd ha := by
    rcases Pool.get_append hd with ⟨_, rfl⟩ | hd
    · rw [new_counted] at ha
      cases ha
    · exact hi.counted_lt i d a hd ha
  builder i d a hd ha := by
    rcases Pool.get_append hd with ⟨_, rfl⟩ | hd
    · rw [new_builds] at ha
      cases ha
    · exact hi.builder i d a hd ha
  builder_unique i j d e a b hd he ha hb := by
    rcases Pool.get_append hd with ⟨_, rfl⟩ | hd
    · rw [new_builds] at ha
      cases ha
    · rcases Pool.get_append he with ⟨_, rfl⟩ | he
      · rw [new_builds] at hb
        cases hb
      · exact hi.builder_unique i j d e a b hd he ha hb
  building a w hw := by
    obtain ⟨i, d, hd, ha⟩ := hi.building a w hw
    exact ⟨i, d, Pool.get_append_old hd, ha⟩
  sorted := hi.sorted
  elections_lt := hi.elections_lt
  pcOk i d hd := by
    rcases Pool.get_append hd with ⟨_, rfl⟩ | hd
    · cases entry <;> trivial
    · exact hi.pcOk i d hd
  unscanned i d hd hun := by
    rcases Pool.get_append hd with ⟨_, rfl⟩ | hd
    · cases entry <;> rfl
    · exact hi.unscanned i d hd hun
  failed a e p hp := by
    obtain ⟨i, d, scan, hd, h⟩ := hi.failed a e p hp
    exact ⟨i, d, scan, Pool.get_append_old hd, h⟩
  ready m a hp := by
    obtain ⟨i, d, scan, hd, h⟩ := hi.ready m a hp
    exact ⟨i, d, scan, Pool.get_append_old hd, h⟩

/-! ## The step as a whole -/

/-- Every step but a new call replaces one caller, with such an effect. -/
inductive Stepped (debug : Bool) (s : Cache) : Action → Cache → Prop
  | call (entry : Entry) (context : QueryContext) : Stepped debug s (.call entry context)
      { s with callers := s.callers ++ [.new entry context] }
  | cancel {i c} : s.callers[i]? = some c →
      Stepped debug s (.cancel i) ⟨s.state, s.callers.set i c.cancel⟩
  | expire {i c} : s.callers[i]? = some c →
      Stepped debug s (.expire i) ⟨s.state, s.callers.set i c.expire⟩
  | scan {i c scan pc'} : s.callers[i]? = some c → finishScan c scan = some pc' →
      Stepped debug s (.scan i scan)
        ⟨s.state, s.callers.set i { c with pc := pc', scanned := some (c.attempt, scan) }⟩
  | advance {i c state' pc'} : s.callers[i]? = some c → Move debug s.state c state' pc' →
      Stepped debug s (.advance i) ⟨state', s.callers.set i { c with pc := pc' }⟩

theorem Inv.stepped {s s' : Cache} {a : Action} (hi : Inv s) (h : s.step debug a = some s') :
    Stepped debug s a s' := by
  cases a with
  | call entry context => cases Option.some.inj h; exact .call entry context
  | cancel i =>
    obtain ⟨c, hc, rfl⟩ := Option.map_eq_some_iff.mp h
    exact .cancel hc
  | expire i =>
    obtain ⟨c, hc, rfl⟩ := Option.map_eq_some_iff.mp h
    exact .expire hc
  | scan i scan =>
    obtain ⟨c, hc, h⟩ := Option.bind_eq_some_iff.mp h
    obtain ⟨pc, hpc, rfl⟩ := Option.map_eq_some_iff.mp h
    exact .scan hc hpc
  | advance i =>
    obtain ⟨c, hc, h⟩ := Option.bind_eq_some_iff.mp h
    obtain ⟨⟨state, pc⟩, hm, rfl⟩ := Option.map_eq_some_iff.mp h
    refine .advance hc (stepCaller_move (fun hpc => ?_) hm)
    simpa only [PcOk, hpc] using hi.pcOk i c hc

theorem Inv.step {s s' : Cache} {a : Action} (hi : Inv s) (h : s.step debug a = some s') :
    Inv s' := by
  cases hi.stepped h with
  | call entry context => exact hi.call entry context
  | cancel hc => exact hi.replace hc ((cancel_worsens _).effect (hi.enabled hc))
  | expire hc => exact hi.replace hc ((expire_worsens _).effect (hi.enabled hc))
  | scan hc hs => exact hi.replace hc (scan_effect (hi.enabled hc) hs)
  | advance hc hm => exact hi.replace hc (hm.effect (hi.enabled hc))

theorem inv_of_reachable {s : Cache} (h : Reachable debug s) : Inv s := by
  obtain ⟨as, has⟩ := h
  exact Runs.exec_invariant (fun _ _ _ hi hs => hi.step hs) as .init s inv_init has

end VcdTools.Opened
