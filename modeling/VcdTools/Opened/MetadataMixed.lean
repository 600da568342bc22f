import VcdTools.Opened.MetadataInvariant

/-! # Mixed waiters of the metadata cache

`get_or_build` assumes that the attempt it waits for ends in `Ready` or
`Failed`; `get_or_build_with_context` may reset it to `Absent`. This module
says exactly which steps leave a sleeping caller whose next turn trips an
assertion, blocks uncounted or acts on an attempt it is not registered for. -/
namespace VcdTools.Opened
open VcdTools.Query VcdTools.Lib

variable {debug : Bool} {state state' : MetadataState} {c d : Caller} {pc' : Pc} {s s' : Cache}

/-- The next turn of the caller's wait loop is as the attempt protocol wants
it, in either build. -/
structure TurnOk (state : MetadataState) (c : Caller) : Prop where
  blocksCounted : ∀ debug a w state' r, state.phase = .building a w →
    stepCaller debug state c = some (state', .looping r true) → r = some a
  sameAttempt : ∀ x asleep b, c.pc = .looping (some x) asleep →
    ((∃ m, state.phase = .ready m b) ∨ ∃ e p, state.phase = .failed b e p) → x = b
  asserts : ∀ w asleep state' pc', c.pc = .looping w asleep →
    stepCaller true state c = some (state', pc') →
    pc' ≠ .returned .panicked ∧ ∀ r, pc' ≠ .abandoning r .panicked

def Safe (s : Cache) : Prop := ∀ i c, s.caller i = some c → TurnOk s.state c

/-- The attempt whose outcome the caller's next step stores. -/
def Pc.stores : Pc → Option Nat
  | .publishing a _ | .unwinding a | .publishingWithContext a (.ok _) => some a
  | .publishingWithContext a (.error error) => if (cacheError error).isSome then some a else none
  | _ => none

/-- The caller's next step resets the phase to `Absent` after a transient error. -/
def Pc.resets : Pc → Bool
  | .publishingWithContext _ (.error error) => (cacheError error).isNone
  | _ => false

/-- Nobody who waits on another attempt is left when an outcome is stored, and
only callers with a context wait when the phase is reset. -/
def Unmixed (s : Cache) (act : Action) : Prop :=
  ∀ i c, act = .advance i → s.caller i = some c →
    (∀ a, c.pc.stores = some a →
      ∀ j d x asleep, s.caller j = some d → d.pc = .looping (some x) asleep → x = a) ∧
    (c.pc.resets = true →
      ∀ j d x asleep, s.caller j = some d → d.pc = .looping (some x) asleep →
        d.entry = .metadataWithContext)

/-! ## The turn, by phase -/

def Fits (state : MetadataState) (c : Caller) : Prop :=
  ∀ x asleep, c.pc = .looping (some x) asleep →
    match state.phase with
    | .ready _ a | .failed a _ _ => x = a
    | .building a _ => c.entry ≠ .metadataWithContext → x = a
    | .absent => c.entry = .metadataWithContext

theorem blockOrLeave_blocks {context : QueryContext} {a : Nat} {r : Option Nat}
    (h : blockOrLeave context a = .looping r true) : r = some a := by
  have hc := blockOrLeave_counted context a
  rw [h] at hc
  exact hc

theorem Fits.turnOk (he : Enabled state c) (hf : Fits state c) : TurnOk state c where
  blocksCounted debug a w state' r hp hs := by
    have hentry : c.pc = .entering → c.entry = .metadataWithContext := fun hpc => by
      simpa only [PcOk, hpc] using he.pcOk
    generalize hpc' : Pc.looping r true = pc' at hs
    cases stepCaller_move hentry hs with
    | plainRegisters _ _ hp' =>
      rw [hp] at hp'
      cases hp'
      cases hpc'
      rfl
    | plainSleeps hpc hne _ =>
      have := hf _ _ hpc
      rw [hp] at this
      cases hpc'
      rw [this hne]
    | contextRegisters _ _ hp' _ | contextSleeps _ _ hp' =>
      rw [hp] at hp'
      cases hp'
      exact blockOrLeave_blocks hpc'.symm
    | _ => cases hpc'
  sameAttempt x asleep b hpc hp := by
    have := hf x asleep hpc
    rcases hp with ⟨m, hp⟩ | ⟨e, p, hp⟩ <;> rw [hp] at this <;> exact this
  asserts w asleep state' pc' hpc hs := by
    have hmove := stepCaller_move (fun h => by rw [hpc] at h; cases h) hs
    cases hmove with
    | plainAsserts hpc' hne hwhy =>
      have := hf _ _ hpc'
      rcases hwhy with hp | ⟨a, w, hp, hx⟩ | ⟨e, hp⟩ <;> rw [hp] at this
      · exact absurd this hne
      · exact absurd (this hne) hx
      · have := he.counted_pos _ 0 (by rw [hp]; rfl) (by rw [hpc']; rfl)
        omega
    | contextAsserts hpc' _ hp hx =>
      have := hf _ _ hpc'
      rw [hp] at this
      exact absurd this hx
    | exhausted _ _ _ ho => rcases ho with rfl | rfl <;> simp
    | contextRegisters | contextSleeps =>
      unfold blockOrLeave
      split <;> simp
    | abandons hpc' | checked hpc' _ | unwinds hpc' _ | unwindsLate hpc' _ =>
      rw [hpc] at hpc'
      cases hpc'
    | _ => simp

theorem TurnOk.fits (h : TurnOk state c) : Fits state c := by
  intro x asleep hpc
  cases hp : state.phase with
  | ready m a => exact h.sameAttempt x asleep a hpc (.inl ⟨m, hp⟩)
  | failed a e p => exact h.sameAttempt x asleep a hpc (.inr ⟨e, p, hp⟩)
  | building a w =>
    intro hne
    have hturn : stepCaller false state c = some (state, .looping (some x) true) := by
      cases hc : c.entry <;> simp_all [stepCaller, getOrBuild]
    exact Option.some.inj (h.blocksCounted false a w state (some x) hp hturn)
  | absent =>
    by_contra hne
    have hturn : stepCaller true state c = some (state, .returned .panicked) := by
      cases hc : c.entry <;> simp_all [stepCaller, getOrBuild]
    exact (h.asserts (some x) asleep _ _ hpc hturn).1 rfl

theorem Inv.safe_iff (hi : Inv s) : Safe s ↔ ∀ i c, s.caller i = some c → Fits s.state c :=
  ⟨fun h i c hc => (h i c hc).fits, fun h i c hc => (h i c hc).turnOk (hi.enabled hc)⟩

/-! ## One step -/

/-- What a move does to the turns of the callers asleep. -/
inductive Wakes (state state' : MetadataState) (pc : Pc) : Prop
  | stores {a} : pc.stores = some a → pc.resets = false →
      ((∃ m, state'.phase = .ready m a) ∨ ∃ e p, state'.phase = .failed a e p) →
      Wakes state state' pc
  | resets : pc.stores = none → pc.resets = true → state'.phase = .absent → Wakes state state' pc
  | keeps : pc.stores = none → pc.resets = false →
      (∀ d, Enabled state d → Fits state d → Fits state' d) → Wakes state state' pc

theorem Shift.fits (h : Shift state state')
    (hstay : ∀ a w, state.phase = .building a w → ∃ w', state'.phase = .building a w')
    (he : Enabled state d) (hf : Fits state d) : Fits state' d := by
  intro x asleep hpc
  have hx := hf x asleep hpc
  cases h with
  | same => exact hx
  | recountBuilding hp | recountFailed hp =>
    rw [hp] at hx
    exact hx
  | elects hp hel =>
    rw [hp] at hx
    rw [(elect_some hel).2.1]
    exact fun hne => absurd hx hne
  | retries hp =>
    -- nobody is counted on an attempt with no pending waiters
    rw [hp] at hx
    subst hx
    have := he.counted_pos x 0 (by rw [hp]; rfl) (by rw [hpc]; rfl)
    omega
  | publishesReady hp | publishesFailed hp | resets hp =>
    obtain ⟨w', hw'⟩ := hstay _ _ hp
    simp at hw'

theorem Move.wakes (h : Move debug state c state' pc') (he : Enabled state c) :
    Wakes state state' c.pc := by
  have lost : ∀ a, c.pc.builds = some a → ownWaiters state a ≠ none := by
    intro a ha hn
    obtain ⟨w, hw⟩ := he.builder a ha
    rw [ownWaiters_some.mpr hw] at hn
    cases hn
  have keeps := fun hstay d (hd : Enabled state d) (hf : Fits state d) => h.shift.fits hstay hd hf
  cases h with
  | publishesReady hpc hp => exact .stores (by rw [hpc]; rfl) (by rw [hpc]; rfl) (.inl ⟨_, rfl⟩)
  | publishesFailed hpc hp | unwinds hpc hp =>
    exact .stores (by rw [hpc]; rfl) (by rw [hpc]; rfl) (.inr ⟨_, _, rfl⟩)
  | publishesContextReady hpc hp =>
    exact .stores (by rw [hpc]; rfl) (by rw [hpc]; rfl) (.inl ⟨_, rfl⟩)
  | publishesContextFailed hpc hp hc =>
    exact .stores (by simp [hpc, Pc.stores, hc]) (by simp [hpc, Pc.resets, hc])
      (.inr ⟨_, _, rfl⟩)
  | publishesTransient hpc hp hc =>
    exact .resets (by simp [hpc, Pc.stores, hc]) (by simp [hpc, Pc.resets, hc]) rfl
  | publishPanics hpc hn =>
    rcases hpc with ⟨_, hpc⟩ | ⟨_, hpc⟩ <;> exact absurd hn (lost _ (by rw [hpc]; rfl))
  | unwindsLate hpc hn => exact absurd hn (lost _ (by rw [hpc]; rfl))
  | acknowledges hpc | abandons hpc =>
    exact .keeps (by rw [hpc]; rfl) (by rw [hpc]; rfl)
      (keeps fun a w hw => (dropRegistration_building a).mpr ⟨w, hw⟩)
  | plainRegisters hpc _ hp | contextRegisters hpc _ hp _ =>
    refine .keeps (by rw [hpc]; rfl) (by rw [hpc]; rfl) (keeps fun a w hw => ?_)
    rw [hp] at hw
    cases hw
    exact ⟨_, rfl⟩
  | retryClears hpc hp | plainAcknowledges hpc _ hp | elects hpc hp _ _ =>
    refine .keeps (by rw [hpc]; rfl) (by rw [hpc]; rfl) (keeps fun a w hw => ?_)
    rw [hp] at hw
    cases hw
  | refused hpc | admitted hpc | retryBlocks hpc | retryPasses hpc | plainReady hpc
  | plainForeign hpc | plainSleeps hpc | plainAsserts hpc | contextReady hpc | contextFailed hpc
  | contextAcknowledges hpc | contextAsserts hpc | contextSleeps hpc | contextRefused hpc
  | exhausted hpc | readyReturns hpc | readyRefused hpc | readyAbandons hpc | checked hpc
  | checkRefused hpc =>
    exact .keeps (by rw [hpc]; rfl) (by rw [hpc]; rfl) (keeps fun a w hw => ⟨w, hw⟩)

/-- The caller that moved fits the state it leaves behind. -/
theorem Move.fits (h : Move debug state c state' pc') (hf : Fits state c) :
    Fits state' { c with pc := pc' } := by
  intro x asleep hpc
  cases h with
  | plainRegisters _ _ _ =>
    cases hpc
    exact fun _ => rfl
  | plainSleeps hpc' _ hp =>
    cases hpc
    exact hf _ _ hpc'
  | contextRegisters _ he _ _ => exact fun hne => absurd he hne
  | contextSleeps _ he hp =>
    rw [hp]
    exact fun hne => absurd he hne
  | _ => cases hpc

/-- **One step.** From a safe state a step leads to a safe state exactly when
it does not mix the waiters. -/
theorem Inv.unmixed_iff (hi : Inv s) {act : Action} (hsafe : Safe s)
    (h : s.step debug act = some s') : Unmixed s act ↔ Safe s' := by
  rw [(hi.step h).safe_iff]
  have hfits := hi.safe_iff.mp hsafe
  cases hi.stepped h with
  | call entry context =>
    refine ⟨fun _ i c hget => ?_, fun _ i c hact => by cases hact⟩
    rcases Pool.get_append hget with ⟨_, rfl⟩ | hget
    · intro x asleep hpc
      cases entry <;> cases hpc
    · exact hfits i c hget
  | @cancel i c hc | @expire i c hc =>
    refine ⟨fun _ j d hget => ?_, fun _ i c hact => by cases hact⟩
    rcases Pool.get_set hget with ⟨rfl, rfl⟩ | ⟨_, hget⟩
    · exact hfits i c hc
    · exact hfits j d hget
  | @scan i c scan pc' hc hs =>
    refine ⟨fun _ j d hget => ?_, fun _ i c hact => by cases hact⟩
    rcases Pool.get_set hget with ⟨rfl, rfl⟩ | ⟨_, hget⟩
    · intro x asleep hpc
      rcases (finishScan_some hs).2 with ⟨_, rfl⟩ | ⟨_, _, _, rfl⟩ | ⟨_, _, _, rfl⟩ <;> cases hpc
    · exact hfits j d hget
  | @advance i c state' pc' hc hm =>
    have hown := hm.fits (hfits i c hc)
    have unmixed : Unmixed s (.advance i) ↔ (∀ a, c.pc.stores = some a →
        ∀ j d x asleep, s.caller j = some d → d.pc = .looping (some x) asleep → x = a) ∧
        (c.pc.resets = true → ∀ j d x asleep, s.caller j = some d →
          d.pc = .looping (some x) asleep → d.entry = .metadataWithContext) := by
      refine ⟨fun hu => hu i c rfl hc, fun hu j d hj hd => ?_⟩
      cases hj
      cases Option.some.inj (hc.symm.trans hd)
      exact hu
    rw [unmixed]
    -- the state after the step fits everybody when it fits the others
    have others : (∀ (j : Nat) (d : Caller), (s.callers.set i { c with pc := pc' })[j]? = some d → Fits state' d) ↔
        ∀ j d, i ≠ j → s.caller j = some d → Fits state' d := by
      refine ⟨fun hall j d hij hd => hall j d (Pool.get_set_ne hij hd), fun hall j d hd => ?_⟩
      rcases Pool.get_set hd with ⟨rfl, rfl⟩ | ⟨hij, hd⟩
      · exact hown
      · exact hall j d hij hd
    refine Iff.trans ?_ others.symm
    cases hm.wakes (hi.enabled hc) with
    | @stores a hstores hresets hphase =>
      have hquiet : ∀ x asleep, c.pc ≠ .looping (some x) asleep := by
        intro x asleep hpc
        rw [hpc] at hstores
        cases hstores
      simp only [hstores, hresets, Bool.false_eq_true, false_implies, and_true,
        Option.some.injEq, forall_eq']
      constructor
      · intro hall j d _ hd x asleep hpc
        have hx := hall j d x asleep hd hpc
        rcases hphase with ⟨m, hp⟩ | ⟨e, p, hp⟩ <;> rw [hp] <;> exact hx
      · intro hall j d x asleep hd hpc
        by_cases hij : i = j
        · subst hij
          cases Option.some.inj (hc.symm.trans hd)
          exact absurd hpc (hquiet x asleep)
        · have hx := hall j d hij hd x asleep hpc
          rcases hphase with ⟨m, hp⟩ | ⟨e, p, hp⟩ <;> rw [hp] at hx <;> exact hx
    | resets hstores hresets hphase =>
      have hquiet : ∀ x asleep, c.pc ≠ .looping (some x) asleep := by
        intro x asleep hpc
        rw [hpc] at hresets
        cases hresets
      simp only [hstores, hresets, reduceCtorEq, false_implies, implies_true, true_and,
        true_implies]
      constructor
      · intro hall j d _ hd x asleep hpc
        rw [hphase]
        exact hall j d x asleep hd hpc
      · intro hall j d x asleep hd hpc
        by_cases hij : i = j
        · subst hij
          cases Option.some.inj (hc.symm.trans hd)
          exact absurd hpc (hquiet x asleep)
        · have hx := hall j d hij hd x asleep hpc
          rw [hphase] at hx
          exact hx
    | keeps hstores hresets hkeeps =>
      simp only [hstores, hresets, reduceCtorEq, false_implies, implies_true, and_self,
        Bool.false_eq_true, true_iff]
      exact fun j d _ hd => hkeeps d (hi.enabled hd) (hfits j d hd)

/-- **Mixed callers.** The runs in which every caller's next turn is always as
the attempt protocol wants it are exactly those that never mix waiters. -/
theorem mixed_callers_safe_iff (debug : Bool) (as : List Action) :
    Runs.Always (Cache.step debug) Safe .init as ↔
      Runs.Along (Cache.step debug) Unmixed .init as := by
  refine Runs.always_iff_along (I := Inv) (fun _ _ _ hi hs => hi.step hs)
    (fun _ _ _ hi hsafe hs => hi.unmixed_iff hsafe hs) as .init inv_init ?_
  intro i c hc
  simp [Cache.init] at hc

/-- A scan cancelled while a `metadata()` caller waits for it. -/
def cancelledWithPlainWaiter : List Action :=
  [.call .metadataWithContext {}, .call .metadata {}, .advance 0, .advance 0, .advance 1,
    .cancel 0, .scan 0 (.withContext (.error .cancelled)), .advance 0]

theorem mixed_callers_unsafe :
    ∃ s s' c, Runs.exec (Cache.step true) .init cancelledWithPlainWaiter = some s ∧ ¬ Safe s ∧
      s.step true (.advance 1) = some s' ∧ s'.caller 1 = some c ∧
      c.pc = .returned .panicked := by
  obtain ⟨s, hs⟩ : ∃ s, Runs.exec (Cache.step true) .init cancelledWithPlainWaiter = some s :=
    ⟨_, rfl⟩
  obtain ⟨s', hs'⟩ : ∃ s', s.step true (.advance 1) = some s' := by
    cases hs
    exact ⟨_, rfl⟩
  obtain ⟨c, hc, hpc⟩ : ∃ c, s'.caller 1 = some c ∧ c.pc = .returned .panicked := by
    cases hs
    cases hs'
    exact ⟨_, rfl, rfl⟩
  refine ⟨s, s', c, hs, fun hsafe => ?_, hs', hc, hpc⟩
  obtain ⟨d, hd, hturn⟩ : ∃ d, s.caller 1 = some d ∧ d.pc = .looping (some 1) true ∧
      stepCaller true s.state d = some (s.state, .returned .panicked) := by
    cases hs
    exact ⟨_, rfl, rfl, rfl⟩
  exact ((hsafe 1 d hd).asserts _ _ _ _ hturn.1 hturn.2).1 rfl

end VcdTools.Opened
