import VcdTools.Opened.Metadata

/-! # What one caller's step can do

`Move` lists the steps of a caller by name, each with everything it tests and
everything it changes. `stepCaller_move` is the only place that unfolds the
loops; every invariant is derived from `Move`. -/
namespace VcdTools.Opened
open VcdTools.Query VcdTools.Lib

variable {debug : Bool} {state state' : MetadataState} {c : Caller} {pc' : Pc}

inductive Move (debug : Bool) (state : MetadataState) (c : Caller) : MetadataState → Pc → Prop
  -- entry and the loop of `retry_failed`
  | refused {error} : c.pc = .entering → c.entry = .metadataWithContext →
      c.context.check = .error error → Move debug state c state (.returned (.queryError error))
  | admitted : c.pc = .entering → c.context.check = .ok () →
      Move debug state c state (.looping none false)
  | retryClears {asleep a e} : c.pc = .retrying asleep → state.phase = .failed a e 0 →
      Move debug state c (state.withPhase .absent) (.looping none false)
  | retryBlocks {asleep a e p} : c.pc = .retrying asleep → state.phase = .failed a e (p + 1) →
      Move debug state c state (.retrying true)
  | retryPasses {asleep} : c.pc = .retrying asleep → (∀ a e p, state.phase ≠ .failed a e p) →
      Move debug state c state (.looping none false)
  -- the loop of `get_or_build`
  | plainReady {w asleep m b} : c.pc = .looping w asleep → c.entry ≠ .metadataWithContext →
      state.phase = .ready m b → Move debug state c state (.returned (.ok m))
  | plainAcknowledges {asleep a e p} : c.pc = .looping (some a) asleep →
      c.entry ≠ .metadataWithContext → state.phase = .failed a e p →
      Move debug state c (state.withPhase (.failed a e (p - 1)))
        (.returned (.vcdError e.toError))
  | plainForeign {w asleep a e p} : c.pc = .looping w asleep → c.entry ≠ .metadataWithContext →
      state.phase = .failed a e p → w ≠ some a →
      Move debug state c state (.returned (.vcdError e.toError))
  | plainRegisters {asleep a w} : c.pc = .looping none asleep →
      c.entry ≠ .metadataWithContext → state.phase = .building a w →
      Move debug state c (state.withPhase (.building a (w + 1))) (.looping (some a) true)
  | plainSleeps {asleep x a w} : c.pc = .looping (some x) asleep →
      c.entry ≠ .metadataWithContext → state.phase = .building a w →
      Move debug state c state (.looping (some x) true)
  | plainAsserts {x asleep} : c.pc = .looping (some x) asleep →
      c.entry ≠ .metadataWithContext →
      (state.phase = .absent ∨ (∃ a w, state.phase = .building a w ∧ x ≠ a) ∨
        ∃ e, state.phase = .failed x e 0) →
      Move debug state c state (.returned .panicked)
  -- the loop of `get_or_build_with_context`
  | contextReady {r asleep m b} : c.pc = .looping r asleep → c.entry = .metadataWithContext →
      state.phase = .ready m b → Move debug state c state (.observedReady m r)
  | contextFailed {asleep a e p} : c.pc = .looping none asleep →
      c.entry = .metadataWithContext → state.phase = .failed a e p →
      Move debug state c state (.checking (.queryError (.fromVcd e.toError)))
  | contextAcknowledges {asleep r a e p} : c.pc = .looping (some r) asleep →
      c.entry = .metadataWithContext → state.phase = .failed a e p →
      Move debug state c state (.acknowledging r (.queryError (.fromVcd e.toError)))
  | contextAsserts {asleep r a e p} : c.pc = .looping (some r) asleep →
      c.entry = .metadataWithContext → state.phase = .failed a e p → r ≠ a →
      Move debug state c state (.abandoning r .panicked)
  | contextRegisters {r asleep a w} : c.pc = .looping r asleep →
      c.entry = .metadataWithContext → state.phase = .building a w → r ≠ some a →
      Move debug state c (state.withPhase (.building a (w + 1))) (blockOrLeave c.context a)
  | contextSleeps {asleep a w} : c.pc = .looping (some a) asleep →
      c.entry = .metadataWithContext → state.phase = .building a w →
      Move debug state c state (blockOrLeave c.context a)
  | contextRefused {r asleep error} : c.pc = .looping r asleep →
      c.entry = .metadataWithContext → state.phase = .absent →
      c.context.check = .error error →
      Move debug state c state (.returned (.queryError error))
  -- the election, in both loops
  | elects {r asleep elected} : c.pc = .looping r asleep → state.phase = .absent →
      state.elect = some elected → (c.entry = .metadataWithContext → c.context.Live) →
      Move debug state c elected (.building state.nextAttempt)
  | exhausted {r asleep o} : c.pc = .looping r asleep → state.phase = .absent →
      state.elect = none →
      (o = .vcdError (.parse "metadata attempt identifier space exhausted") ∨
        o = .queryError (.internal "metadata attempt identifier space exhausted")) →
      Move debug state c state (.returned o)
  -- after the loop
  | readyReturns {m r} : c.pc = .observedReady m r → c.context.check = .ok () →
      Move debug state c state (.returned (.ok m))
  | readyRefused {m error} : c.pc = .observedReady m none → c.context.check = .error error →
      Move debug state c state (.returned (.queryError error))
  | readyAbandons {m r error} : c.pc = .observedReady m (some r) →
      c.context.check = .error error →
      Move debug state c state (.abandoning r (.queryError error))
  | acknowledges {r o} : c.pc = .acknowledging r o →
      Move debug state c (dropRegistration state r) (.checking o)
  | abandons {r o} : c.pc = .abandoning r o →
      Move debug state c (dropRegistration state r) (.returned o)
  | checked {o} : c.pc = .checking o → c.context.check = .ok () →
      Move debug state c state (.returned o)
  | checkRefused {o error} : c.pc = .checking o → c.context.check = .error error →
      Move debug state c state (.returned (.queryError error))
  -- the builder
  | publishesReady {a m w} : c.pc = .publishing a (.ok m) → state.phase = .building a w →
      Move debug state c (state.withPhase (.ready m a)) (.returned (.ok m))
  | publishesFailed {a e w} : c.pc = .publishing a (.error e) → state.phase = .building a w →
      Move debug state c (state.withPhase (.failed a (.capture e) w)) (.returned (.vcdError e))
  | publishesContextReady {a m w} : c.pc = .publishingWithContext a (.ok m) →
      state.phase = .building a w →
      Move debug state c (state.withPhase (.ready m a)) (.checking (.ok m))
  | publishesContextFailed {a q e w} : c.pc = .publishingWithContext a (.error q) →
      state.phase = .building a w → cacheError q = some e →
      Move debug state c (state.withPhase (.failed a (.capture e) w))
        (.checking (.queryError (.fromVcd (CachedMetadataError.capture e).toError)))
  | publishesTransient {a q w} : c.pc = .publishingWithContext a (.error q) →
      state.phase = .building a w → cacheError q = none →
      Move debug state c (state.withPhase .absent) (.returned (.queryError q))
  | publishPanics {a} : ((∃ result, c.pc = .publishing a result) ∨
      ∃ result, c.pc = .publishingWithContext a result) → ownWaiters state a = none →
      Move debug state c state (.unwinding a)
  | unwinds {a w} : c.pc = .unwinding a → state.phase = .building a w →
      Move debug state c (state.withPhase (.failed a .builderPanicked w)) (.returned .panicked)
  | unwindsLate {a} : c.pc = .unwinding a → ownWaiters state a = none →
      Move debug state c state (.returned .panicked)

theorem ownWaiters_some {a w : Nat} :
    ownWaiters state a = some w ↔ state.phase = .building a w := by
  unfold ownWaiters
  cases hp : state.phase with
  | building active waiters =>
    by_cases ha : active = a
    · simp [ha]
    · simp [ha]
  | absent | ready _ _ | failed _ _ _ => simp

theorem retryFailed_move {asleep : Bool} (hpc : c.pc = .retrying asleep)
    (h : retryFailed state = (state', pc')) : Move debug state c state' pc' := by
  unfold retryFailed at h
  split at h <;> cases h
  · exact .retryClears hpc ‹_›
  · exact .retryBlocks hpc ‹_›
  · rename_i h0 hs
    refine .retryPasses hpc fun a e p hp => ?_
    cases p with
    | zero => exact h0 a e hp
    | succ p => exact hs a e p hp

theorem getOrBuild_move {w : Option Nat} {asleep : Bool} (hpc : c.pc = .looping w asleep)
    (hentry : c.entry ≠ .metadataWithContext)
    (h : getOrBuild debug state w = (state', pc')) : Move debug state c state' pc' := by
  unfold getOrBuild at h
  cases hp : state.phase with
  | ready m b =>
    simp only [hp] at h
    cases h
    exact .plainReady hpc hentry hp
  | failed a e p =>
    simp only [hp] at h
    split at h
    · rename_i hw
      subst hw
      split at h <;> cases h
      · rename_i hz
        have hz : p = 0 := by simpa using (Bool.and_eq_true_iff.mp hz).2
        exact .plainAsserts hpc hentry (.inr (.inr ⟨e, hz ▸ hp⟩))
      · exact .plainAcknowledges hpc hentry hp
    · rename_i hw
      cases h
      exact .plainForeign hpc hentry hp hw
  | building a waiters =>
    simp only [hp] at h
    cases w with
    | none =>
      cases h
      exact .plainRegisters hpc hentry hp
    | some x =>
      simp only at h
      split at h <;> cases h
      · rename_i hx
        have hx : x ≠ a := by simpa using (Bool.and_eq_true_iff.mp hx).2
        exact .plainAsserts hpc hentry (.inr (.inl ⟨a, waiters, hp, hx⟩))
      · exact .plainSleeps hpc hentry hp
  | absent =>
    simp only [hp] at h
    split at h
    · rename_i hw
      cases h
      obtain ⟨x, rfl⟩ := Option.isSome_iff_exists.mp (Bool.and_eq_true_iff.mp hw).2
      exact .plainAsserts hpc hentry (.inl hp)
    · split at h <;> cases h
      · exact .exhausted hpc hp ‹_› (.inl rfl)
      · exact .elects hpc hp ‹_› fun he => absurd he hentry

theorem getOrBuildWithContext_move {r : Option Nat} {asleep : Bool}
    (hpc : c.pc = .looping r asleep) (hentry : c.entry = .metadataWithContext)
    (h : getOrBuildWithContext debug state c.context r = (state', pc')) :
    Move debug state c state' pc' := by
  unfold getOrBuildWithContext at h
  cases hp : state.phase with
  | ready m b =>
    simp only [hp] at h
    cases h
    exact .contextReady hpc hentry hp
  | failed a e p =>
    simp only [hp] at h
    cases r with
    | none =>
      cases h
      exact .contextFailed hpc hentry hp
    | some r =>
      simp only at h
      split at h <;> cases h
      · rename_i hr
        have hr : r ≠ a := by simpa using (Bool.and_eq_true_iff.mp hr).2
        exact .contextAsserts hpc hentry hp hr
      · exact .contextAcknowledges hpc hentry hp
  | building a w =>
    simp only [hp] at h
    split at h <;> cases h
    · rename_i hr
      subst hr
      exact .contextSleeps hpc hentry hp
    · rename_i hr
      exact .contextRegisters hpc hentry hp hr
  | absent =>
    simp only [hp] at h
    split at h
    · cases h
      exact .contextRefused hpc hentry hp ‹_›
    · rename_i hc
      split at h <;> cases h
      · exact .exhausted hpc hp ‹_› (.inr rfl)
      · exact .elects hpc hp ‹_› fun _ => QueryContext.check_ok.mp hc

theorem publish_move {a : Nat} {result : Except VcdError VcdMeta}
    (hpc : c.pc = .publishing a result) (h : publish state a result = (state', pc')) :
    Move debug state c state' pc' := by
  unfold publish at h
  split at h
  · cases h
    exact .publishPanics (.inl ⟨result, hpc⟩) ‹_›
  · rename_i w hw
    have hp := ownWaiters_some.mp hw
    split at h <;> cases h
    · exact .publishesReady hpc hp
    · exact .publishesFailed hpc hp

theorem publishWithContext_move {a : Nat} {result : Except QueryError VcdMeta}
    (hpc : c.pc = .publishingWithContext a result)
    (h : publishWithContext state a result = (state', pc')) : Move debug state c state' pc' := by
  unfold publishWithContext at h
  split at h
  · cases h
    exact .publishPanics (.inr ⟨result, hpc⟩) ‹_›
  · rename_i w hw
    have hp := ownWaiters_some.mp hw
    split at h
    · cases h
      exact .publishesContextReady hpc hp
    · split at h <;> cases h
      · exact .publishesContextFailed hpc hp ‹_›
      · exact .publishesTransient hpc hp ‹_›

/-- **The inversion of a caller's step.** -/
theorem stepCaller_move (hentry : c.pc = .entering → c.entry = .metadataWithContext)
    (h : stepCaller debug state c = some (state', pc')) : Move debug state c state' pc' := by
  unfold stepCaller at h
  cases hpc : c.pc with
  | entering =>
    simp only [hpc, Option.some.injEq, Prod.mk.injEq] at h
    obtain ⟨rfl, h⟩ := h
    split at h <;> subst h
    · exact .refused hpc (hentry hpc) ‹_›
    · exact .admitted hpc ‹_›
  | retrying asleep =>
    simp only [hpc, Option.some.injEq] at h
    exact retryFailed_move hpc h
  | looping w asleep =>
    simp only [hpc, Option.some.injEq] at h
    by_cases he : c.entry = .metadataWithContext
    · rw [he] at h
      exact getOrBuildWithContext_move hpc he h
    · cases hc : c.entry <;> simp only [hc] at h
      · exact getOrBuild_move hpc he h
      · exact absurd hc he
      · exact getOrBuild_move hpc he h
  | observedReady m r =>
    simp only [hpc, Option.some.injEq, Prod.mk.injEq] at h
    obtain ⟨rfl, h⟩ := h
    split at h <;> subst h
    · exact .readyReturns hpc ‹_›
    · exact .readyRefused hpc ‹_›
    · exact .readyAbandons hpc ‹_›
  | acknowledging r o =>
    simp only [hpc, Option.some.injEq, Prod.mk.injEq] at h
    obtain ⟨rfl, rfl⟩ := h
    exact .acknowledges hpc
  | abandoning r o =>
    simp only [hpc, Option.some.injEq, Prod.mk.injEq] at h
    obtain ⟨rfl, rfl⟩ := h
    exact .abandons hpc
  | checking o =>
    simp only [hpc, Option.some.injEq, Prod.mk.injEq] at h
    obtain ⟨rfl, h⟩ := h
    split at h <;> subst h
    · exact .checkRefused hpc ‹_›
    · exact .checked hpc ‹_›
  | publishing a result =>
    simp only [hpc, Option.some.injEq] at h
    exact publish_move hpc h
  | publishingWithContext a result =>
    simp only [hpc, Option.some.injEq] at h
    exact publishWithContext_move hpc h
  | unwinding a =>
    simp only [hpc, Option.some.injEq, Prod.mk.injEq] at h
    obtain ⟨rfl, rfl⟩ := h
    cases hw : ownWaiters state a with
    | some w =>
      have hp := ownWaiters_some.mp hw
      have hd : dropBuildGuard state a = state.withPhase (.failed a .builderPanicked w) := by
        simp [dropBuildGuard, hp]
      exact hd ▸ .unwinds hpc hp
    | none =>
      have hd : dropBuildGuard state a = state := by
        unfold dropBuildGuard
        unfold ownWaiters at hw
        split
        · rename_i hp
          simp only [hp] at hw
          split at hw
          · cases hw
          · rename_i hne
            rw [if_neg hne]
        · rfl
      exact hd.symm ▸ .unwindsLate hpc hw
  | building a | returned o => simp [hpc] at h

end VcdTools.Opened
