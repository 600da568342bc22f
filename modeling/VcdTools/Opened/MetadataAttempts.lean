import VcdTools.Opened.MetadataInvariant

/-! # Attempts of the metadata cache over whole runs

Attempt stability: a failed attempt keeps its error until every caller counted
on it has returned that error or left. Single flight: one builder at a time,
one value once `Ready`, and no policy error of one scan in another caller's
result. -/
namespace VcdTools.Opened
open VcdTools.Query VcdTools.Lib

variable {debug : Bool} {state state' : MetadataState} {c : Caller} {pc' : Pc} {s s' : Cache}

/-! ## Following a failed attempt -/

/-- What a call through `entry` returns for a cached error. -/
def Entry.failure (entry : Entry) (error : CachedMetadataError) : Outcome :=
  match entry with
  | .metadataWithContext => .queryError (.fromVcd error.toError)
  | _ => .vcdError error.toError

/-- The caller is on its way to returning `error` of the failed attempt `a`,
with at most `left` steps of its own to go; only the end of its own context
takes it off that way. -/
inductive Follows (a : Nat) (error : CachedMetadataError) (state : MetadataState) (c : Caller) :
    Nat → Prop
  | waits {asleep p left} : c.pc = .looping (some a) asleep → state.phase = .failed a error p →
      Follows a error state c (left + 3)
  | acknowledges {left} : c.pc = .acknowledging a (c.entry.failure error) →
      Follows a error state c (left + 2)
  | leaves {o left} : c.pc = .abandoning a o → ¬ c.Live → Follows a error state c (left + 1)
  | checks {left} : c.entry = .metadataWithContext → c.pc = .checking (c.entry.failure error) →
      Follows a error state c (left + 1)
  | returned {o left} : c.pc = .returned o → (c.Live → o = c.entry.failure error) →
      Follows a error state c left

theorem Ended.not_live {q : QueryError} (he : c.entry = .metadataWithContext) (h : c.Ended q) :
    ¬ c.Live := by
  intro hl
  obtain ⟨hc, hx⟩ := hl he
  rcases h with ⟨_, h⟩ | ⟨_, h⟩
  · rw [hc] at h; cases h
  · rw [hx] at h; cases h

theorem check_not_live {q : QueryError} (he : c.entry = .metadataWithContext)
    (h : c.context.check = .error q) : ¬ c.Live :=
  Ended.not_live he (QueryContext.check_error h)

theorem Worsens.live {c' : Caller} (h : Worsens c c') (hl : c'.Live) : c.Live := by
  intro he
  obtain ⟨hc, hx⟩ := hl (h.entry.trans he)
  constructor
  · cases hcc : c.context.cancelled with
    | false => rfl
    | true => rw [h.cancelled hcc] at hc; cases hc
  · cases hxx : c.context.expired with
    | false => rfl
    | true => rw [h.expired hxx] at hx; cases hx

/-- A failed attempt with waiters stays. -/
theorem Shift.keepsFailed {a p : Nat} {e : CachedMetadataError} (h : Shift state state')
    (hp : state.phase = .failed a e p) (hpos : 0 < p) : ∃ p', state'.phase = .failed a e p' := by
  cases h with
  | same => exact ⟨p, hp⟩
  | @recountFailed a' e' p₀ p' hp' =>
    rw [hp'] at hp
    cases hp
    exact ⟨p', rfl⟩
  | retries hp' =>
    rw [hp'] at hp
    cases hp
    cases hpos
  | recountBuilding h | elects h _ | publishesReady h | publishesFailed h | resets h =>
    rw [hp] at h
    cases h

section Follows
variable {a left : Nat} {e : CachedMetadataError}

theorem Follows.keeps {c' : Caller} (h : Follows a e state c left) (hs : Shift state state')
    (hw : Worsens c c') (hpos : ∀ p, state.phase = .failed a e p → c.pc.counted = some a → 0 < p) :
    Follows a e state' c' left := by
  cases h with
  | @waits asleep p _ hpc hp =>
    obtain ⟨p', hp'⟩ := hs.keepsFailed hp (hpos p hp (by rw [hpc]; rfl))
    exact .waits (hw.pc.trans hpc) hp'
  | acknowledges hpc => exact .acknowledges (by rw [hw.pc, hw.entry, hpc])
  | leaves hpc hl => exact .leaves (hw.pc.trans hpc) fun h => hl (hw.live h)
  | checks he hpc => exact .checks (hw.entry.trans he) (by rw [hw.pc, hw.entry, hpc])
  | returned hpc ho =>
    exact .returned (hw.pc.trans hpc) fun hl => (ho (hw.live hl)).trans (by rw [hw.entry])

theorem Worsens.refl (c : Caller) : Worsens c c := ⟨rfl, rfl, rfl, id, id⟩

/-- A step of its own takes the caller one step closer. -/
theorem Follows.move (hm : Move debug state c state' pc') (hok : PcOk state c)
    (hpos : ∀ p, state.phase = .failed a e p → c.pc.counted = some a → 0 < p)
    (h : Follows a e state c left) : Follows a e state' { c with pc := pc' } (left - 1) := by
  cases h with
  | @waits asleep p left hpc hp =>
    have hp₀ := hpos p hp (by rw [hpc]; rfl)
    cases hm with
    | plainAcknowledges hpc' he hp' =>
      rw [hpc] at hpc'
      rw [hp] at hp'
      cases hpc'
      cases hp'
      refine .returned rfl fun _ => ?_
      show Outcome.vcdError e.toError = c.entry.failure e
      cases hc : c.entry with
      | metadataWithContext => exact absurd hc he
      | metadata | retryMetadata => rfl
    | plainForeign hpc' _ hp' hne =>
      rw [hpc] at hpc'
      rw [hp] at hp'
      cases hpc'
      cases hp'
      exact absurd rfl hne
    | plainAsserts hpc' _ hwhy =>
      rw [hpc] at hpc'
      cases hpc'
      rcases hwhy with hp' | ⟨_, _, hp', _⟩ | ⟨_, hp'⟩ <;> rw [hp] at hp' <;> cases hp'
      cases hp₀
    | contextAcknowledges hpc' he hp' =>
      rw [hpc] at hpc'
      rw [hp] at hp'
      cases hpc'
      cases hp'
      refine .acknowledges ?_
      show Pc.acknowledging _ _ = .acknowledging _ (c.entry.failure e)
      rw [he]
      rfl
    | contextAsserts hpc' _ hp' hne =>
      rw [hpc] at hpc'
      rw [hp] at hp'
      cases hpc'
      cases hp'
      exact absurd rfl hne
    | plainReady _ _ hp' | contextReady _ _ hp' | contextRefused _ _ hp' _ | elects _ hp' _ _
    | exhausted _ hp' _ _ | plainSleeps _ _ hp' | contextSleeps _ _ hp'
    | contextRegisters _ _ hp' _ | publishesReady _ hp' | publishesFailed _ hp'
    | publishesContextReady _ hp' | publishesContextFailed _ hp' _ | publishesTransient _ hp' _
    | unwinds _ hp' => rw [hp] at hp'; cases hp'
    | publishPanics hpc' _ => rcases hpc' with ⟨_, hpc'⟩ | ⟨_, hpc'⟩ <;> rw [hpc] at hpc' <;> cases hpc'
    | refused hpc' | admitted hpc' | retryClears hpc' | retryBlocks hpc' | retryPasses hpc'
    | plainRegisters hpc' | contextFailed hpc' | readyReturns hpc' | readyRefused hpc'
    | readyAbandons hpc' | acknowledges hpc' | abandons hpc' | checked hpc' | checkRefused hpc'
    | unwindsLate hpc' => rw [hpc] at hpc'; cases hpc'
  | acknowledges hpc =>
    have he := (hok.acknowledging hpc).1
    obtain ⟨rfl⟩ : pc' = .checking (c.entry.failure e) := by
      cases hm <;> simp_all
    exact .checks he rfl
  | leaves hpc hl =>
    obtain ⟨o, rfl⟩ : ∃ o, pc' = .returned o := by
      cases hm <;> simp_all
    exact .returned rfl fun h => absurd h hl
  | checks he hpc =>
    cases hm with
    | checked hpc' _ =>
      rw [hpc] at hpc'
      cases hpc'
      exact .returned rfl fun _ => rfl
    | checkRefused hpc' hc => exact .returned rfl fun hl => absurd hl (check_not_live he hc)
    | _ => simp_all
  | returned hpc _ => cases hm <;> simp_all

/-- A caller counted on a failed attempt follows it. -/
theorem Inv.follows (hi : Inv s) {i p : Nat} (hget : s.callers[i]? = some c)
    (hp : s.state.phase = .failed a e p) (hc : c.pc.counted = some a) :
    Follows a e s.state c 3 := by
  have hok := hi.pcOk i c hget
  cases hpc : c.pc with
  | looping w asleep =>
    rw [hpc] at hc
    cases hc
    exact .waits hpc hp
  | observedReady m r =>
    obtain ⟨_, b, hb⟩ := hok.observedReady hpc
    rw [hp] at hb
    cases hb
  | acknowledging r o =>
    rw [hpc] at hc
    cases hc
    obtain ⟨he, _, ho, _⟩ := hok.acknowledging hpc
    have hfail : c.entry.failure e = o := by
      rw [he, ho e p hp]
      rfl
    exact .acknowledges (hfail ▸ hpc)
  | abandoning r o =>
    rw [hpc] at hc
    cases hc
    obtain ⟨he, ⟨_, hover⟩ | ⟨q, _, hq⟩⟩ := hok.abandoning hpc
    · exact absurd (by rw [hp]; rfl) (hover p)
    · exact .leaves hpc (Ended.not_live he hq)
  | _ => rw [hpc] at hc; cases hc

theorem Follows.stepped {i : Nat} {act : Action} (hi : Inv s) (hget : s.callers[i]? = some c)
    (h : Follows a e s.state c left) (hs : s.step debug act = some s') :
    ∃ c', s'.callers[i]? = some c' ∧ c'.entry = c.entry ∧
      Follows a e s'.state c' (left - if act = .advance i then 1 else 0) := by
  have hpos : ∀ p, s.state.phase = .failed a e p → c.pc.counted = some a → 0 < p :=
    fun p hp => (hi.enabled hget).counted_pos a p (by rw [hp]; rfl)
  have other : ∀ {state' l}, Shift s.state state' → Follows a e s.state c l →
      Follows a e state' c l := fun hsh hf => hf.keeps hsh (Worsens.refl c) hpos
  cases hi.stepped hs with
  | call entry context =>
    exact ⟨c, Pool.get_append_old hget, rfl, by simpa using h⟩
  | @cancel j d hd =>
    by_cases hij : j = i
    · subst hij
      cases Option.some.inj (hget.symm.trans hd)
      exact ⟨_, Pool.get_set_self hget, rfl, by simpa using h.keeps .same (cancel_worsens c) hpos⟩
    · exact ⟨c, Pool.get_set_ne hij hget, rfl, by simpa using h⟩
  | @expire j d hd =>
    by_cases hij : j = i
    · subst hij
      cases Option.some.inj (hget.symm.trans hd)
      exact ⟨_, Pool.get_set_self hget, rfl, by simpa using h.keeps .same (expire_worsens c) hpos⟩
    · exact ⟨c, Pool.get_set_ne hij hget, rfl, by simpa using h⟩
  | @scan j d scan pc' hd hf =>
    by_cases hij : j = i
    · subst hij
      cases Option.some.inj (hget.symm.trans hd)
      have hpc := (finishScan_some hf).1
      cases h <;> simp_all
    · exact ⟨c, Pool.get_set_ne hij hget, rfl, by simpa using h⟩
  | @advance j d state' pc' hd hm =>
    by_cases hij : j = i
    · subst hij
      cases Option.some.inj (hget.symm.trans hd)
      exact ⟨_, Pool.get_set_self hget, rfl,
        by simpa using h.move hm (hi.pcOk j c hget) hpos⟩
    · exact ⟨c, Pool.get_set_ne hij hget, rfl, by simpa [hij] using other hm.shift h⟩

/-- The run lemma: `left` goes down with each of the caller's own steps. -/
theorem Follows.run {i : Nat} (as : List Action) : ∀ {s c left}, Inv s →
    s.callers[i]? = some c → Follows a e s.state c left →
    Runs.exec (Cache.step debug) s as = some s' →
    ∃ c', s'.callers[i]? = some c' ∧ c'.entry = c.entry ∧
      Follows a e s'.state c' (left - as.count (.advance i)) := by
  induction as with
  | nil =>
    intro s c left _ hget hf h
    cases Option.some.inj h
    exact ⟨c, hget, rfl, hf⟩
  | cons act as ih =>
    intro s c left hi hget hf h
    obtain ⟨t, ht, hr⟩ := Option.bind_eq_some_iff.mp h
    obtain ⟨d, hd, hentry, hf⟩ := hf.stepped hi hget ht
    obtain ⟨c', hc', hentry', hf'⟩ := ih (hi.step ht) hd hf hr
    refine ⟨c', hc', hentry'.trans hentry, ?_⟩
    have : left - (act :: as).count (.advance i) =
        (left - if act = .advance i then 1 else 0) - as.count (.advance i) := by
      rw [List.count_cons]
      by_cases ha : act = .advance i
      · simp only [ha, beq_self_eq_true, if_true]
        omega
      · simp only [beq_iff_eq, ha, if_false]
        omega
    rw [this]
    exact hf'

/-- It never has to wait for anybody. -/
theorem Follows.enabled {i : Nat} (hget : s.callers[i]? = some c)
    (h : Follows a e s.state c left) :
    (∃ o, c.pc = .returned o) ∨ (s.step debug (.advance i)).isSome = true := by
  simp only [Cache.step, hget, Option.bind_some, Option.isSome_map]
  cases h with
  | returned hpc _ => exact .inl ⟨_, hpc⟩
  | waits hpc _ | acknowledges hpc | leaves hpc _ | checks _ hpc =>
    right
    simp [stepCaller, hpc]

end Follows

/-- `Failed` is left by a retry that found no waiter pending, and by nothing
else. -/
theorem Move.leavesFailed {a p : Nat} {e : CachedMetadataError}
    (h : Move debug state c state' pc') (hp : state.phase = .failed a e p) :
    (∃ p', state'.phase = .failed a e p') ∨ (p = 0 ∧ ∃ asleep, c.pc = .retrying asleep) := by
  cases h with
  | retryClears hpc hp' =>
    rw [hp'] at hp
    cases hp
    exact .inr ⟨rfl, _, hpc⟩
  | plainAcknowledges _ _ hp' =>
    rw [hp'] at hp
    cases hp
    exact .inl ⟨_, rfl⟩
  | acknowledges _ | abandons _ =>
    refine .inl ?_
    unfold dropRegistration
    simp only [hp]
    split
    · exact ⟨_, rfl⟩
    · exact ⟨p, hp⟩
  | plainRegisters _ _ hp' | contextRegisters _ _ hp' _ | elects _ hp' _ _ | publishesReady _ hp'
  | publishesFailed _ hp' | publishesContextReady _ hp' | publishesContextFailed _ hp' _
  | publishesTransient _ hp' _ | unwinds _ hp' => rw [hp] at hp'; cases hp'
  | _ => exact .inl ⟨p, hp⟩

/-- **Attempt stability and acknowledgement accounting.** The stored count is
the number of counted callers, while the attempt builds and after it failed. A
failed attempt is left only by a retry that finds the count 0; a retry that
finds it positive has a counted caller to wait for; and each of those callers
needs nobody else, returns within three steps of its own, and returns this
attempt's error unless its context has ended. -/
theorem failed_attempt_accounted (h : Reachable debug s) :
    (∀ a n, s.state.phase.waiting = some (a, n) → n = s.waiters a) ∧
    (∀ i c r q, s.caller i = some c → c.pc = .abandoning r (.queryError q) →
      ∃ s', s.step debug (.advance i) = some s' ∧ s'.waiters r + 1 = s.waiters r) ∧
    ∀ a e p, s.state.phase = .failed a e p →
      (∀ act s', s.step debug act = some s' → (∃ p', s'.state.phase = .failed a e p') ∨
        (p = 0 ∧ ∃ i c asleep, act = .advance i ∧ s.caller i = some c ∧
          c.pc = .retrying asleep)) ∧
      (0 < p → ∃ i c, s.caller i = some c ∧ c.pc.counted = some a) ∧
      ∀ i c, s.caller i = some c → c.pc.counted = some a → 0 < p ∧
        ∀ as s', Runs.exec (Cache.step debug) s as = some s' → ∃ c', s'.caller i = some c' ∧
          ((∃ o, c'.pc = .returned o) ∨ (s'.step debug (.advance i)).isSome = true) ∧
          (3 ≤ as.count (.advance i) → ∃ o, c'.pc = .returned o) ∧
          ∀ o, c'.pc = .returned o → c'.Live → o = c.entry.failure e := by
  have hi := inv_of_reachable h
  refine ⟨hi.accounted, fun i c r q hget hpc => ?_, fun a e p hp => ⟨?_, fun hpos => ?_, ?_⟩⟩
  · have hcount := Pool.countP_set_add (y := { c with pc := .returned (.queryError q) })
      (fun d : Caller => decide (d.pc.counted = some r)) hget
    refine ⟨⟨dropRegistration s.state r,
      s.callers.set i { c with pc := .returned (.queryError q) }⟩, ?_, ?_⟩
    · simp [Cache.step, hget, stepCaller, hpc]
    · simpa [Cache.waiters, hpc, Pc.counted] using hcount
  · intro act s' hs
    cases hi.stepped hs with
    | advance hd hm =>
      rcases hm.leavesFailed hp with hp' | ⟨hz, asleep, hpc⟩
      · exact .inl hp'
      · exact .inr ⟨hz, _, _, asleep, rfl, hd, hpc⟩
    | _ => exact .inl ⟨p, hp⟩
  · rw [hi.accounted a p (by rw [hp]; rfl)] at hpos
    obtain ⟨d, hd, hcd⟩ := List.countP_pos_iff.mp hpos
    obtain ⟨i, hget⟩ := List.mem_iff_getElem?.mp hd
    exact ⟨i, d, hget, of_decide_eq_true hcd⟩
  · intro i c hget hc
    refine ⟨(hi.enabled hget).counted_pos a p (by rw [hp]; rfl) hc, fun as s' hs => ?_⟩
    obtain ⟨c', hget', hentry, hf⟩ := (hi.follows hget hp hc).run as hi hget hs
    refine ⟨c', hget', hf.enabled hget', fun hcount => ?_, fun o hpc hl => ?_⟩
    · have hzero : 3 - as.count (.advance i) = 0 := by omega
      rw [hzero] at hf
      cases hf with
      | returned hpc _ => exact ⟨_, hpc⟩
    · generalize 3 - as.count (.advance i) = left at hf
      cases hf with
      | returned hpc' ho =>
        rw [hpc] at hpc'
        cases hpc'
        rw [ho hl, hentry]
      | waits hpc' _ | acknowledges hpc' | leaves hpc' _ | checks _ hpc' =>
        rw [hpc] at hpc'
        cases hpc'

/-- A call that builds and fails while a second one, with a context, waits. -/
def failureWithWaiter : List Action :=
  [.call .metadata {}, .call .metadataWithContext {}, .advance 0, .advance 1, .advance 1,
    .scan 0 (.plain (.error .missingEndDefinitions)), .advance 0]

theorem failed_attempt_accounted_waiter :
    ∃ s, Runs.exec (Cache.step true) .init failureWithWaiter = some s ∧
      s.state.phase = .failed 1 .missingEndDefinitions 1 ∧ 1 = s.waiters 1 ∧
      ∃ s' c', Runs.exec (Cache.step true) s [.advance 1, .advance 1, .advance 1] = some s' ∧
        s'.caller 1 = some c' ∧ ∃ o, c'.pc = .returned o := by
  obtain ⟨s, hs⟩ : ∃ s, Runs.exec (Cache.step true) .init failureWithWaiter = some s := ⟨_, rfl⟩
  have hp : s.state.phase = .failed 1 .missingEndDefinitions 1 := by
    cases hs
    rfl
  obtain ⟨hcount, _, hfailed⟩ := failed_attempt_accounted ⟨_, hs⟩
  obtain ⟨c, hc, hpc⟩ : ∃ c, s.caller 1 = some c ∧ c.pc.counted = some 1 := by
    cases hs
    exact ⟨_, rfl, rfl⟩
  obtain ⟨s', hs'⟩ : ∃ s', Runs.exec (Cache.step true) s
      [.advance 1, .advance 1, .advance 1] = some s' := by
    cases hs
    exact ⟨_, rfl⟩
  obtain ⟨c', hc', _, hreturned, _⟩ := ((hfailed 1 _ 1 hp).2.2 1 c hc hpc).2 _ s' hs'
  exact ⟨s, hs, hp, hcount 1 1 (by rw [hp]; rfl), s', c', hs', hc', hreturned (by decide)⟩

/-! ## Whose scan it was -/

/-- Every attempt is scanned by one caller, who builds it until it is
published. -/
structure Scans (s : Cache) : Prop where
  current : ∀ i c a scan, s.caller i = some c → c.scanned = some (a, scan) → a < s.state.nextAttempt ∧
      ∀ w, s.state.phase = .building a w → c.pc.builds = some a
  unique : ∀ i j c d a x y, s.caller i = some c → s.caller j = some d →
    c.scanned = some (a, x) → d.scanned = some (a, y) → i = j

theorem scans_init : Scans .init where
  current := by intro i c a scan h; simp [Cache.init] at h
  unique := by intro i j c d a x y h; simp [Cache.init] at h

/-- A replacement that neither scans nor touches what is being built. -/
theorem Scans.replace {i : Nat} {c c' : Caller} (hs : Scans s) (hget : s.caller i = some c)
    (hscanned : c'.scanned = c.scanned) (hnext : s.state.nextAttempt ≤ state'.nextAttempt)
    (hbuilding : ∀ a w, a < s.state.nextAttempt → state'.phase = .building a w →
      (∃ w₀, s.state.phase = .building a w₀) ∧ c'.pc.builds = c.pc.builds) :
    Scans ⟨state', s.callers.set i c'⟩ where
  current j d a scan hj hd := by
    rcases Pool.get_set hj with ⟨rfl, rfl⟩ | ⟨_, hj⟩
    · obtain ⟨hlt, hb⟩ := hs.current i c a scan hget (hscanned ▸ hd)
      refine ⟨Nat.lt_of_lt_of_le hlt hnext, fun w hw => ?_⟩
      obtain ⟨⟨w₀, hw₀⟩, hbuilds⟩ := hbuilding a w hlt hw
      exact hbuilds.trans (hb w₀ hw₀)
    · obtain ⟨hlt, hb⟩ := hs.current j d a scan hj hd
      refine ⟨Nat.lt_of_lt_of_le hlt hnext, fun w hw => ?_⟩
      obtain ⟨⟨w₀, hw₀⟩, _⟩ := hbuilding a w hlt hw
      exact hb w₀ hw₀
  unique j k d f a x y hj hk hd hf := by
    have back : ∀ (l : Nat) (g : Caller) (z : Scan), (s.callers.set i c')[l]? = some g →
        g.scanned = some (a, z) → ∃ g₀, s.caller l = some g₀ ∧ g₀.scanned = some (a, z) := by
      intro l g z hl hg
      rcases Pool.get_set hl with ⟨rfl, rfl⟩ | ⟨_, hl⟩
      · exact ⟨c, hget, hscanned ▸ hg⟩
      · exact ⟨g, hl, hg⟩
    obtain ⟨d₀, hj₀, hd₀⟩ := back j d x hj hd
    obtain ⟨f₀, hk₀, hf₀⟩ := back k f y hk hf
    exact hs.unique j k d₀ f₀ a x y hj₀ hk₀ hd₀ hf₀

theorem Scans.scan {i : Nat} {c : Caller} {scan : Scan} (hi : Inv s) (hs : Scans s)
    (hget : s.caller i = some c) (hf : finishScan c scan = some pc') :
    Scans ⟨s.state, s.callers.set i { c with pc := pc', scanned := some (c.attempt, scan) }⟩ := by
  obtain ⟨hpc, hcase⟩ := finishScan_some hf
  have hbuilds : c.pc.builds = some c.attempt := by rw [hpc]; rfl
  have hbuilds' : pc'.builds = some c.attempt := by
    rcases hcase with ⟨_, rfl⟩ | ⟨_, _, _, rfl⟩ | ⟨_, _, _, rfl⟩ <;> rfl
  obtain ⟨w, hw⟩ := hi.builder i c c.attempt hget hbuilds
  have alone : ∀ (j : Nat) (d : Caller) (x : Scan), s.caller j = some d →
      d.scanned = some (c.attempt, x) → i = j := fun j d x hj hd =>
    hi.builder_unique i j c d _ _ hget hj hbuilds ((hs.current j d _ x hj hd).2 w hw)
  refine ⟨fun j d a x hj hd => ?_, fun j k d f a x y hj hk hd hf => ?_⟩
  · rcases Pool.get_set hj with ⟨rfl, rfl⟩ | ⟨_, hj⟩
    · cases hd
      exact ⟨hi.current_lt _ w (by rw [hw]; rfl), fun _ _ => hbuilds'⟩
    · exact hs.current j d a x hj hd
  · rcases Pool.get_set hj with ⟨rfl, rfl⟩ | ⟨hij, hj⟩ <;>
      rcases Pool.get_set hk with ⟨rfl, rfl⟩ | ⟨hik, hk⟩
    · rfl
    · cases hd
      exact alone k f y hk hf
    · cases hf
      exact (alone j d x hj hd).symm
    · exact hs.unique j k d f a x y hj hk hd hf

theorem Scans.step {act : Action} (hi : Inv s) (hs : Scans s) (h : s.step debug act = some s') :
    Scans s' := by
  cases hi.stepped h with
  | call entry context =>
    have fresh : (Caller.new entry context).scanned = none := by cases entry <;> rfl
    refine ⟨fun i c a scan hget hc => ?_, fun i j c d a x y hc hd hx hy => ?_⟩
    · rcases Pool.get_append hget with ⟨_, rfl⟩ | hget
      · rw [fresh] at hc
        cases hc
      · exact hs.current i c a scan hget hc
    · rcases Pool.get_append hc with ⟨_, rfl⟩ | hc
      · rw [fresh] at hx
        cases hx
      · rcases Pool.get_append hd with ⟨_, rfl⟩ | hd
        · rw [fresh] at hy
          cases hy
        · exact hs.unique i j c d a x y hc hd hx hy
  | cancel hd => exact hs.replace hd rfl (Nat.le_refl _) fun a w _ hw => ⟨⟨w, hw⟩, rfl⟩
  | expire hd => exact hs.replace hd rfl (Nat.le_refl _) fun a w _ hw => ⟨⟨w, hw⟩, rfl⟩
  | scan hd hf => exact hs.scan hi hd hf
  | advance hd hm =>
    refine hs.replace hd rfl hm.shift.nextAttempt_le fun a w hlt hw => ?_
    rcases hm.builds (hi.enabled hd) with ⟨hb, hphase⟩ | ⟨_, _, hphase⟩ | ⟨_, _, hno⟩
    · exact ⟨(hphase a).mp ⟨w, hw⟩, hb⟩
    · rw [hphase] at hw
      cases hw
      exact absurd hlt (Nat.lt_irrefl _)
    · exact absurd hw (hno a w)

theorem scans_of_reachable (h : Reachable debug s) : Scans s := by
  obtain ⟨as, has⟩ := h
  exact (Runs.exec_invariant (I := fun t => Inv t ∧ Scans t)
    (fun _ _ _ ht hs => ⟨ht.1.step hs, ht.2.step ht.1 hs⟩) as .init s ⟨inv_init, scans_init⟩ has).2

/-! ## Single flight -/

/-- A step elects at most one caller, with an id nobody had. -/
theorem Inv.elects {act : Action} (hi : Inv s) (h : s.step debug act = some s') :
    s'.state.elections = s.state.elections ∨
      ∃ i c a, act = .advance i ∧ s'.caller i = some c ∧ c.pc = .building a ∧
        s'.state.elections = s.state.elections ++ [a] := by
  cases hi.stepped h with
  | advance hd hm =>
    cases hm with
    | elects _ _ he _ =>
      exact .inr ⟨_, _, _, rfl, Pool.get_set_self hd, rfl, (elect_some he).2.2⟩
    | acknowledges _ | abandons _ =>
      refine .inl ?_
      rcases (dropRegistration_shift _ : Shift s.state _).elections with ⟨he, _⟩ | ⟨_, hn⟩
      · exact he
      · unfold dropRegistration at hn
        split at hn <;> (try split at hn) <;> simp at hn
    | _ => exact .inl rfl
  | _ => exact .inl rfl

theorem ready_stays (hi : Inv s) {m : VcdMeta} {b : Nat} {as : List Action}
    (hp : s.state.phase = .ready m b) (h : Runs.exec (Cache.step debug) s as = some s') :
    s'.state.phase = .ready m b := by
  refine Runs.exec_relation (I := Inv) (R := fun t => t.state.phase = .ready m b)
    (fun _ _ _ ht hs => ht.step hs) (fun t act t' ht hp hs => ?_) hi hp h
  cases ht.stepped hs with
  | advance _ hm => exact hm.shift.ready hp
  | _ => exact hp

theorem cached_not_policy {q : QueryError} (h : q.isPolicy = true) :
    (Scan.withContext (.error q)).cached = none := by
  cases q <;> first | rfl | cases h

/-- **Single flight.** At most one caller is between its election and the
publication of its outcome; the phase is `Building` with its attempt for
exactly that time, so its publication never panics; ids are handed out in
increasing order; `Ready` stays and is what every successful call returns; and
a policy error of one scan is neither stored nor returned by anybody else. -/
theorem single_flight (h : Reachable debug s) :
    (∀ i j c d a b, s.caller i = some c → s.caller j = some d → c.pc.builds = some a →
      d.pc.builds = some b → i = j) ∧
    (∀ a, (∃ i c, s.caller i = some c ∧ c.pc.builds = some a) ↔
      ∃ w, s.state.phase = .building a w) ∧
    (∀ i c a, s.caller i = some c → c.pc.builds = some a → ownWaiters s.state a ≠ none) ∧
    s.state.elections.Pairwise (· < ·) ∧
    (∀ act s', s.step debug act = some s' → s'.state.elections = s.state.elections ∨
      ∃ i c a, act = .advance i ∧ s'.caller i = some c ∧ c.pc = .building a ∧
        s'.state.elections = s.state.elections ++ [a]) ∧
    (∀ m b as s', s.state.phase = .ready m b → Runs.exec (Cache.step debug) s as = some s' →
      s'.state.phase = .ready m b ∧
        ∀ i c m', s'.caller i = some c → c.pc = .returned (.ok m') → m' = m) ∧
    (∀ i c a q, s.caller i = some c → c.scanned = some (a, .withContext (.error q)) →
      q.isPolicy = true →
        (∀ e p, s.state.phase ≠ .failed a e p) ∧ ∀ m, s.state.phase ≠ .ready m a) ∧
    (∀ a e p, s.state.phase = .failed a e p → (QueryError.fromVcd e.toError).isPolicy = false) ∧
    ∀ i c q, s.caller i = some c → c.pc = .returned (.queryError q) → q.isPolicy = true →
      c.Ended q ∨ ∃ a, c.scanned = some (a, .withContext (.error q)) := by
  have hi := inv_of_reachable h
  have hscans := scans_of_reachable h
  refine ⟨hi.builder_unique, fun a => ⟨?_, fun ⟨w, hw⟩ => hi.building a w hw⟩, ?_, hi.sorted,
    fun act s' => hi.elects, fun m b as s' hp hs => ⟨ready_stays hi hp hs, ?_⟩, ?_,
    fun a e p _ => QueryError.isPolicy_fromVcd _, ?_⟩
  · rintro ⟨i, c, hget, hc⟩
    exact hi.builder i c a hget hc
  · intro i c a hget hc hnone
    obtain ⟨w, hw⟩ := hi.builder i c a hget hc
    rw [ownWaiters_some.mpr hw] at hnone
    cases hnone
  · intro i c m' hget hpc
    have hi' := Runs.exec_invariant (fun _ _ _ ht hs => ht.step hs) as s s' hi hs
    obtain ⟨b', hb'⟩ := (hi'.pcOk i c hget).returned hpc
    rw [ready_stays hi hp hs] at hb'
    cases hb'
    rfl
  · intro i c a q hget hc hq
    refine ⟨fun e p hp => ?_, fun m hp => ?_⟩
    · obtain ⟨j, d, scan, hj, hd, hcached⟩ := hi.failed a e p hp
      cases hscans.unique i j c d a _ _ hget hj hc hd
      cases Option.some.inj (hget.symm.trans hj)
      rw [hc] at hd
      cases hd
      rw [cached_not_policy hq] at hcached
      cases hcached
    · obtain ⟨j, d, scan, hj, hd, hm⟩ := hi.ready m a hp
      cases hscans.unique i j c d a _ _ hget hj hc hd
      cases Option.some.inj (hget.symm.trans hj)
      rw [hc] at hd
      cases hd
      cases hm
  · intro i c q hget hpc
    exact (hi.pcOk i c hget).returned hpc

/-- Three callers, of which the first is elected and the others wait. -/
def electedRun : List Action :=
  [.call .metadata {}, .call .metadataWithContext {}, .call .metadata {}, .advance 0, .advance 1,
    .advance 1, .advance 2]

def electedMeta : VcdMeta := ⟨none, 1, 0, 5⟩

/-- The first caller's scan succeeds. -/
def publishedRun : List Action := electedRun ++ [.scan 0 (.plain (.ok electedMeta)), .advance 0]

theorem single_flight_elected :
    (∃ s, Runs.exec (Cache.step true) .init electedRun = some s ∧
      s.state.phase = .building 1 2 ∧ ∃ i c, s.caller i = some c ∧ c.pc.builds = some 1) ∧
    ∃ s s', Runs.exec (Cache.step true) .init publishedRun = some s ∧
      Runs.exec (Cache.step true) s [.advance 1, .advance 1, .advance 2] = some s' ∧
      s'.state.phase = .ready electedMeta 1 ∧
      s'.callers.map (·.pc) = List.replicate 3 (.returned (.ok electedMeta)) ∧
      ∀ i c m, s'.caller i = some c → c.pc = .returned (.ok m) → m = electedMeta := by
  constructor
  · obtain ⟨s, hs⟩ : ∃ s, Runs.exec (Cache.step true) .init electedRun = some s := ⟨_, rfl⟩
    have hp : s.state.phase = .building 1 2 := by
      cases hs
      rfl
    exact ⟨s, hs, hp, ((single_flight ⟨_, hs⟩).2.1 1).mpr ⟨2, hp⟩⟩
  · obtain ⟨s, hs⟩ : ∃ s, Runs.exec (Cache.step true) .init publishedRun = some s := ⟨_, rfl⟩
    have hready : s.state.phase = .ready electedMeta 1 := by
      cases hs
      rfl
    obtain ⟨s', hs'⟩ : ∃ s', Runs.exec (Cache.step true) s [.advance 1, .advance 1, .advance 2] =
        some s' := by
      cases hs
      exact ⟨_, rfl⟩
    obtain ⟨-, -, -, -, -, hstays, -⟩ := single_flight ⟨_, hs⟩
    obtain ⟨hphase, hsame⟩ := hstays electedMeta 1 _ s' hready hs'
    refine ⟨s, s', hs, hs', hphase, ?_, hsame⟩
    cases hs
    cases hs'
    rfl

end VcdTools.Opened
