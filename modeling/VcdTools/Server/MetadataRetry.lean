import VcdTools.Server.MetadataRequests

/-! # What a retryable answer promises

The scan gate lets one request at a time into the metadata cache, so a request
is elected or served at its first look at the cache. Whether a request that
nothing else keeps from its result gets it is decided by what it finds there:
a failed attempt of an earlier request is kept and given out for ever. -/
namespace VcdTools.Server
open VcdTools.Query VcdTools.Opened VcdTools.Lib

variable {debug : Bool} {config : ServiceConfig} {state : MetadataState} {cache : Cache}
  {r : MetadataRequest} {s s' : MetadataServer} {i : Nat}

/-- No scan is running. -/
def Settled (state : MetadataState) : Prop := ∀ a w, state.phase ≠ .building a w

/-- The result of a call that nothing interrupts is decided by what it found. -/
def Decided (config : ServiceConfig) (r : MetadataRequest) (result : Outcome) : Prop :=
  r.Healthy config → ∃ found, r.found = some found ∧
    ((∃ metadata, result = .ok metadata) ↔ ¬ CacheBlocked found)

/-- Found in a cache that lets the request on. -/
def Admitted (r : MetadataRequest) : Prop :=
  ∃ found, r.found = some found ∧ ¬ CacheBlocked found

/-- Where the gate holder's call can be, alone with the cache. -/
inductive CallOk (config : ServiceConfig) (state : MetadataState) (r : MetadataRequest) : Pc → Prop
  | entering : Settled state → CallOk config state r .entering
  | looping {asleep} : Settled state → CallOk config state r (.looping none asleep)
  | observed {metadata} : Settled state → Admitted r →
      CallOk config state r (.observedReady metadata none)
  | building {a w} : state.phase = .building a w → Admitted r → CallOk config state r (.building a)
  | publishing {a w result} : state.phase = .building a w → Admitted r →
      r.env.scan = some result → CallOk config state r (.publishingWithContext a result)
  | unwinding {a w} : state.phase = .building a w → r.env.scan = none →
      CallOk config state r (.unwinding a)
  | checking {result} : Settled state → Decided config r result →
      CallOk config state r (.checking result)
  | returned {result} : Settled state → Decided config r result →
      CallOk config state r (.returned result)

/-! ## One call alone with the cache -/

theorem decided_of_check {error : QueryError} (h : r.context.check = .error error)
    (result : Outcome) : Decided config r result :=
  fun hh => absurd hh.live (QueryContext.not_live_of_check h)

theorem Admitted.decided (h : Admitted r) (metadata : VcdMeta) :
    Decided config r (.ok metadata) := by
  obtain ⟨found, hfound, hopen⟩ := h
  exact fun _ => ⟨found, hfound, fun _ => hopen, fun _ => ⟨metadata, rfl⟩⟩

theorem decided_blocked (h : CacheBlocked state) (error : QueryError)
    (hfound : r.found = some state) : Decided config r (.queryError error) := by
  refine fun _ => ⟨state, hfound, ?_, fun hopen => absurd h hopen⟩
  rintro ⟨_, hok⟩
  cases hok

/-- **The one look at the cache.** -/
theorem look_ok (debug : Bool) (config : ServiceConfig) (hsettled : Settled state)
    (hfound : r.found = some state) :
    CallOk config (getOrBuildWithContext debug state r.context none).1 r
      (getOrBuildWithContext debug state r.context none).2 := by
  unfold getOrBuildWithContext
  cases hp : state.phase with
  | ready metadata b =>
    refine .observed hsettled ⟨state, hfound, ?_⟩
    simp [CacheBlocked, hp]
  | failed a error w =>
    refine .checking hsettled (decided_blocked ?_ _ hfound)
    simp [CacheBlocked, hp]
  | building a w => exact absurd hp (hsettled a w)
  | absent =>
    simp only
    cases hc : r.context.check with
    | error e => exact .returned hsettled (decided_of_check hc _)
    | ok u =>
      cases he : state.elect with
      | none =>
        refine .returned hsettled (decided_blocked ?_ _ hfound)
        simp [CacheBlocked, hp, he]
      | some elected =>
        refine .building (w := 0) ?_ ⟨state, hfound, ?_⟩
        · obtain ⟨next, _, rfl⟩ := Option.map_eq_some_iff.mp he
          rfl
        · simp [CacheBlocked, hp, he]

theorem publish_ok (config : ServiceConfig) {a w : Nat} {result : Except QueryError VcdMeta}
    (hp : state.phase = .building a w) (hadmitted : Admitted r)
    (hscan : r.env.scan = some result) :
    CallOk config (publishWithContext state a result).1 r
      (publishWithContext state a result).2 := by
  have hown : ownWaiters state a = some w := by simp [ownWaiters, hp]
  unfold publishWithContext
  rw [hown]
  cases result with
  | ok metadata =>
    refine .checking (fun b v hb => ?_) (hadmitted.decided metadata)
    cases hb
  | error e =>
    have hill : ∀ result, Decided config r result := by
      intro result hh
      obtain ⟨metadata, hm⟩ := hh.scan
      rw [hscan] at hm
      cases hm
    simp only
    split
    · exact .checking (fun b v hb => by cases hb) (hill _)
    · exact .returned (fun b v hb => by cases hb) (hill _)

/-- **The call's own steps keep it.** -/
theorem CallOk.step {c : Caller} {state' : MetadataState} {pc' : Pc}
    (hc : CallOk config state r c.pc) (hentry : c.entry = .metadataWithContext)
    (hcontext : c.context = r.context) (hlook : ∀ w asleep, c.pc ≠ .looping w asleep)
    (h : stepCaller debug state c = some (state', pc')) : CallOk config state' r pc' := by
  obtain ⟨entry, context, pc, scanned⟩ := c
  cases hentry
  cases hcontext
  unfold stepCaller at h
  cases hc with
  | entering hs =>
    cases h
    cases hcheck : r.context.check with
    | error e => exact .returned hs (decided_of_check hcheck _)
    | ok u => exact .looping hs
  | looping _ => exact absurd rfl (hlook _ _)
  | observed hs hadmitted =>
    cases h
    cases hcheck : r.context.check with
    | error e => exact .returned hs (decided_of_check hcheck _)
    | ok u => exact .returned hs (hadmitted.decided _)
  | building _ _ => cases h
  | publishing hp hadmitted hscan =>
    have hok := publish_ok config hp hadmitted hscan
    simp only [Option.some.injEq] at h
    rw [h] at hok
    exact hok
  | @unwinding a w hp hscan =>
    cases h
    refine .returned (fun b v hb => ?_) fun hh => ?_
    · simp [dropBuildGuard, hp] at hb
    · obtain ⟨metadata, hm⟩ := hh.scan
      rw [hscan] at hm
      cases hm
  | checking hs hd =>
    cases h
    cases hcheck : r.context.check with
    | error e => exact .returned hs (decided_of_check hcheck _)
    | ok u => exact .returned hs hd
  | returned _ _ => cases h

/-! ## All requests -/

/-- The answer of a request that nothing else keeps from its result. -/
def AnsweredOk (config : ServiceConfig) (r : MetadataRequest) (frame : ResponseFrame) : Prop :=
  r.Healthy config → ∃ found, r.found = some found ∧
    (frame.isResult = true ↔ ¬ CacheBlocked found)

def RequestOk (config : ServiceConfig) (cache : Cache) (r : MetadataRequest) : Prop :=
  match r.pc with
  | .waiting | .admitted => True
  | .scanning j => ∃ c, cache.caller j = some c ∧ c.entry = .metadataWithContext ∧
      c.context = r.context ∧ CallOk config cache.state r c.pc
  | .scanned _ | .checked _ | .validated _ => r.Healthy config → Admitted r
  | .answered frame => AnsweredOk config r frame

/-- What holds between two steps of the server. -/
structure ServerOk (config : ServiceConfig) (s : MetadataServer) : Prop where
  holder : ∀ (i : Nat) (r : MetadataRequest), s.requests[i]? = some r → r.pc.holdsGate = true →
    s.gate = some i
  idle : (∀ (i : Nat) (r : MetadataRequest) (j : Nat), s.requests[i]? = some r →
    r.pc ≠ .scanning j) → Settled s.cache.state
  request : ∀ (i : Nat) (r : MetadataRequest), s.requests[i]? = some r → RequestOk config s.cache r

theorem serverOk_init : ServerOk config .init where
  holder _ _ h := by cases h
  idle _ a w h := by cases h
  request _ _ h := by cases h

/-- Away from the gate a request does not depend on the cache. -/
theorem RequestOk.away {cache' : Cache} (h : RequestOk config cache r)
    (hpc : r.pc.holdsGate = false) : RequestOk config cache' r := by
  unfold RequestOk at h ⊢
  cases hp : r.pc with
  | scanning j =>
    rw [hp] at hpc
    cases hpc
  | waiting | admitted | scanned _ | checked _ | validated _ | answered _ =>
    rw [hp] at h
    exact h

/-- Health is a matter of the request, not of how far it has come. -/
theorem healthy_of_moved {pc : MetadataPc} (hh : ({ r with pc } : MetadataRequest).Healthy config) :
    r.Healthy config :=
  ⟨hh.limits, hh.current, hh.live, hh.scan, hh.validateSource, hh.sendUnary⟩

/-- An ill request is answered by whatever frame. -/
theorem requestOk_fail (hill : ¬ r.Healthy config) (error : ProtocolError) :
    RequestOk config cache { r with pc := r.fail error } :=
  fun hh => absurd (healthy_of_moved hh) hill

theorem ill_of_check {error : QueryError} (h : r.context.check = .error error) :
    ¬ r.Healthy config := fun hh => QueryContext.not_live_of_check h hh.live

/-- One request moves on, and with it the cache and the gate when it holds the
gate or takes it. -/
theorem ServerOk.update {r' : MetadataRequest} {gate : Option Nat} {retried : Bool}
    (hs : ServerOk config s) (hr : s.requests[i]? = some r)
    (hothers : r.pc.holdsGate = false → cache = s.cache ∧ (gate = s.gate ∨ s.gate = none))
    (hgate : r'.pc.holdsGate = true → gate = some i)
    (hidle : (∀ j, r'.pc ≠ .scanning j) →
      ((∀ j, r.pc ≠ .scanning j) → Settled s.cache.state) → Settled cache.state)
    (hrequest : RequestOk config cache r') :
    ServerOk config ⟨cache, gate, s.requests.set i r', retried⟩ := by
  have hlen : i < s.requests.length := (List.getElem?_eq_some_iff.mp hr).1
  have hat : (s.requests.set i r')[i]? = some r' := List.getElem?_set_self hlen
  have hother : ∀ k, k ≠ i → (s.requests.set i r')[k]? = s.requests[k]? :=
    fun k hk => List.getElem?_set_ne (Ne.symm hk)
  -- another request at the gate means that this one is not, nor takes it
  have hsame : ∀ (k : Nat) (x : MetadataRequest), k ≠ i → s.requests[k]? = some x → x.pc.holdsGate = true →
      cache = s.cache ∧ gate = some k := by
    intro k x hk hx hpc
    have hkgate := hs.holder k x hx hpc
    cases hi : r.pc.holdsGate with
    | true =>
      rw [hs.holder i r hr hi] at hkgate
      exact absurd (Option.some.inj hkgate).symm hk
    | false =>
      obtain ⟨hcache, hsame | hnone⟩ := hothers hi
      · exact ⟨hcache, hsame.trans hkgate⟩
      · rw [hnone] at hkgate
        cases hkgate
  constructor
  · intro k x hx hpc
    by_cases hk : k = i
    · subst hk
      rw [hat] at hx
      cases hx
      exact hgate hpc
    · rw [hother k hk] at hx
      exact (hsame k x hk hx hpc).2
  · intro hnone
    refine hidle (fun j => hnone i r' j hat) fun hself => hs.idle fun k x j hx => ?_
    by_cases hk : k = i
    · subst hk
      rw [hr] at hx
      cases hx
      exact hself j
    · exact hnone k x j ((hother k hk).trans hx)
  · intro k x hx
    by_cases hk : k = i
    · subst hk
      rw [hat] at hx
      cases hx
      exact hrequest
    · rw [hother k hk] at hx
      cases hpc : x.pc.holdsGate with
      | true =>
        rw [(hsame k x hk hx hpc).1]
        exact hs.request k x hx
      | false => exact (hs.request k x hx).away hpc

/-! ## The steps -/

theorem enter_away : (r.enter config).holdsGate = false := by
  unfold MetadataRequest.enter
  split
  · rfl
  · unfold MetadataRequest.check
    split
    · rfl
    · split <;> rfl

theorem enter_ok : RequestOk config cache { r with pc := r.enter config } := by
  unfold MetadataRequest.enter
  cases hl : queryLimits config r.maxCommands none none with
  | error e =>
    refine requestOk_fail (fun hh => ?_) e
    obtain ⟨limits, hlimits⟩ := hh.limits
    rw [hl] at hlimits
    cases hlimits
  | ok limits =>
    simp only [MetadataRequest.check]
    cases hc : r.context.check with
    | error e => exact requestOk_fail (ill_of_check hc) _
    | ok u =>
      cases hcur : r.env.current with
      | error e =>
        refine requestOk_fail (fun hh => ?_) e
        have := hh.current
        rw [hcur] at this
        cases this
      | ok u => trivial

theorem ServerOk.arrive {new : MetadataRequest} {retried : Bool} (hs : ServerOk config s)
    (haway : new.pc.holdsGate = false) (hnew : RequestOk config s.cache new) :
    ServerOk config ⟨s.cache, s.gate, s.requests ++ [new], retried⟩ := by
  have hat : ∀ (k : Nat) (x : MetadataRequest), (s.requests ++ [new])[k]? = some x →
      s.requests[k]? = some x ∨ x = new := by
    intro k x hx
    rcases Nat.lt_or_ge k s.requests.length with hk | hk
    · rw [List.getElem?_append_left hk] at hx
      exact .inl hx
    · rw [List.getElem?_append_right hk] at hx
      exact .inr (List.mem_singleton.mp (List.mem_of_getElem? hx))
  constructor
  · intro k x hx hpc
    rcases hat k x hx with hx | rfl
    · exact hs.holder k x hx hpc
    · rw [haway] at hpc
      cases hpc
  · intro hnone
    refine hs.idle fun k x j hx => hnone k x j ?_
    have hk : k < s.requests.length := (List.getElem?_eq_some_iff.mp hx).1
    exact (List.getElem?_append_left hk).trans hx
  · intro k x hx
    rcases hat k x hx with hx | rfl
    · exact hs.request k x hx
    · exact hnew

/-- A request whose context has fired is owed nothing. -/
theorem CallOk.interrupted {context : QueryContext} {pc : Pc} (h : CallOk config state r pc)
    (hfired : ¬ context.Live) : CallOk config state { r with context } pc := by
  have hill : ∀ result, Decided config { r with context } result :=
    fun _ hh => absurd hh.live hfired
  cases h with
  | entering hs => exact .entering hs
  | looping hs => exact .looping hs
  | observed hs ha => exact .observed hs ha
  | building hp ha => exact .building hp ha
  | publishing hp ha hscan => exact .publishing hp ha hscan
  | unwinding hp hscan => exact .unwinding hp hscan
  | checking hs _ => exact .checking hs (hill _)
  | returned hs _ => exact .returned hs (hill _)

theorem ServerOk.interrupt {context : QueryContext} {act : Nat → Action}
    (hs : ServerOk config s) (hr : s.requests[i]? = some r) (hfired : ¬ context.Live)
    (hact : ∀ j c cache, s.cache.caller j = some c → c.context = r.context →
      s.cache.step debug (act j) = some cache →
      cache.state = s.cache.state ∧ ∃ c', cache.caller j = some c' ∧ c'.entry = c.entry ∧
        c'.context = context ∧ c'.pc = c.pc)
    (h : s.interrupt debug i r context act = some s') : ServerOk config s' := by
  have hreq := hs.request i r hr
  have hheld := hs.holder i r hr
  obtain ⟨id, maxCommands, env, _, pc, later, found⟩ := r
  cases pc with
  | scanning j =>
    obtain ⟨cache, hcache, rfl⟩ := Option.map_eq_some_iff.mp h
    obtain ⟨c, hc, hentry, hcontext, hok⟩ := hreq
    obtain ⟨hstate, c', hc', hentry', hcontext', hpc'⟩ := hact j c cache hc hcontext hcache
    refine hs.update hr (fun hg => by cases hg) (fun _ => hheld rfl)
      (fun hn _ => absurd rfl (hn j)) ⟨c', hc', hentry'.trans hentry, hcontext', ?_⟩
    rw [hpc', hstate]
    exact hok.interrupted hfired
  | waiting =>
    cases h
    exact hs.update hr (fun _ => ⟨rfl, .inl rfl⟩) (fun hg => by cases hg)
      (fun _ hidle => hidle fun _ => MetadataPc.noConfusion) trivial
  | admitted =>
    cases h
    exact hs.update hr (fun _ => ⟨rfl, .inl rfl⟩) (fun _ => hheld rfl)
      (fun _ hidle => hidle fun _ => MetadataPc.noConfusion) trivial
  | scanned _ | checked _ | validated _ | answered _ =>
    cases h
    exact hs.update hr (fun _ => ⟨rfl, .inl rfl⟩) (fun hg => by cases hg)
      (fun _ hidle => hidle fun _ => MetadataPc.noConfusion)
      fun hh => absurd hh.live hfired

/-! ## The gate holder's turn -/

theorem advance_cache {j : Nat} {c : Caller} {cache' : Cache} (hc : cache.caller j = some c)
    (h : cache.step debug (.advance j) = some cache') : ∃ state' pc',
      stepCaller debug cache.state c = some (state', pc') ∧
      cache' = ⟨state', cache.callers.set j { c with pc := pc' }⟩ := by
  have hc' : cache.callers[j]? = some c := hc
  simp only [Cache.step, hc', Option.bind_some, Option.map_eq_some_iff] at h
  obtain ⟨⟨state', pc'⟩, hstep, rfl⟩ := h
  exact ⟨state', pc', hstep, rfl⟩

theorem caller_set {j : Nat} {c c' : Caller} (hc : cache.caller j = some c) :
    (Cache.mk state (cache.callers.set j c')).caller j = some c' :=
  List.getElem?_set_self (List.getElem?_eq_some_iff.mp hc).1

theorem set_request (hr : s.requests[i]? = some r) : s.requests.set i r = s.requests := by
  obtain ⟨hlt, rfl⟩ := List.getElem?_eq_some_iff.mp hr
  exact List.set_getElem_self hlt

/-- The call ended: its result goes to the handler, or its panic to the worker. -/
theorem leave_ok {result : Outcome} (h : Decided config r result) :
    RequestOk config cache { r with pc := r.leave result } := by
  have hfail : (∀ metadata, result ≠ .ok metadata) → ∀ error,
      RequestOk config cache { r with pc := r.fail error } := by
    intro hne error hh
    obtain ⟨found, hfound, hiff⟩ := h (healthy_of_moved hh)
    refine ⟨found, hfound, ⟨fun hres => (by cases hres), fun hopen => ?_⟩⟩
    obtain ⟨metadata, hm⟩ := hiff.mpr hopen
    exact absurd hm (hne metadata)
  cases result with
  | ok metadata =>
    intro hh
    obtain ⟨found, hfound, hiff⟩ := h (healthy_of_moved hh)
    exact ⟨found, hfound, hiff.mp ⟨metadata, rfl⟩⟩
  | vcdError e | queryError e | panicked => exact hfail (fun _ => Outcome.noConfusion) _

theorem ServerOk.scanTurn {j : Nat} {c : Caller} (hs : ServerOk config s)
    (hr : s.requests[i]? = some r) (hpc : r.pc = .scanning j) (hc : s.cache.caller j = some c)
    (h : s.scanTurn debug i r j c = some s') : ServerOk config s' := by
  have hreq := hs.request i r hr
  rw [RequestOk, hpc] at hreq
  obtain ⟨c₀, hc₀, hentry, hcontext, hok⟩ := hreq
  rw [hc] at hc₀
  cases hc₀
  have hgate : s.gate = some i := hs.holder i r hr (by rw [hpc]; rfl)
  have haway : ∀ (P : Prop), r.pc.holdsGate = false → P := fun _ hf => by
    rw [hpc] at hf
    cases hf
  -- the call goes on and the request with it
  have hnext : ∀ (r' : MetadataRequest) (cache : Cache) (retried : Bool) (c' : Caller),
      r'.pc = .scanning j → cache.caller j = some c' → c'.entry = .metadataWithContext →
      c'.context = r'.context → CallOk config cache.state r' c'.pc →
      ServerOk config ⟨cache, s.gate, s.requests.set i r', retried⟩ := by
    intro r' cache retried c' hpc' hc' hentry' hcontext' hok'
    refine hs.update hr (haway _) (fun _ => hgate) (fun hn _ => absurd hpc' (hn j)) ?_
    rw [RequestOk, hpc']
    exact ⟨c', hc', hentry', hcontext', hok'⟩
  have hstay : ∀ (cache : Cache) (c' : Caller), cache.caller j = some c' →
      c'.entry = .metadataWithContext → c'.context = r.context →
      CallOk config cache.state r c'.pc → ServerOk config { s with cache } := by
    intro cache c' hc' hentry' hcontext' hok'
    have := hnext r cache s.retried c' hpc hc' hentry' hcontext' hok'
    rwa [set_request hr] at this
  unfold MetadataServer.scanTurn at h
  have hown : (∀ w asleep, c.pc ≠ .looping w asleep) →
      (s.cache.step debug (.advance j)).map (fun cache => { s with cache }) = some s' →
      ServerOk config s' := by
    intro hlook hstep
    obtain ⟨cache, hcache, rfl⟩ := Option.map_eq_some_iff.mp hstep
    obtain ⟨state', pc', hcall, rfl⟩ := advance_cache hc hcache
    exact hstay _ { c with pc := pc' } (caller_set hc) hentry hcontext
      (hok.step hentry hcontext hlook hcall)
  cases hok' : c.pc with
  | returned result =>
    rw [hok'] at h hok
    cases h
    cases hok with
    | returned hsettled hd =>
      refine hs.update hr (haway _) (fun hg => ?_) (fun _ _ => hsettled) (leave_ok hd)
      cases result <;> cases hg
  | building a =>
    rw [hok'] at h hok
    obtain ⟨cache, hcache, rfl⟩ := Option.map_eq_some_iff.mp h
    have hc' : s.cache.callers[j]? = some c := hc
    simp only [Cache.step, hc', Option.bind_some, Option.map_eq_some_iff] at hcache
    obtain ⟨pc', hfinish, rfl⟩ := hcache
    refine hstay _ _ (caller_set hc) hentry hcontext ?_
    cases hok with
    | building hp hadmitted =>
      unfold MetadataEnv.toScan at hfinish
      cases hscan : r.env.scan with
      | none =>
        rw [hscan] at hfinish
        simp only [finishScan, hok', Option.elim, Option.some.injEq] at hfinish
        subst hfinish
        exact .unwinding hp hscan
      | some result =>
        rw [hscan] at hfinish
        simp only [finishScan, hok', hentry, Option.elim, Option.some.injEq] at hfinish
        subst hfinish
        exact .publishing hp hadmitted hscan
  | looping w asleep =>
    rw [hok'] at h hok
    obtain ⟨cache, hcache, rfl⟩ := Option.map_eq_some_iff.mp h
    obtain ⟨state', pc', hcall, rfl⟩ := advance_cache hc hcache
    cases hok with
    | looping hsettled =>
      have hlook := look_ok debug config (r := { r with found := some s.cache.state }) hsettled rfl
      simp only [stepCaller, hok', hentry, Option.some.injEq] at hcall
      rw [hcontext] at hcall
      rw [hcall] at hlook
      exact hnext _ _ _ { c with pc := pc' } hpc (caller_set hc) hentry hcontext hlook
  | entering | observedReady _ _ | acknowledging _ _ | abandoning _ _ | checking _
  | publishing _ _ | publishingWithContext _ _ | unwinding _ | retrying _ =>
    rw [hok'] at h
    refine hown (fun w asleep hl => ?_) h
    rw [hok'] at hl
    cases hl

/-! ## The server -/

/-- A step of a request outside its call. -/
theorem ServerOk.moves {pc : MetadataPc} (hs : ServerOk config s) (hr : s.requests[i]? = some r)
    (hfrom : r.pc.holdsGate = false) (hto : pc.holdsGate = false)
    (hrequest : RequestOk config s.cache { r with pc }) : ServerOk config (s.put i { r with pc }) := by
  refine hs.update hr (fun _ => ⟨rfl, .inl rfl⟩) (fun hg => ?_) (fun _ hidle => hidle ?_) hrequest
  · rw [hto] at hg
    cases hg
  · intro j hj
    rw [hj] at hfrom
    cases hfrom

theorem ServerOk.advance (hs : ServerOk config s) (hr : s.requests[i]? = some r)
    (h : s.advance debug i r = some s') : ServerOk config s' := by
  have hreq := hs.request i r hr
  have hheld := hs.holder i r hr
  unfold MetadataServer.advance at h
  cases hpc : r.pc with
  | waiting =>
    rw [hpc] at h
    have hfrom : r.pc.holdsGate = false := by rw [hpc]; rfl
    cases hc : r.context.check with
    | error e =>
      rw [hc] at h
      cases h
      exact hs.moves hr hfrom rfl (requestOk_fail (ill_of_check hc) _)
    | ok u =>
      rw [hc] at h
      cases hg : s.gate with
      | none =>
        rw [hg] at h
        cases h
        refine hs.update hr (fun _ => ⟨rfl, .inr hg⟩) (fun _ => rfl)
          (fun _ hidle => hidle fun j hj => ?_) trivial
        rw [hpc] at hj
        cases hj
      | some k =>
        rw [hg] at h
        cases h
        exact hs
  | admitted =>
    rw [hpc] at h hheld
    have haway : ∀ (P : Prop), r.pc.holdsGate = false → P := fun _ hf => by
      rw [hpc] at hf
      cases hf
    cases hc : r.context.check with
    | error e =>
      rw [hc] at h
      cases h
      refine hs.update hr (haway _) (fun hg => by cases hg) (fun _ hidle => hidle fun j hj => ?_)
        (requestOk_fail (ill_of_check hc) _)
      rw [hpc] at hj
      cases hj
    | ok u =>
      rw [hc] at h
      cases h
      refine hs.update hr (haway _) (fun _ => hheld rfl)
        (fun hn _ => absurd rfl (hn s.cache.callers.length)) ?_
      refine ⟨.new .metadataWithContext r.context, List.getElem?_concat_length, rfl, rfl,
        .entering (hs.idle fun k x j hx hj => ?_)⟩
      have hk := hs.holder k x hx (by rw [hj]; rfl)
      rw [hheld rfl] at hk
      cases hk
      rw [hr] at hx
      cases hx
      rw [hpc] at hj
      cases hj
  | scanning j =>
    rw [hpc] at h
    obtain ⟨c, hc, hturn⟩ := Option.bind_eq_some_iff.mp h
    exact hs.scanTurn hr hpc hc hturn
  | scanned metadata =>
    rw [hpc] at h
    rw [RequestOk, hpc] at hreq
    cases h
    have hfrom : r.pc.holdsGate = false := by rw [hpc]; rfl
    unfold MetadataRequest.check
    cases hc : r.context.check with
    | error e => exact hs.moves hr hfrom rfl (requestOk_fail (ill_of_check hc) _)
    | ok u =>
      refine hs.moves hr hfrom rfl fun hh => ?_
      exact hreq (healthy_of_moved hh)
  | checked metadata =>
    rw [hpc] at h
    rw [RequestOk, hpc] at hreq
    cases h
    have hfrom : r.pc.holdsGate = false := by rw [hpc]; rfl
    unfold MetadataRequest.validate
    cases hv : r.env.validateSource with
    | error e =>
      refine hs.moves hr hfrom rfl (requestOk_fail (fun hh => ?_) _)
      have := hh.validateSource
      rw [hv] at this
      cases this
    | ok u =>
      simp only [MetadataRequest.check]
      cases hc : r.context.check with
      | error e => exact hs.moves hr hfrom rfl (requestOk_fail (ill_of_check hc) _)
      | ok u =>
        refine hs.moves hr hfrom rfl fun hh => ?_
        exact hreq (healthy_of_moved hh)
  | validated metadata =>
    rw [hpc] at h
    rw [RequestOk, hpc] at hreq
    cases h
    have hfrom : r.pc.holdsGate = false := by rw [hpc]; rfl
    unfold MetadataRequest.deliver
    simp only
    cases hsend : r.env.sendUnary (.ofResult r.id (metadataResult metadata)) with
    | error e =>
      refine hs.moves hr hfrom rfl (requestOk_fail (fun hh => ?_) _)
      have := hh.sendUnary (.ofResult r.id (metadataResult metadata))
      rw [hsend] at this
      cases this
    | ok u =>
      refine hs.moves hr hfrom rfl fun hh => ?_
      obtain ⟨found, hfound, hopen⟩ :=
        hreq (healthy_of_moved hh)
      exact ⟨found, hfound, ⟨fun _ => hopen, fun _ => rfl⟩⟩
  | answered frame =>
    rw [hpc] at h
    cases h

/-- **One step keeps it.** -/
theorem ServerOk.step {act : ServerAction} (hs : ServerOk config s)
    (h : s.step debug config act = some s') : ServerOk config s' := by
  cases act with
  | arrive id maxCommands env context =>
    cases h
    exact hs.arrive enter_away enter_ok
  | cancel i =>
    obtain ⟨r, hr, hstep⟩ := Option.bind_eq_some_iff.mp h
    refine hs.interrupt hr (fun hl => by cases hl.1) (fun j c cache hc hcontext hact => ?_) hstep
    have hc' : s.cache.callers[j]? = some c := hc
    simp only [Cache.step, hc', Option.map_some, Option.some.injEq] at hact
    subst hact
    exact ⟨rfl, c.cancel, caller_set hc, rfl, by rw [← hcontext]; rfl, rfl⟩
  | expire i =>
    obtain ⟨r, hr, hstep⟩ := Option.bind_eq_some_iff.mp h
    refine hs.interrupt hr (fun hl => by cases hl.2) (fun j c cache hc hcontext hact => ?_) hstep
    have hc' : s.cache.callers[j]? = some c := hc
    simp only [Cache.step, hc', Option.map_some, Option.some.injEq] at hact
    subst hact
    exact ⟨rfl, c.expire, caller_set hc, rfl, by rw [← hcontext]; rfl, rfl⟩
  | advance i =>
    obtain ⟨r, hr, hstep⟩ := Option.bind_eq_some_iff.mp h
    exact hs.advance hr hstep

end VcdTools.Server
