import VcdTools.Lib.Potential
import VcdTools.Server.MetadataRetry

/-! # Every metadata request is answered

The holder of the scan gate is alone with the cache and always has a step; when
the gate is free, every request that is not answered has one. Each of these
steps brings the server nearer to the state where all are answered. -/
namespace VcdTools.Server
open VcdTools.Query VcdTools.Opened VcdTools.Lib

variable {debug : Bool} {config : ServiceConfig} {state : MetadataState} {cache : Cache}
  {r r' : MetadataRequest} {s s' : MetadataServer} {i : Nat}

/-! ## The steps that are left -/

/-- The steps that a call of the cache has left, when it is alone there. -/
def callLeft : Pc → Nat
  | .returned _ => 0
  | .observedReady _ _ | .checking _ | .unwinding _ => 1
  | .publishing _ _ | .publishingWithContext _ _ => 2
  | .building _ => 3
  | .looping _ _ => 4
  | .entering => 5
  | .retrying _ | .acknowledging _ _ | .abandoning _ _ => 6

/-- The steps that a request has left outside its call. -/
def MetadataPc.left : MetadataPc → Nat
  | .answered _ => 0
  | .validated _ => 1
  | .checked _ => 2
  | .scanned _ => 3
  | .scanning _ => 4
  | .admitted => 10
  | .waiting => 11

def MetadataPc.call? : MetadataPc → Option Nat
  | .scanning j => some j
  | _ => none

namespace MetadataServer

/-- The gate holder's call. -/
def gateCall (s : MetadataServer) : Option Caller := do
  let i ← s.gate
  let r ← s.requests[i]?
  let j ← r.pc.call?
  s.cache.caller j

def callLeft (s : MetadataServer) : Nat := (s.gateCall.map fun c => Server.callLeft c.pc).getD 0

def left (s : MetadataServer) : Nat := (s.requests.map (·.pc.left)).sum + s.callLeft

theorem callLeft_free (h : s.gate = none) : s.callLeft = 0 := by
  rw [callLeft, gateCall, h]
  rfl

theorem callLeft_admitted (hg : s.gate = some i) (hr : s.requests[i]? = some r)
    (hpc : r.pc = .admitted) : s.callLeft = 0 := by
  simp [callLeft, gateCall, hg, hr, hpc, MetadataPc.call?]

theorem callLeft_scanning {j : Nat} {c : Caller} (hg : s.gate = some i)
    (hr : s.requests[i]? = some r) (hpc : r.pc = .scanning j) (hc : s.cache.caller j = some c) :
    s.callLeft = Server.callLeft c.pc := by
  have hc' : s.cache.callers[j]? = some c := hc
  simp [callLeft, gateCall, hg, hr, hpc, hc', MetadataPc.call?]

/-- A request that is not at the gate moves on alone. -/
theorem callLeft_away (hg : s.gate ≠ some i) {retried : Bool} :
    callLeft ⟨s.cache, s.gate, s.requests.set i r', retried⟩ = s.callLeft := by
  cases hgate : s.gate with
  | none => rw [callLeft_free rfl, callLeft_free hgate]
  | some k =>
    have hk : i ≠ k := fun heq => hg (heq ▸ hgate)
    simp only [callLeft, gateCall, hgate, bind, Option.bind_some, List.getElem?_set_ne hk]

end MetadataServer

/-! ## The call of the gate holder -/

/-- The one look at the cache ends the loop. -/
theorem look_left (debug : Bool) (hsettled : Settled state) (context : QueryContext) :
    callLeft (getOrBuildWithContext debug state context none).2 < 4 := by
  unfold getOrBuildWithContext
  cases hp : state.phase with
  | ready metadata b => simp [callLeft]
  | failed a error w => simp [callLeft]
  | building a w => exact absurd hp (hsettled a w)
  | absent =>
    simp only
    cases context.check with
    | error e => simp [callLeft]
    | ok u => cases state.elect <;> simp [callLeft]

theorem publish_left (state : MetadataState) (a : Nat) (result : Except QueryError VcdMeta) :
    callLeft (publishWithContext state a result).2 < 2 := by
  unfold publishWithContext
  cases ownWaiters state a with
  | none => simp [callLeft]
  | some w =>
    cases result with
    | ok metadata => simp [callLeft]
    | error e =>
      simp only
      cases cacheError e <;> simp [callLeft]

/-- **A call that has not returned has a step**, its own or that of its scan. -/
theorem CallOk.nearer (debug : Bool) {c : Caller} (h : CallOk config state r c.pc)
    (hentry : c.entry = .metadataWithContext) :
    (∃ result, c.pc = .returned result) ∨
      (∃ a pc', c.pc = .building a ∧ finishScan c r.env.toScan = some pc' ∧
        callLeft pc' < callLeft c.pc) ∨
      (∀ a, c.pc ≠ .building a) ∧ ∃ state' pc', stepCaller debug state c = some (state', pc') ∧
        callLeft pc' < callLeft c.pc := by
  obtain ⟨entry, context, pc, scanned⟩ := c
  cases hentry
  unfold stepCaller finishScan
  cases h with
  | entering hs =>
    refine .inr (.inr ⟨nofun, _, _, rfl, ?_⟩)
    cases context.check <;> simp [callLeft]
  | looping hs =>
    exact .inr (.inr ⟨nofun, _, _, rfl, look_left debug hs context⟩)
  | observed hs ha =>
    refine .inr (.inr ⟨nofun, _, _, rfl, ?_⟩)
    cases context.check <;> simp [callLeft]
  | building hp ha =>
    refine .inr (.inl ?_)
    unfold MetadataEnv.toScan
    cases r.env.scan with
    | none => exact ⟨_, _, rfl, rfl, by simp [callLeft]⟩
    | some result => exact ⟨_, _, rfl, rfl, by simp [callLeft]⟩
  | publishing hp ha hscan =>
    exact .inr (.inr ⟨nofun, _, _, rfl, publish_left state _ _⟩)
  | unwinding hp hscan => exact .inr (.inr ⟨nofun, _, _, rfl, by simp [callLeft]⟩)
  | checking hs hd =>
    refine .inr (.inr ⟨nofun, _, _, rfl, ?_⟩)
    cases context.check <;> simp [callLeft]
  | returned hs hd => exact .inl ⟨_, rfl⟩

/-! ## The steps of a request -/

theorem check_left (r : MetadataRequest) (next : MetadataPc) : (r.check next).left ≤ next.left := by
  unfold MetadataRequest.check
  split
  · exact Nat.zero_le _
  · exact Nat.le_refl _

theorem validate_left (r : MetadataRequest) (metadata : VcdMeta) :
    (r.validate metadata).left < 2 := by
  unfold MetadataRequest.validate
  split
  · exact Nat.zero_lt_two
  · exact Nat.lt_of_le_of_lt (check_left r (.validated metadata)) Nat.one_lt_two

theorem deliver_left (r : MetadataRequest) (metadata : VcdMeta) : (r.deliver metadata).left = 0 := by
  unfold MetadataRequest.deliver
  simp only
  split <;> rfl

theorem leave_left (r : MetadataRequest) (result : Outcome) : (r.leave result).left < 4 := by
  cases result <;> simp [MetadataRequest.leave, MetadataRequest.fail, MetadataPc.left]

/-- A request moves on, and what the gate holder's call has left is known. -/
theorem left_set (hr : s.requests[i]? = some r) {gate : Option Nat} {retried : Bool}
    (h : r'.pc.left + MetadataServer.callLeft ⟨cache, gate, s.requests.set i r', retried⟩ <
      r.pc.left + s.callLeft) :
    MetadataServer.left ⟨cache, gate, s.requests.set i r', retried⟩ < s.left := by
  have hsum := Potential.sum_map_set_add (fun r : MetadataRequest => r.pc.left) hr r'
  unfold MetadataServer.left
  simp only at hsum ⊢
  omega

/-- **A free gate**: a request outside the gate has a step. -/
theorem ServerOk.nearer_free (hr : s.requests[i]? = some r) (hgate : s.gate = none)
    (haway : r.pc.holdsGate = false) (hopen : ∀ frame, r.pc ≠ .answered frame) :
    ∃ s', s.advance debug i r = some s' ∧ s'.left < s.left := by
  have hi : s.gate ≠ some i := by
    rw [hgate]
    exact nofun
  have hmoves : ∀ pc : MetadataPc, pc.left < r.pc.left →
      (s.put i { r with pc }).left < s.left := by
    intro pc hless
    refine left_set hr ?_
    rw [MetadataServer.callLeft_away hi]
    exact Nat.add_lt_add_right hless _
  unfold MetadataServer.advance
  cases hpc : r.pc with
  | waiting =>
    rw [hpc] at hmoves
    cases hc : r.context.check with
    | error e => exact ⟨_, rfl, hmoves _ (by simp [MetadataRequest.fail, MetadataPc.left])⟩
    | ok u =>
      simp only [hgate]
      refine ⟨_, rfl, left_set hr ?_⟩
      rw [MetadataServer.callLeft_admitted rfl
        (List.getElem?_set_self (List.getElem?_eq_some_iff.mp hr).1) rfl, hpc]
      exact Nat.lt_of_lt_of_le (Nat.lt_succ_self 10) (Nat.le_add_right _ _)
  | scanned metadata =>
    rw [hpc] at hmoves
    exact ⟨_, rfl, hmoves _ (Nat.lt_succ_of_le (check_left r (.checked metadata)))⟩
  | checked metadata =>
    rw [hpc] at hmoves
    exact ⟨_, rfl, hmoves _ (validate_left r metadata)⟩
  | validated metadata =>
    rw [hpc] at hmoves
    exact ⟨_, rfl, hmoves _ (by rw [deliver_left]; exact Nat.one_pos)⟩
  | answered frame => exact absurd hpc (hopen frame)
  | admitted | scanning _ =>
    rw [hpc] at haway
    cases haway

/-- **A gate that is held**: its holder has a step. -/
theorem ServerOk.nearer_held (hs : ServerOk config s) (hr : s.requests[i]? = some r)
    (hgate : s.gate = some i) (hholds : r.pc.holdsGate = true) :
    ∃ s', s.advance debug i r = some s' ∧ s'.left < s.left := by
  -- the call goes on and the request with it
  have hnext : ∀ (cache' : Cache) (r' : MetadataRequest) (retried : Bool) (c' : Caller) {j : Nat},
      r'.pc = .scanning j → cache'.caller j = some c' →
      4 + callLeft c'.pc < r.pc.left + s.callLeft →
      MetadataServer.left ⟨cache', s.gate, s.requests.set i r', retried⟩ < s.left := by
    intro cache' r' retried c' j hpc' hc' hless
    have hat : (s.requests.set i r')[i]? = some r' :=
      List.getElem?_set_self (List.getElem?_eq_some_iff.mp hr).1
    have hcall : MetadataServer.callLeft ⟨cache', s.gate, s.requests.set i r', retried⟩ =
        callLeft c'.pc := MetadataServer.callLeft_scanning hgate hat hpc' hc'
    refine left_set hr ?_
    rw [hcall, hpc']
    exact hless
  unfold MetadataServer.advance
  cases hpc : r.pc with
  | admitted =>
    simp only
    cases hc : r.context.check with
    | error e =>
      refine ⟨_, rfl, left_set hr ?_⟩
      rw [MetadataServer.callLeft_free rfl, hpc]
      exact Nat.lt_of_lt_of_le (by simp [MetadataRequest.fail, MetadataPc.left])
        (Nat.le_add_right _ _)
    | ok u =>
      refine ⟨_, rfl, hnext _ _ _ (.new .metadataWithContext r.context) rfl
        List.getElem?_concat_length ?_⟩
      rw [hpc]
      exact Nat.lt_of_lt_of_le (Nat.lt_succ_self 9) (Nat.le_add_right _ _)
  | scanning j =>
    have hreq := hs.request i r hr
    rw [RequestOk, hpc] at hreq
    obtain ⟨c, hc, hentry, hcontext, hok⟩ := hreq
    have hcall : s.callLeft = callLeft c.pc := MetadataServer.callLeft_scanning hgate hr hpc hc
    have hcalls : ∀ n, n < callLeft c.pc → 4 + n < r.pc.left + s.callLeft := by
      intro n hless
      rw [hcall, hpc]
      exact Nat.add_lt_add_left hless 4
    have hstay : ∀ (cache' : Cache) (c' : Caller), cache'.caller j = some c' →
        callLeft c'.pc < callLeft c.pc → MetadataServer.left { s with cache := cache' } < s.left := by
      intro cache' c' hc' hless
      have hleft := hnext cache' r s.retried c' hpc hc' (hcalls _ hless)
      rwa [set_request hr] at hleft
    simp only [hc, Option.bind_some]
    unfold MetadataServer.scanTurn
    obtain ⟨result, hreturned⟩ | ⟨a, pc', hbuilding, hfinish, hless⟩ |
      ⟨hscanned, state', pc', hstep, hless⟩ := hok.nearer debug hentry
    · rw [hreturned]
      refine ⟨_, rfl, left_set hr ?_⟩
      rw [MetadataServer.callLeft_free rfl, hpc]
      exact Nat.lt_of_lt_of_le (leave_left r result) (Nat.le_add_right _ _)
    · rw [hbuilding]
      have hc' : s.cache.callers[j]? = some c := hc
      simp only [Cache.step, hc', Option.bind_some, hfinish, Option.map_some]
      exact ⟨_, rfl, hstay _ _ (caller_set hc) hless⟩
    · have hadvance : s.cache.step debug (.advance j) =
          some ⟨state', s.cache.callers.set j { c with pc := pc' }⟩ := by
        have hc' : s.cache.callers[j]? = some c := hc
        simp only [Cache.step, hc', Option.bind_some, hstep, Option.map_some]
      cases hlook : c.pc with
      | returned result =>
        unfold stepCaller at hstep
        rw [hlook] at hstep
        cases hstep
      | building a => exact absurd hlook (hscanned a)
      | looping w asleep =>
        simp only [hadvance, Option.map_some]
        exact ⟨_, rfl, hnext _ _ _ { c with pc := pc' } hpc (caller_set hc) (hcalls _ hless)⟩
      | entering | observedReady _ _ | acknowledging _ _ | abandoning _ _ | checking _
      | publishing _ _ | publishingWithContext _ _ | unwinding _ | retrying _ =>
        simp only [hadvance, Option.map_some]
        exact ⟨_, rfl, hstay _ { c with pc := pc' } (caller_set hc) hless⟩
  | waiting | scanned _ | checked _ | validated _ | answered _ =>
    rw [hpc] at hholds
    cases hholds

/-! ## The gate is held by a request -/

def GateHeld (s : MetadataServer) : Prop :=
  ∀ i, s.gate = some i → ∃ r, s.requests[i]? = some r ∧ r.pc.holdsGate = true

theorem GateHeld.set (hg : GateHeld s) (hr : s.requests[i]? = some r) {gate : Option Nat}
    {retried : Bool}
    (h : (gate = s.gate ∧ (r.pc.holdsGate = true → r'.pc.holdsGate = true)) ∨ gate = none ∨
      (gate = some i ∧ r'.pc.holdsGate = true)) :
    GateHeld ⟨cache, gate, s.requests.set i r', retried⟩ := by
  have hat : (s.requests.set i r')[i]? = some r' :=
    List.getElem?_set_self (List.getElem?_eq_some_iff.mp hr).1
  intro k hk
  change gate = some k at hk
  rcases h with ⟨hsame, hholds⟩ | hnone | ⟨hself, hholds⟩
  · obtain ⟨x, hx, hxholds⟩ := hg k (hsame.symm.trans hk)
    by_cases hki : k = i
    · subst hki
      cases hr.symm.trans hx
      exact ⟨r', hat, hholds hxholds⟩
    · exact ⟨x, (List.getElem?_set_ne (Ne.symm hki)).trans hx, hxholds⟩
  · rw [hnone] at hk
    cases hk
  · cases hself.symm.trans hk
    exact ⟨r', hat, hholds⟩

theorem GateHeld.interrupt (hg : GateHeld s) (hr : s.requests[i]? = some r) {context : QueryContext}
    {act : Nat → Action} (h : s.interrupt debug i r context act = some s') : GateHeld s' := by
  unfold MetadataServer.interrupt at h
  simp only at h
  split at h
  · obtain ⟨cache, -, rfl⟩ := Option.map_eq_some_iff.mp h
    exact hg.set hr (.inl ⟨rfl, id⟩)
  · cases h
    exact hg.set hr (.inl ⟨rfl, id⟩)

theorem GateHeld.advance (hs : ServerOk config s) (hg : GateHeld s)
    (hr : s.requests[i]? = some r) (h : s.advance debug i r = some s') : GateHeld s' := by
  have hheld := hs.holder i r hr
  unfold MetadataServer.advance at h
  cases hpc : r.pc with
  | waiting =>
    rw [hpc] at h
    have haway : r.pc.holdsGate = true → False := by rw [hpc]; exact nofun
    simp only at h
    split at h
    · cases h
      exact hg.set hr (.inl ⟨rfl, fun hf => (haway hf).elim⟩)
    · cases h
      exact hg.set hr (.inr (.inr ⟨rfl, rfl⟩))
    · cases h
      exact hg
  | admitted =>
    rw [hpc] at h hheld
    simp only at h
    split at h
    · cases h
      exact hg.set hr (.inr (.inl rfl))
    · cases h
      exact hg.set hr (.inr (.inr ⟨hheld rfl, rfl⟩))
  | scanning j =>
    rw [hpc] at h hheld
    obtain ⟨c, hc, hturn⟩ := Option.bind_eq_some_iff.mp h
    unfold MetadataServer.scanTurn at hturn
    split at hturn
    · cases hturn
      exact hg.set hr (.inr (.inl rfl))
    · obtain ⟨cache, -, rfl⟩ := Option.map_eq_some_iff.mp hturn
      exact hg
    · obtain ⟨cache, -, rfl⟩ := Option.map_eq_some_iff.mp hturn
      exact hg.set hr (.inl ⟨rfl, id⟩)
    · obtain ⟨cache, -, rfl⟩ := Option.map_eq_some_iff.mp hturn
      exact hg
  | scanned _ | checked _ | validated _ =>
    rw [hpc] at h
    cases h
    exact hg.set hr (.inl ⟨rfl, fun hf => by rw [hpc] at hf; cases hf⟩)
  | answered frame =>
    rw [hpc] at h
    cases h

theorem GateHeld.step {act : ServerAction} (hs : ServerOk config s) (hg : GateHeld s)
    (h : s.step debug config act = some s') : GateHeld s' := by
  cases act with
  | arrive id maxCommands env context =>
    cases h
    intro k hk
    obtain ⟨x, hx, hholds⟩ := hg k hk
    have hlt : k < s.requests.length := (List.getElem?_eq_some_iff.mp hx).1
    exact ⟨x, (List.getElem?_append_left hlt).trans hx, hholds⟩
  | cancel i | expire i =>
    obtain ⟨r, hr, hstep⟩ := Option.bind_eq_some_iff.mp h
    exact hg.interrupt hr hstep
  | advance i =>
    obtain ⟨r, hr, hstep⟩ := Option.bind_eq_some_iff.mp h
    exact hg.advance hs hr hstep

/-! ## Every request -/

/-- Every request is answered. -/
def Answered (s : MetadataServer) : Prop := ∀ r ∈ s.requests, ∃ frame, r.pc = .answered frame

theorem reachable_ok {as : List ServerAction}
    (h : Runs.exec (MetadataServer.step debug config) .init as = some s) :
    ServerOk config s ∧ GateHeld s :=
  Runs.exec_invariant (I := fun s => ServerOk config s ∧ GateHeld s)
    (fun _ _ _ hi hstep => ⟨hi.1.step hstep, hi.2.step hi.1 hstep⟩) as _ _
    ⟨serverOk_init, nofun⟩ h

theorem nearer (debug : Bool) (hs : ServerOk config s) (hg : GateHeld s) (hopen : ¬ Answered s) :
    ∃ act s', (∃ i, act = .advance i) ∧ s.step debug config act = some s' ∧
      (ServerOk config s' ∧ GateHeld s') ∧ s'.left < s.left := by
  have hadvance : ∀ (i : Nat) (r : MetadataRequest), s.requests[i]? = some r →
      (∃ s', s.advance debug i r = some s' ∧ s'.left < s.left) →
      ∃ act s', (∃ i, act = .advance i) ∧ s.step debug config act = some s' ∧
        (ServerOk config s' ∧ GateHeld s') ∧ s'.left < s.left := by
    rintro i r hr ⟨s', hstep, hless⟩
    have hstep' : s.step debug config (.advance i) = some s' := by
      rw [MetadataServer.step, hr, Option.bind_some, hstep]
    exact ⟨.advance i, s', ⟨i, rfl⟩, hstep', ⟨hs.step hstep', hg.step hs hstep'⟩, hless⟩
  cases hgate : s.gate with
  | some i =>
    obtain ⟨r, hr, hholds⟩ := hg i hgate
    exact hadvance i r hr (hs.nearer_held hr hgate hholds)
  | none =>
    simp only [Answered, not_forall, not_exists] at hopen
    obtain ⟨r, hmem, hopen⟩ := hopen
    obtain ⟨i, hr⟩ := List.mem_iff_getElem?.mp hmem
    have haway : r.pc.holdsGate = false := by
      by_contra hholds
      have hi := hs.holder i r hr (by simpa using hholds)
      rw [hgate] at hi
      cases hi
    exact hadvance i r hr (ServerOk.nearer_free hr hgate haway hopen)

/-- **Every request comes to its answer** by steps of the requests alone. -/
theorem requests_answered {as : List ServerAction}
    (h : Runs.exec (MetadataServer.step debug config) .init as = some s) :
    ∃ more s', Runs.exec (MetadataServer.step debug config) s more = some s' ∧ Answered s' ∧
      (∀ act ∈ more, ∃ i, act = .advance i) ∧ more.length ≤ s.left :=
  Potential.exists_exec_nearer (I := fun s => ServerOk config s ∧ GateHeld s)
    (fun _ hi hopen => nearer debug hi.1 hi.2 hopen) s (reachable_ok h)

/-- **A retryable answer promises nothing by itself.** In every state of every
run, the requests can all come to their answers by their own steps. Those that
came after a retryable answer, and that nothing but the cache can keep from their
result, have all been answered with one if and only if none of them found a failed
attempt in the cache (or no attempt id left). -/
theorem later_requests_served_iff {as : List ServerAction}
    (h : Runs.exec (MetadataServer.step debug config) .init as = some s) :
    ((∀ (i : Nat) (r : MetadataRequest) (frame : ResponseFrame), s.requests[i]? = some r →
      r.later = true → r.Healthy config → r.pc = .answered frame → frame.isResult = true) ↔
    (∀ (i : Nat) (r : MetadataRequest) (frame : ResponseFrame) (found : MetadataState),
      s.requests[i]? = some r → r.later = true → r.Healthy config → r.pc = .answered frame →
      r.found = some found → ¬ CacheBlocked found)) ∧
    ∃ more s', Runs.exec (MetadataServer.step debug config) s more = some s' ∧ Answered s' ∧
      (∀ act ∈ more, ∃ i, act = .advance i) ∧ more.length ≤ s.left := by
  have hs := (reachable_ok h).1
  have answered : ∀ (i : Nat) (r : MetadataRequest) (frame : ResponseFrame),
      s.requests[i]? = some r → r.pc = .answered frame → r.Healthy config →
      ∃ found, r.found = some found ∧ (frame.isResult = true ↔ ¬ CacheBlocked found) := by
    intro i r frame hr hpc hh
    have hreq := hs.request i r hr
    rw [RequestOk, hpc] at hreq
    exact hreq hh
  refine ⟨⟨?_, ?_⟩, requests_answered h⟩
  · intro hserved i r frame found hr hlater hh hpc hfound
    obtain ⟨found', hfound', hiff⟩ := answered i r frame hr hpc hh
    rw [hfound] at hfound'
    cases hfound'
    exact hiff.mp (hserved i r frame hr hlater hh hpc)
  · intro hopen i r frame hr hlater hh hpc
    obtain ⟨found, hfound, hiff⟩ := answered i r frame hr hpc hh
    exact hiff.mpr (hopen i r frame found hr hlater hh hpc hfound)

/-! ## One failed read -/

def retryConfig : ServiceConfig :=
  { maxSignals := 8, maxRows := 8, maxResponseBytes := 100000, maxCommands := 8 }

def scanEnv (scan : Except QueryError VcdMeta) : MetadataEnv :=
  { current := .ok (), scan := some scan, validateSource := .ok (), sendUnary := fun _ => .ok () }

/-- One request whose scan cannot read the source, one whose scan would succeed. -/
def retryRun : List ServerAction :=
  .arrive "a" none (scanEnv (.error (.sourceUnavailable ⟨.other, "read failed", false⟩))) {} ::
    List.replicate 8 (.advance 0) ++
  .arrive "b" none (scanEnv (.ok ⟨none, 1, 0, 5⟩)) {} :: List.replicate 6 (.advance 1)

theorem later_requests_served_read_failure :
    ∃ s, Runs.exec (MetadataServer.step false retryConfig) .init retryRun = some s ∧
      ((∀ (i : Nat) (r : MetadataRequest) (frame : ResponseFrame), s.requests[i]? = some r →
          r.later = true → r.Healthy retryConfig → r.pc = .answered frame →
          frame.isResult = true) ↔
        (∀ (i : Nat) (r : MetadataRequest) (frame : ResponseFrame) (found : MetadataState),
          s.requests[i]? = some r → r.later = true → r.Healthy retryConfig →
          r.pc = .answered frame → r.found = some found → ¬ CacheBlocked found)) ∧
      ∃ more s', Runs.exec (MetadataServer.step false retryConfig) s more = some s' ∧
        Answered s' ∧ (∀ act ∈ more, ∃ i, act = .advance i) ∧ more.length ≤ s.left := by
  have hrun : (Runs.exec (MetadataServer.step false retryConfig) .init retryRun).isSome = true := by
    decide +kernel
  obtain ⟨s, hs⟩ := Option.isSome_iff_exists.mp hrun
  exact ⟨s, hs, later_requests_served_iff hs⟩

/-- **The read failure stays**: the source is fine again, and the next request is
answered with the same retryable error. -/
theorem read_failure_permanent : ∃ s r frame,
    Runs.exec (MetadataServer.step false retryConfig) .init retryRun = some s ∧
    s.requests[1]? = some r ∧ r.later = true ∧ r.Healthy retryConfig ∧
    r.pc = .answered frame ∧ frame.isResult = false ∧
    (MetadataPc.answered frame).retryable = true :=
  ⟨_, _, _, rfl, rfl, rfl, ⟨⟨_, rfl⟩, rfl, ⟨rfl, rfl⟩, ⟨_, rfl⟩, rfl, fun _ => rfl⟩, rfl, rfl, rfl⟩

end VcdTools.Server
