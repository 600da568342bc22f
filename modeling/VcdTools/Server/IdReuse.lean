import VcdTools.Server.ConnectionSteps

/-! # When an id is free again

A worker sends the terminal frame first and gives the id back afterwards, when
its guard goes out of scope. In between the frame can reach the client and the
client's next request can reach the reader. -/
namespace VcdTools.Server.Connection
open VcdTools.Lib Requests Leases

variable {env : ConnectionEnv} {s s' : Connection} {i : Nat}

/-- The client has the line's terminal frame, and a worker still has its guard. -/
def Lingering (s : Connection) (i : Nat) : Prop :=
  (s.places i).isRunning = true ∧ ∃ line, s.sent[i]? = some line ∧ line.terminated = true

/-- The reader has refused no fresh id, and no client that was within the maximum. -/
def Unwronged (s : Connection) : Prop := s.wronged = false

/-- No lingering line is in the way of the reader: neither by its id nor by the
place that it takes among the active ones. -/
def Unhindered (env : ConnectionEnv) (s : Connection) : ConnectionAction → Prop
  | .read => ∀ line id, s.sent[s.next]? = some line → line.fresh = true →
      env.requestId line.text = some id → ∀ i, s.Lingering i → s.holders i ≠ some id
  | .turn _ => ∀ i request, s.reader = .registering i request → s.within = true →
      (∃ j, s.Lingering j) → s.registry.state.active.length < s.registry.state.maxActive
  | _ => True

/-- A holder whose terminal frame is out lingers. -/
theorem Inv.lingering (hi : Inv env s) {id : String} {line : ClientLine}
    (hholds : s.holders i = some id) (hline : s.sent[i]? = some line)
    (hterm : line.terminated = true) : s.Lingering i := by
  have hsettled := hi.settled (.inr ⟨line, hline, hterm⟩)
  refine ⟨?_, line, hline, hterm⟩
  cases hplace : s.places i with
  | running job => rfl
  | gone =>
    rw [holders, hplace] at hholds
    cases hholds
  | unread | atReader | admitting _ | queued _ =>
    rw [hplace] at hsettled
    cases hsettled

/-! ## Duplicate ids -/

/-- What the reader finds wrong with a fresh line: its id is active. -/
theorem duplicate_iff {request : Request} {text : String} {isActive : String → Bool}
    (h : env.request text = some request) :
    (∃ error, decodeRequestWithActive env.serde text isActive = .error error ∧
      error.code = .duplicateRequestId) ↔ isActive request.id = true := by
  have hok : decodeRequest env.serde text = .ok request := by
    cases hd : decodeRequest env.serde text with
    | error error =>
      rw [ConnectionEnv.request, hd] at h
      cases h
    | ok request' =>
      rw [ConnectionEnv.request, hd] at h
      cases h
      rfl
  have hactive : decodeRequestWithActive env.serde text isActive =
      if isActive request.id then .error (.duplicateRequestId request.id) else .ok request := by
    rw [decodeRequestWithActive, hok]
    show (request.validateInactive isActive).bind _ = _
    rw [Request.validateInactive]
    split <;> rfl
  rw [hactive]
  constructor
  · rintro ⟨error, herror, _⟩
    split at herror
    · assumption
    · cases herror
  · intro h
    exact ⟨_, if_pos h, rfl⟩

/-- **The reader wrongs a client by refusing a line exactly when the line is
fresh and its id is active.** -/
theorem Inv.read_wrongs_iff (hi : Inv env s) (hs : s.Unwronged) {line : ClientLine}
    (hline : s.sent[s.next]? = some line) (h : s.read env = some s') :
    s'.wronged = true ↔ line.fresh = true ∧ ∃ id, env.requestId line.text = some id ∧
      s.registry.state.isActive id = true := by
  obtain ⟨line', _, hline', rfl⟩ := read_cases h
  cases hline.symm.trans hline'
  have hquiet : ∀ {t : Connection}, t.wronged = s.wronged → ¬ t.wronged = true := by
    intro t ht hwrong
    rw [ht, hs] at hwrong
    cases hwrong
  constructor
  · intro hwrong
    rcases accept_cases env { s with next := s.next + 1 } s.next line with
      ⟨error, hdecode, heq⟩ | ⟨id, target, heq⟩ | ⟨frame, heq⟩ | ⟨request, _, _, heq⟩
    · rw [heq] at hwrong
      obtain ⟨hfresh, hcode⟩ : line.fresh = true ∧ error.code = .duplicateRequestId := by
        rcases Bool.or_eq_true_iff.mp hwrong with hbefore | hnow
        · exact absurd hbefore (hquiet rfl)
        · obtain ⟨hfresh, hcode⟩ := Bool.and_eq_true_iff.mp hnow
          exact ⟨hfresh, beq_iff_eq.mp hcode⟩
      obtain ⟨id, hid⟩ := hi.sent.named hline hfresh
      obtain ⟨request, hrequest, rfl⟩ := Option.map_eq_some_iff.mp hid
      exact ⟨hfresh, request.id, hid, (duplicate_iff hrequest).mp ⟨error, hdecode, hcode⟩⟩
    · rw [heq] at hwrong
      exact absurd hwrong (hquiet rfl)
    · rw [heq] at hwrong
      exact absurd hwrong (hquiet rfl)
    · rw [heq] at hwrong
      exact absurd hwrong (hquiet rfl)
  · rintro ⟨hfresh, id, hid, hactive⟩
    obtain ⟨request, hrequest, rfl⟩ := Option.map_eq_some_iff.mp hid
    obtain ⟨error, hdecode, hcode⟩ := (duplicate_iff hrequest).mpr hactive
    rw [accept, hdecode]
    show (s.wronged || (line.fresh && error.code == .duplicateRequestId)) = true
    rw [hfresh, hcode]
    exact Bool.or_true _

theorem Inv.read_iff (hi : Inv env s) (hs : s.Unwronged) (h : s.read env = some s') :
    s.Unhindered env .read ↔ s'.Unwronged := by
  obtain ⟨line, _, hline, _⟩ := read_cases h
  rw [Unwronged, ← Bool.not_eq_true, hi.read_wrongs_iff hs hline h]
  constructor
  · rintro hfree ⟨hfresh, id, hid, hactive⟩
    obtain ⟨j, hj⟩ := (hi.leased.active_iff id).mp hactive
    obtain ⟨earlier, hearlier, heid, _⟩ := hi.admitted hj
    have hterm := hi.sent.fresh hline hfresh hid (hi.holds_lt hj) hearlier heid
    exact hfree line id hline hfresh hid j (hi.lingering hj hearlier hterm) hj
  · intro hfree line' id hline' hfresh hid j _ hj
    cases hline.symm.trans hline'
    exact hfree ⟨hfresh, id, hid, (hi.leased.active_iff id).mpr ⟨j, hj⟩⟩

/-! ## The maximum -/

/-- When a client that was within the maximum meets a full registry, some line lingers. -/
theorem Inv.some_lingers (hi : Inv env s) {request : Request}
    (hreader : s.reader = .registering i request) (hwithin : s.within = true)
    (hfull : s.registry.state.maxActive ≤ s.registry.state.active.length) :
    ∃ j, s.Lingering j := by
  by_contra hnone
  have hok := hi.reader
  unfold ReaderOk at hok
  simp only [hreader] at hok
  obtain ⟨hplace, hnext, _, hname, line, hline, hrequest⟩ := hok
  have hslots : ∀ id ∈ s.registry.state.active.map Prod.fst, ∃ j, s.holders j = some id :=
    fun id hid => (hi.leased.active_iff id).mp (ConnectionState.isActive_iff.mpr hid)
  choose! holder hholder using hslots
  -- the holders come before line `i`, and none of them is terminated
  have hcount : s.registry.state.active.length ≤ (s.sent.take i).countP env.outstanding := by
    rw [← List.length_map Prod.fst]
    refine length_le_countP (f := holder) s.registry.state.distinct ?_ ?_
    · intro id hid id' hid' heq
      have hsame := hholder id hid
      rw [heq, hholder id' hid'] at hsame
      exact (Option.some.inj hsame).symm
    · intro id hid
      have hheld := hholder id hid
      obtain ⟨earlier, hearlier, _, hslot⟩ := hi.admitted hheld
      have hne : holder id ≠ i := by
        intro heq
        rw [heq, holders, hplace] at hheld
        cases hheld
      have hlt := hi.holds_lt hheld
      refine ⟨earlier, by rw [List.getElem?_take_of_lt (by omega), hearlier], ?_⟩
      rw [ConnectionEnv.outstanding, hslot, Bool.true_and, Bool.not_eq_true']
      by_contra hterm
      exact hnone ⟨_, hi.lingering hheld hearlier (Bool.not_eq_false _ ▸ hterm)⟩
  have hthis : env.outstanding line = true := by
    rw [ConnectionEnv.outstanding, takesSlot_of_request hrequest hname, Bool.true_and,
      Bool.not_eq_true']
    by_contra hterm
    have hsettled := hi.settled (.inr ⟨line, hline, Bool.not_eq_false _ ▸ hterm⟩)
    rw [hplace] at hsettled
    cases hsettled
  have hlt : i < s.sent.length := (List.getElem?_eq_some_iff.mp hline).1
  have hbound := hi.sent.within hwithin i hlt
  rw [List.take_add_one, hline, List.countP_append] at hbound
  have hone : List.countP env.outstanding (some line).toList = 1 := by
    rw [Option.toList_some, List.countP_singleton, if_pos hthis]
  have hmax := hi.maxActive
  omega

theorem Inv.register_iff (hi : Inv env s) (hs : s.Unwronged) {request : Request} {line : ClientLine}
    (hreader : s.reader = .registering i request) :
    (s.within = true → (∃ j, s.Lingering j) →
      s.registry.state.active.length < s.registry.state.maxActive) ↔
      (s.register i request line).Unwronged := by
  have hok := hi.reader
  unfold ReaderOk at hok
  simp only [hreader] at hok
  have hfree := hok.2.2.1
  by_cases hfull : s.registry.state.active.length ≥ s.registry.state.maxActive
  · have hrefused : s.registry.state.register request.id =
        .error s.registry.state.activeLimitExceeded := by
      rw [ConnectionState.register, dif_pos hfree, if_pos hfull]
    have hwrong : (s.register i request line).wronged = s.within := by
      rw [Connection.register, hrefused]
      show (s.wronged || (line.fresh && false || s.within && true)) = s.within
      rw [hs, Bool.and_false, Bool.false_or, Bool.false_or, Bool.and_true]
    rw [Unwronged, hwrong]
    constructor
    · intro h
      by_contra hwithin
      have hwithin : s.within = true := Bool.not_eq_false _ ▸ hwithin
      exact Nat.not_lt.mpr hfull (h hwithin (hi.some_lingers hreader hwithin hfull))
    · intro hwithin h
      exact absurd (hwithin.symm.trans h) Bool.false_ne_true
  · refine iff_of_true (fun _ _ => Nat.not_le.mp hfull) ?_
    have haccepted := ConnectionState.register_ok_iff.mpr ⟨hfree, Nat.not_le.mp hfull, rfl⟩
    rw [Unwronged, Connection.register, haccepted]
    exact hs

theorem Inv.turn_iff (hi : Inv env s) (hs : s.Unwronged) {look : ReaderLook}
    (h : s.turn env look = some s') : s.Unhindered env (.turn look) ↔ s'.Unwronged := by
  have hother : (∀ i request, s.reader ≠ .registering i request) → s'.wronged = s.wronged →
      (s.Unhindered env (.turn look) ↔ s'.Unwronged) := fun hne hsame =>
    iff_of_true (fun i request hreader => absurd hreader (hne i request)) (hsame.trans hs)
  unfold turn at h
  cases hreader : s.reader with
  | registering i request =>
    simp only [hreader] at h
    obtain ⟨line, _, rfl⟩ := Option.map_eq_some_iff.mp h
    rw [← hi.register_iff hs hreader]
    constructor
    · intro hun
      exact hun i request hreader
    · intro hun j request' hreader'
      cases hreader.symm.trans hreader'
      exact hun
  | reading | stopped =>
    rw [hreader] at h
    cases h
  | cancelling _ _ _ | releasing _ _ _ | forcing | closing | joining =>
    simp only [hreader] at h
    cases h
    exact hother (by simp [hreader]) rfl
  | preparing _ _ | submitting _ _ =>
    simp only [hreader] at h
    split at h <;> cases h <;> exact hother (by simp [hreader]) rfl
  | replying _ _ | rejecting _ =>
    simp only [hreader] at h
    repeat' split at h
    all_goals cases h
    all_goals exact hother (by simp [hreader]) rfl

/-! ## Every run -/

theorem deliver_wronged (s : Connection) (frame : OutputFrame) :
    (s.deliver frame).wronged = s.wronged := by
  unfold deliver
  repeat' split
  all_goals rfl

theorem Inv.unhindered_iff (hi : Inv env s) (hs : s.Unwronged) {a : ConnectionAction}
    (h : s.step env a = some s') : s.Unhindered env a ↔ s'.Unwronged := by
  have hquiet : s'.wronged = s.wronged → (True ↔ s'.Unwronged) := fun hsame =>
    iff_of_true trivial (hsame.trans hs)
  cases a with
  | read => exact hi.read_iff hs h
  | turn look => exact hi.turn_iff hs h
  | send text =>
    cases h
    exact hquiet rfl
  | badFrame _ | close =>
    simp only [Connection.step] at h
    split at h <;> cases h
    exact hquiet rfl
  | pick i program =>
    simp only [Connection.step, pick] at h
    split at h <;> cases h
    exact hquiet rfl
  | work i look =>
    obtain ⟨_, _, _, _, _, rfl | rfl⟩ := work_cases h
    · exact hquiet rfl
    · exact hquiet rfl
  | release i =>
    obtain ⟨_, _, _, rfl⟩ := release_cases h
    exact hquiet rfl
  | recv =>
    simp only [Connection.step, recv] at h
    split at h <;> cases h
    exact hquiet rfl
  | check =>
    simp only [Connection.step, check] at h
    split at h <;> cases h
    exact hquiet rfl
  | wrote whole =>
    simp only [Connection.step, wrote] at h
    split at h
    · split at h <;> cases h
      · exact hquiet (deliver_wronged s _)
      · exact hquiet rfl
    · cases h
  | writeFails =>
    simp only [Connection.step, writeFails] at h
    split at h <;> cases h
    exact hquiet rfl
  | sweep =>
    obtain ⟨_, _, rfl⟩ := Option.map_eq_some_iff.mp h
    exact hquiet rfl

/-- **A client whose requests have their terminal frames can use the ids again,
and one within the maximum is never refused for it, in every state of a run,
exactly when in no step of the run a lingering line is in the reader's way.** -/
theorem ids_free_iff (env : ConnectionEnv) (acts : List ConnectionAction) :
    Runs.Always (Connection.step env) Unwronged (.init env) acts ↔
      Runs.Along (Connection.step env) (Unhindered env) (.init env) acts :=
  Runs.always_iff_along (I := Inv env) (fun _ _ _ hi h => hi.step h)
    (fun _ _ _ hi hs h => hi.unhindered_iff hs h) acts _ (inv_init env) rfl

/-! ## A run that goes wrong -/

def pingRequest : Request := { id := "a", method := .ping }

def pingLine : String :=
  "\x7b\"v\":1,\"id\":\"a\",\"method\":\"ping\",\"params\":\x7b\x7d\x7d"

/-- A server that takes one request at a time. -/
def pingEnv : ConnectionEnv where
  serde := { events _ := (pingRequest.serialize, none), display _ error := error,
             print _ := pingLine }
  ser := .whole
  config := {
    outputChunks := 1
    maxActiveRequests := 1
    maxTimeoutMs := 1000
    maxEncodedFrameBytes := 4096 }

def pingDispatch : Dispatch Unit :=
  .call (.ofResult "a" (.str "pong")) fun _ => .done (.ok ())

/-- The second ping is read before the guard of the first goes out of scope. -/
def pingTwice : List ConnectionAction :=
  [.send pingLine, .read, .turn {}, .turn {}, .turn {}, .pick 0 pingDispatch, .work 0 {},
    .work 0 {}, .work 0 {}, .recv, .check, .wrote true, .send pingLine, .read]

/-- A ping with the id of one that was answered is refused as a duplicate. -/
theorem answered_id_refused : ¬ ∀ (env : ConnectionEnv) (acts : List ConnectionAction),
    Runs.Always (Connection.step env) Unwronged (.init env) acts := by
  intro h
  have hwrong : (Runs.exec (Connection.step pingEnv) (.init pingEnv) pingTwice).any
      (fun s => s.wronged) = true := by decide +kernel
  obtain ⟨s, hrun, hs⟩ := (Option.any_eq_true _ _).mp hwrong
  have hun : s.wronged = false :=
    (Runs.always_iff_prefix _ _).mp (h pingEnv pingTwice) _ List.prefix_rfl s hrun
  rw [hs] at hun
  cases hun

end VcdTools.Server.Connection
