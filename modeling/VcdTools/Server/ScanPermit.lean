import VcdTools.Server.ScanBlocked

/-! # Who holds the scan permit, and for how long

The gate is held exactly when one worker has a guard, and a worker with a guard
is in a section that it leaves by giving the permit back. What a section may
wait for depends on the method: an extract sends its chunks from inside. -/
namespace VcdTools.Server
open VcdTools.Lib Bracket Leases

/-- The worker's request sends nothing inside its section. -/
def ScanWorker.quiet (w : ScanWorker) : Bool := !w.request.method.streamsInScan

/-- What is left of a worker's program, by whether it holds the permit. -/
def ScanWorker.Ok (w : ScanWorker) : Prop :=
  match w.pc with
  | .entering program => w.holds = false ∧ Bracketed w.quiet program false
  | .dispatching program => Bracketed w.quiet program w.holds
  | .acquiring next => w.holds = false ∧ ∀ answer inside, Serves false
      (.enter : Call ResponseFrame) answer inside → Bracketed w.quiet (next answer) inside
  | .sending _ _ next _ => (w.quiet = true → w.holds = false) ∧
      ∀ answer, Bracketed w.quiet (next answer) w.holds
  | .ending _ => w.holds = false
  | .terminating _ => w.holds = false

/-- The rest of the program gives the permit back before it returns, fails or
panics. -/
def ScanPc.GivesBack : ScanPc → Prop
  | .dispatching program => Bracketed false program true
  | .sending _ _ next _ => ∀ answer, Bracketed false (next answer) true
  | _ => False

namespace ScanServer
variable {config : ScanConfig} {s s' : ScanServer} {i : Nat} {w : ScanWorker} {pc : ScanPc}

/-- What a worker holds of the one permit. -/
def permit (w : Option ScanWorker) : Option Unit :=
  w.bind fun w => if w.holds then some () else none

def holders (s : ScanServer) (i : Nat) : Option Unit := permit (s.workers i)

structure Inv (s : ScanServer) : Prop where
  leased : Leased (fun _ : Unit => s.held = true) s.holders
  workers : ∀ {i w}, s.workers i = some w → w.Ok

/-- No worker that holds the permit waits for room. -/
def Unblocked (s : ScanServer) : Prop :=
  ∀ i w, s.workers i = some w → w.holds = true → w.pc.waitsForRoom = false

structure PermitSafe (s : ScanServer) : Prop where
  /-- At most one worker holds the permit. -/
  exclusive : ∀ i j v w, s.workers i = some v → s.workers j = some w → v.holds = true →
    w.holds = true → i = j
  /-- The gate is held only by a worker. -/
  held : s.held = true ↔ ∃ i w, s.workers i = some w ∧ w.holds = true
  /-- A worker that holds the permit gives it back on every way out. -/
  released : ∀ i w, s.workers i = some w → w.holds = true → w.pc.GivesBack
  unblocked : s.Unblocked

theorem inv_init : Inv .init where
  leased := .initial fun _ h => Bool.false_ne_true h
  workers := fun h => (by cases h)

theorem permit_some_iff {w : Option ScanWorker} {k : Unit} :
    permit w = some k ↔ ∃ v, w = some v ∧ v.holds = true := by
  cases w with
  | none => exact iff_of_false (fun h => (by cases h)) fun ⟨_, h, _⟩ => (by cases h)
  | some v =>
    show (if v.holds then some () else none) = some k ↔ _
    cases hholds : v.holds with
    | true => exact iff_of_true rfl ⟨v, rfl, hholds⟩
    | false =>
      refine iff_of_false (fun h => (by cases h)) ?_
      rintro ⟨v', hv, h⟩
      cases hv
      exact Bool.false_ne_true (hholds.symm.trans h)

/-- A worker with the permit is in its section. -/
theorem Inv.givesBack (hi : Inv s) (hw : s.workers i = some w) (hholds : w.holds = true) :
    w.pc.GivesBack := by
  have hok := hi.workers hw
  unfold ScanWorker.Ok at hok
  cases hpc : w.pc with
  | dispatching program =>
    simp only [hpc, hholds] at hok
    exact hok.loud
  | sending frame lifecycle next blocked =>
    simp only [hpc, hholds] at hok
    exact fun answer => (hok.2 answer).loud
  | entering _ | acquiring _ =>
    simp only [hpc, hholds] at hok
    cases hok.1
  | ending _ | terminating _ =>
    simp only [hpc, hholds] at hok
    cases hok

theorem Inv.permitSafe_iff (hi : Inv s) : s.PermitSafe ↔ s.Unblocked := by
  constructor
  · exact PermitSafe.unblocked
  · intro hunblocked
    refine ⟨?_, ?_, fun i w hw hholds => hi.givesBack hw hholds, hunblocked⟩
    · intro i j v w hv hw hv' hw'
      exact hi.leased.distinct (k := ()) (permit_some_iff.mpr ⟨v, hv, hv'⟩)
        (permit_some_iff.mpr ⟨w, hw, hw'⟩)
    · rw [hi.leased.active_iff ()]
      constructor
      · rintro ⟨i, h⟩
        obtain ⟨w, hw, hholds⟩ := permit_some_iff.mp h
        exact ⟨i, w, hw, hholds⟩
      · rintro ⟨i, w, hw, hholds⟩
        exact ⟨i, permit_some_iff.mpr ⟨w, hw, hholds⟩⟩

/-! ## Moves -/

theorem put_self (s : ScanServer) (i : Nat) (w : Option ScanWorker) : (s.put i w).workers i = w :=
  Function.update_self ..

theorem put_of_ne (s : ScanServer) {i j : Nat} (w : Option ScanWorker) (h : j ≠ i) :
    (s.put i w).workers j = s.workers j := Function.update_of_ne h ..

theorem holders_put (s : ScanServer) (i : Nat) (w : Option ScanWorker) :
    (s.put i w).holders = Function.update s.holders i (permit w) :=
  Function.comp_update permit s.workers i w

theorem workers_put {w' : Option ScanWorker} (hi : Inv s) (hok : ∀ v, w' = some v → v.Ok)
    {j : Nat} {v : ScanWorker} (hv : (s.put i w').workers j = some v) : v.Ok := by
  by_cases hji : j = i
  · subst hji
    rw [put_self] at hv
    exact hok v hv
  · rw [put_of_ne s w' hji] at hv
    exact hi.workers hv

/-- A worker goes on and keeps what it has. -/
theorem Inv.put (hi : Inv s) {w' : Option ScanWorker} (hpermit : permit w' = s.holders i)
    (hok : ∀ v, w' = some v → v.Ok) : Inv (s.put i w') := by
  refine ⟨?_, workers_put hi hok⟩
  rw [holders_put, hpermit, Function.update_eq_self]
  exact hi.leased

theorem Inv.goto (hi : Inv s) (hw : s.workers i = some w)
    (hok : ({ w with pc } : ScanWorker).Ok) : Inv (s.goto i w pc) := by
  refine hi.put ?_ fun v hv => ?_
  · rw [holders, hw]
    rfl
  · cases hv
    exact hok

/-- A worker without the permit is through. -/
theorem Inv.leave (hi : Inv s) (hw : s.workers i = some w) (hholds : w.holds = false) :
    Inv (s.put i none) := by
  refine hi.put ?_ fun v hv => (by cases hv)
  rw [holders, hw]
  show none = if w.holds then some () else none
  rw [hholds]
  rfl

theorem Inv.take (hi : Inv s) (hw : s.workers i = some w) (hfree : s.held = false)
    (hholds : w.holds = false) (hok : ({ w with holds := true, pc } : ScanWorker).Ok) :
    Inv (s.take i w pc) := by
  have hnone : s.holders i = none := by
    rw [holders, hw]
    show (if w.holds then some () else none) = none
    rw [hholds]
    rfl
  constructor
  · show Leased _ (s.put i _).holders
    rw [holders_put]
    refine hi.leased.acquire (k := ()) (fun h => Bool.false_ne_true (hfree.symm.trans h)) hnone ?_
    exact fun _ => iff_of_true rfl (.inl rfl)
  · intro j v hv
    refine workers_put hi ?_ hv
    intro v hv
    cases hv
    exact hok

theorem Inv.giveBack (hi : Inv s) (hw : s.workers i = some w) (hholds : w.holds = true)
    (hok : ({ w with holds := false, pc } : ScanWorker).Ok) : Inv (s.giveBack i w pc) := by
  have hsome : s.holders i = some () := permit_some_iff.mpr ⟨w, hw, hholds⟩
  constructor
  · show Leased _ (s.put i _).holders
    rw [holders_put]
    refine hi.leased.release (k := ()) hsome ?_
    exact fun _ => iff_of_false (fun h => (by cases h)) fun h => h.2 rfl
  · intro j v hv
    refine workers_put hi ?_ hv
    intro v hv
    cases hv
    exact hok

/-! ## Every step -/

theorem Inv.dispatchTurn (hi : Inv s) (hw : s.workers i = some w) {program : Gated Unit}
    (h : Bracketed w.quiet program w.holds) : Inv (s.dispatchTurn config i w program) := by
  cases program with
  | done result =>
    cases result with
    | ok u => exact hi.goto hw h.of_done
    | error error => exact hi.goto hw h.of_done
  | panic => exact hi.goto hw h.of_panic
  | call request next =>
    obtain ⟨hallowed, hnext⟩ := h.of_call
    cases request with
    | enter =>
      have hout : w.holds = false := hallowed
      rw [hout] at hnext
      exact hi.goto hw ⟨hout, hnext⟩
    | exit =>
      have hin : w.holds = true := hallowed
      rw [hin] at hnext
      exact hi.giveBack hw hin (hnext _ _ .exited)
    | other frame =>
      have hsends : ∀ answer, Bracketed w.quiet (next answer) w.holds :=
        fun answer => hnext answer _ .other
      rw [ScanServer.dispatchTurn]
      split
      · exact hi.goto hw (hsends _)
      · exact hi.goto hw ⟨hallowed, hsends⟩

theorem Inv.acquireTurn (hi : Inv s) (hw : s.workers i = some w)
    {next : Except ProtocolError Unit → Gated Unit} {look : Look} (hholds : w.holds = false)
    (hnext : ∀ answer inside, Serves false (.enter : Call ResponseFrame) answer inside →
      Bracketed w.quiet (next answer) inside) : Inv (s.acquireTurn i w next look) := by
  unfold ScanServer.acquireTurn
  split
  · refine hi.goto hw ?_
    show Bracketed w.quiet _ w.holds
    rw [hholds]
    exact hnext _ _ .refused
  · split
    · exact hi
    · rename_i hfree
      exact hi.take hw (Bool.not_eq_true _ ▸ hfree) hholds (hnext _ _ .granted)

theorem Inv.sendTurn (hi : Inv s) (hw : s.workers i = some w) {frame : ResponseFrame}
    {lifecycle : OutputLifecycle} {next : Except ProtocolError Unit → Gated Unit} {look : Look}
    (hquiet : w.quiet = true → w.holds = false)
    (hnext : ∀ answer, Bracketed w.quiet (next answer) w.holds) :
    Inv (s.sendTurn config i w frame lifecycle next look) := by
  unfold ScanServer.sendTurn
  split
  · exact hi.goto hw (hnext _)
  · split
    · exact hi.goto hw (hnext _)
    · split
      · have hi' : Inv (s.enqueue w frame) := ⟨hi.leased, hi.workers⟩
        refine hi'.put ?_ fun v hv => ?_
        · show _ = s.holders i
          rw [holders, hw]
          rfl
        · cases hv
          exact hnext _
      · exact hi.goto hw ⟨hquiet, hnext⟩

theorem Inv.requireTerminal (hi : Inv s) (hw : s.workers i = some w) (hholds : w.holds = false)
    (error : ProtocolError) : Inv (s.requireTerminal config i w error) := by
  unfold ScanServer.requireTerminal
  split
  · exact hi.leave hw hholds
  · split
    · exact hi.goto hw hholds
    · have hi' : Inv (s.hangup w.connection) := ⟨hi.leased, hi.workers⟩
      exact hi'.leave hw hholds

theorem Inv.terminalTurn (hi : Inv s) (hw : s.workers i = some w) (hholds : w.holds = false)
    (frame : ResponseFrame) (look : Look) : Inv (s.terminalTurn config i w frame look) := by
  have hconnect : ∀ c connection, Inv (s.connect c connection) := fun _ _ =>
    ⟨hi.leased, hi.workers⟩
  unfold ScanServer.terminalTurn
  split
  · exact hi.leave hw hholds
  · split
    · exact (hconnect _ _).leave hw hholds
    · split
      · exact (hconnect _ _).leave hw hholds
      · exact hi

theorem Inv.turn (hi : Inv s) (hw : s.workers i = some w) (look : Look) :
    Inv (s.turn config i w look) := by
  have hok := hi.workers hw
  unfold ScanWorker.Ok at hok
  unfold ScanServer.turn
  cases hpc : w.pc with
  | entering program =>
    simp only [hpc] at hok ⊢
    split
    · exact hi.goto hw hok.1
    · refine hi.goto hw ?_
      show Bracketed w.quiet program w.holds
      rw [hok.1]
      exact hok.2
  | dispatching program =>
    simp only [hpc] at hok ⊢
    exact hi.dispatchTurn hw hok
  | acquiring next =>
    simp only [hpc] at hok ⊢
    exact hi.acquireTurn hw hok.1 hok.2
  | sending frame lifecycle next blocked =>
    simp only [hpc] at hok ⊢
    exact hi.sendTurn hw hok.1 hok.2
  | ending error =>
    simp only [hpc] at hok ⊢
    exact hi.requireTerminal hw hok error
  | terminating frame =>
    simp only [hpc] at hok ⊢
    exact hi.terminalTurn hw hok frame look

/-- **Whoever moves, the permit is accounted for.** -/
theorem Inv.step (hi : Inv s) {a : ScanAction} (h : s.step config a = some s') : Inv s' := by
  cases a with
  | start i c request =>
    simp only [ScanServer.step] at h
    split at h
    · rename_i hidle
      split at h
      · cases h
        refine hi.put ?_ fun v hv => ?_
        · rw [holders, hidle]
          rfl
        · cases hv
          exact ⟨rfl, dispatchInner_bracketed request.method request.env⟩
      · cases h
    · cases h
  | turn i look =>
    obtain ⟨w, hw, rfl⟩ := Option.map_eq_some_iff.mp h
    exact hi.turn hw look
  | drain c =>
    cases h
    exact ⟨hi.leased, hi.workers⟩
  | hangup c =>
    cases h
    exact ⟨hi.leased, hi.workers⟩

/-! ## Waiting with the permit -/

/-- Where an extract comes to send a chunk from inside its section, and is
neither stopped nor disconnected, its connection's channel has room. -/
def ScanSendsFit (config : ScanConfig) (s : ScanServer) : ScanAction → Prop
  | .turn i look => ∀ w frame lifecycle next blocked, s.workers i = some w →
      w.pc = .sending frame lifecycle next blocked → w.request.method.streamsInScan = true →
      w.holds = true → requestCheck look = .ok () → s.isDisconnected w.connection = false →
      s.hasRoom config w.connection = true
  | _ => True

theorem Unblocked.put (h : s.Unblocked) {w' : Option ScanWorker}
    (hw : ∀ v, w' = some v → v.holds = true → v.pc.waitsForRoom = false) :
    (s.put i w').Unblocked := by
  intro j v hv hholds
  by_cases hji : j = i
  · subst hji
    rw [put_self] at hv
    exact hw v hv hholds
  · rw [put_of_ne s w' hji] at hv
    exact h j v hv hholds

theorem Unblocked.goto (h : s.Unblocked) (hpc : pc.waitsForRoom = false) :
    (s.goto i w pc).Unblocked := by
  refine h.put fun v hv _ => ?_
  cases hv
  exact hpc

theorem Unblocked.leave (h : s.Unblocked) : (s.put i none).Unblocked :=
  h.put fun _ hv => (by cases hv)

theorem Unblocked.dispatchTurn (h : s.Unblocked) (program : Gated Unit) :
    (s.dispatchTurn config i w program).Unblocked := by
  have hput : ∀ v : ScanWorker, v.pc.waitsForRoom = false → (s.put i (some v)).Unblocked := by
    intro v hpc
    refine h.put fun v' hv _ => ?_
    cases hv
    exact hpc
  cases program with
  | done result => cases result <;> exact h.goto rfl
  | panic => exact h.goto rfl
  | call request next =>
    cases request with
    | enter => exact h.goto rfl
    | exit => exact hput _ rfl
    | other frame =>
      rw [ScanServer.dispatchTurn]
      split
      · exact h.goto rfl
      · exact h.goto rfl

theorem Unblocked.acquireTurn (h : s.Unblocked) (next : Except ProtocolError Unit → Gated Unit)
    (look : Look) : (s.acquireTurn i w next look).Unblocked := by
  unfold ScanServer.acquireTurn
  split
  · exact h.goto rfl
  · split
    · exact h
    · refine Unblocked.put (s := s) h fun v hv _ => ?_
      cases hv
      rfl

theorem Unblocked.requireTerminal (h : s.Unblocked) (error : ProtocolError) :
    (s.requireTerminal config i w error).Unblocked := by
  unfold ScanServer.requireTerminal
  split
  · exact h.leave
  · split
    · exact h.goto rfl
    · exact Unblocked.leave (s := s.hangup w.connection) h

theorem Unblocked.terminalTurn (h : s.Unblocked) (frame : ResponseFrame) (look : Look) :
    (s.terminalTurn config i w frame look).Unblocked := by
  unfold ScanServer.terminalTurn
  split
  · exact h.leave
  · split
    · exact Unblocked.leave (s := s.enqueue w frame) h
    · split
      · exact Unblocked.leave (s := s.hangup w.connection) h
      · exact h

/-- **A turn of `send_frame`** leaves a worker waiting with the permit exactly
when it holds the permit and finds the channel full. -/
theorem Unblocked.sendTurn_iff (h : s.Unblocked) {frame : ResponseFrame}
    {lifecycle : OutputLifecycle} {next : Except ProtocolError Unit → Gated Unit} {look : Look} :
    (s.sendTurn config i w frame lifecycle next look).Unblocked ↔
      (w.holds = true → requestCheck look = .ok () → s.isDisconnected w.connection = false →
        s.hasRoom config w.connection = true) := by
  unfold ScanServer.sendTurn
  split
  · rename_i error hcheck
    refine iff_of_true (h.goto rfl) fun _ hok => ?_
    cases hcheck.symm.trans hok
  · rename_i hcheck
    split
    · rename_i hgone
      exact iff_of_true (h.goto rfl) fun _ _ hopen => absurd (hopen.symm.trans hgone) Bool.false_ne_true
    · rename_i hopen
      split
      · rename_i hroom
        refine iff_of_true ?_ fun _ _ _ => hroom
        refine Unblocked.put (s := s.enqueue w frame) h fun v hv _ => ?_
        cases hv
        rfl
      · rename_i hfull
        constructor
        · intro hunblocked hholds
          have hwaits := hunblocked i _ (put_self s i _) hholds
          cases hwaits
        · intro hroom
          refine h.put fun v hv hholds => ?_
          cases hv
          exact absurd (hroom hholds hcheck (Bool.not_eq_true _ ▸ hopen)) hfull

theorem Inv.sendsFit_iff (hi : Inv s) (h : s.Unblocked) {a : ScanAction}
    (hs : s.step config a = some s') : s.ScanSendsFit config a ↔ s'.Unblocked := by
  cases a with
  | start i c request =>
    simp only [ScanServer.step] at hs
    split at hs
    · split at hs
      · cases hs
        refine iff_of_true trivial (h.put fun v hv hholds => ?_)
        cases hv
        cases hholds
      · cases hs
    · cases hs
  | drain c =>
    cases hs
    exact iff_of_true trivial h
  | hangup c =>
    cases hs
    exact iff_of_true trivial h
  | turn i look =>
    obtain ⟨w, hw, rfl⟩ := Option.map_eq_some_iff.mp hs
    have hother : (∀ frame lifecycle next blocked, w.pc ≠ .sending frame lifecycle next blocked) →
        (s.turn config i w look).Unblocked →
        (s.ScanSendsFit config (.turn i look) ↔ (s.turn config i w look).Unblocked) := by
      intro hne hunblocked
      refine iff_of_true (fun v frame lifecycle next blocked hv hpc => ?_) hunblocked
      cases hw.symm.trans hv
      exact absurd hpc (hne frame lifecycle next blocked)
    unfold ScanServer.turn at hother ⊢
    cases hpc : w.pc with
    | sending frame lifecycle next blocked =>
      simp only
      rw [h.sendTurn_iff]
      have hok := hi.workers hw
      unfold ScanWorker.Ok at hok
      simp only [hpc] at hok
      constructor
      · intro hfit hholds
        -- a quiet worker would not send with the permit
        have hstreams : w.request.method.streamsInScan = true := by
          by_contra hnot
          have hstill : w.request.method.streamsInScan = false := Bool.not_eq_true _ ▸ hnot
          have hquiet : w.quiet = true := by
            rw [ScanWorker.quiet, hstill]
            rfl
          exact Bool.false_ne_true ((hok.1 hquiet).symm.trans hholds)
        exact hfit w frame lifecycle next blocked hw hpc hstreams hholds
      · intro hroom v frame' lifecycle' next' blocked' hv hpc' _ hholds
        cases hw.symm.trans hv
        exact hroom hholds
    | entering program =>
      simp only [hpc] at hother ⊢
      refine hother (by simp) ?_
      split
      · exact h.goto rfl
      · exact h.goto rfl
    | dispatching program =>
      simp only [hpc] at hother ⊢
      exact hother (by simp) (h.dispatchTurn program)
    | acquiring next =>
      simp only [hpc] at hother ⊢
      exact hother (by simp) (h.acquireTurn next look)
    | ending error =>
      simp only [hpc] at hother ⊢
      exact hother (by simp) (h.requireTerminal error)
    | terminating frame =>
      simp only [hpc] at hother ⊢
      exact hother (by simp) (h.terminalTurn frame look)

/-- **The scan permit.** In every state of a run at most one worker holds it,
the gate is held by nobody else, it is given back on every way out and no worker
waits for room with it, exactly when in every step of the run an extract that
comes to send a chunk from inside its section finds room in its channel. -/
theorem permit_safe_iff (config : ScanConfig) (acts : List ScanAction) :
    Runs.Always (ScanServer.step config) PermitSafe .init acts ↔
      Runs.Along (ScanServer.step config) (ScanSendsFit config) .init acts := by
  refine Runs.always_iff_along (I := Inv) (fun _ _ _ hi hs => hi.step hs) ?_ acts _ inv_init
    (inv_init.permitSafe_iff.mpr fun i w hw => (by cases hw))
  intro s a s' hi hsafe hs
  rw [(hi.step hs).permitSafe_iff]
  exact hi.sendsFit_iff hsafe.unblocked hs

/-! ## A client that does not read -/

/-- One worker, and channels for one frame. -/
def oneChunkConfig : ScanConfig where
  service := {
    ser := .whole
    limits := { maxSignals := 16, maxRows := 2000, maxResponseBytes := 1048576, maxCommands := 10 }
    runtime := { RuntimeConfig.default with workers := 1, outputChunks := 1 } }

/-- The changes of a clock. -/
def clockEvent (i : Nat) : TimeValue := ⟨"s", i, .integer (i % 2)⟩

def clockParams : Requests.ExtractParams where
  signals := ["s"]
  start := none
  end_ := none
  maxRows := none
  maxResponseBytes := none
  maxCommands := none
  timeoutMs := none

def clockEnv (n : Nat) : ExtractScanEnv where
  current := .ok 1
  width := fun _ => some 1
  acquire := .ok ()
  visit := ⟨(List.range n).map clockEvent, .ok ()⟩
  floatText := fun _ => ""
  elapsedMs := 2
  acquires := ok_acquires
  resolves := ok_resolves
  slotPanics := false
  panics := false

theorem clockEnv_items (n : Nat) : (clockEnv n).visit.items = (List.range n).map clockEvent := rfl

def clockRequest : ScanRequest := ⟨"q", .extract clockParams, clockEnv 1024⟩

def clockStream : StreamRequest where
  id := "q"
  frameLimit := 262144
  responseLimit := 1048576
  id_le := strBytes_q
  frame_ge := reserve_le
  frame_le := le_chunkBytes
  response_le := by decide

theorem clockRow_le {i : Nat} (h : i < 1024) :
    (timeValueRow (clockEnv 1024).toExtractEnv (clockEvent i)).size ≤ 100 := by
  have htime : Json.digits i ≤ 4 := (Json.digits_le_iff (by decide)).mpr (by omega)
  have hvalue : Json.digits (i % 2) ≤ 1 := (Json.digits_le_iff (by decide)).mpr (by omega)
  have hkeys : Json.bytes (Json.string "signal") = 8 ∧ Json.bytes (Json.string "time") = 6 ∧
      Json.bytes (Json.string "value") = 7 ∧ Json.bytes (Json.string "width") = 7 ∧
      Json.bytes (Json.string "kind") = 6 ∧ Json.bytes (Json.string "text") = 6 ∧
      Json.bytes (Json.string "integer") = 9 ∧ Json.bytes (Json.string "s") = 3 ∧
      Json.digits 1 = 1 := by decide
  show Json.size (.obj [("signal", .str "s"), ("time", .str (Nat.repr i)), ("value",
    .obj [("kind", .str "integer"), ("text", .str (Nat.repr (i % 2)))]),
    ("width", .str (Nat.repr 1))]) ≤ 100
  simp only [Json.size_obj_cons, Json.renderFields_cons, Json.renderFields_nil, Json.size_str,
    Json.string_repr_bytes, hkeys]
  omega

/-- The row that fills the buffer comes last. -/
def clockRows : List Json :=
  ((List.range 1023).map clockEvent ++ [clockEvent 1023]).map
    (timeValueRow (clockEnv 1024).toExtractEnv)

theorem clockChunk_le : encodedJsonLineBytes (.ofChunk "q" 1 clockRows) ≤ 200000 := by
  have hrow : ∀ row ∈ clockRows, row.size ≤ 100 := by
    intro row hrow
    obtain ⟨event, hevent, rfl⟩ := List.mem_map.mp hrow
    rcases List.mem_append.mp hevent with hevent | hevent
    · obtain ⟨i, hi, rfl⟩ := List.mem_map.mp hevent
      exact clockRow_le (Nat.lt_of_lt_of_le (List.mem_range.mp hi) (by decide))
    · rw [List.mem_singleton.mp hevent]
      exact clockRow_le (by decide)
  have hchunk := shortChunk_le hrow
  rw [clockRows, List.length_map, List.length_append, List.length_map, List.length_range,
    List.length_singleton] at hchunk
  exact Nat.le_trans hchunk (by decide)

theorem clock_accepts {output : OutputSink} {frame : ResponseFrame}
    (hcap : output.maxEncodedFrameBytes = clockStream.frameLimit)
    (hle : encodedJsonLineBytes frame ≤ 262144) :
    output.accept .whole frame = output.validateFrame frame :=
  accept_encodes (encodes_of_le .whole hcap hle)

theorem clock_affords {size : Nat} (h : size ≤ 200000) :
    ensureResponseBudget 82 size 1048576 = .ok () := by
  have hfits : ¬ 1048576 < saturatingAdd (saturatingAdd 82 size) terminalFrameReserveBytes := by
    unfold saturatingAdd terminalFrameReserveBytes
    omega
  unfold ensureResponseBudget
  simp only
  rw [if_neg hfits]

/-- The 1024th change fills the buffer while the begin frame fills the channel. -/
theorem clock_waits : ∃ s w, Runs.exec (ScanServer.step oneChunkConfig) .init
      (.start 0 0 clockRequest :: List.replicate 7 (.turn 0 {})) = some s ∧
    s.workers 0 = some w ∧ w.holds = true ∧ w.pc.waitsForRoom = true := by
  have hitems : (clockEnv 1024).visit.items =
      (List.range 1023).map clockEvent ++ clockEvent 1023 :: [] := by
    rw [clockEnv_items, List.range_succ (n := 1023), List.map_append, List.map_singleton]
  have hlen : ((List.range 1023).map clockEvent).length + 1 = chunkRows := by
    rw [List.length_map, List.length_range]
    rfl
  have hbegin : encodedJsonLineBytes (.ofBegin clockStream.id "time_value.v1"
      (Nat.repr (1 : UInt64).toNat)) = 82 := by decide +kernel
  have hchunk := clockChunk_le
  have hbudget : ensureResponseBudget 82 (encodedJsonLineBytes (.ofChunk "q" 1 clockRows))
      1048576 = .ok () := clock_affords hchunk
  obtain ⟨k1, k2, k3, hfirst, henter, hsecond⟩ := extract_calls oneChunkConfig.service
    clockStream clockParams.handled (clockEnv 1024) rfl rfl rfl rfl hitems
    hlen hbegin (by decide) rfl rfl (Nat.le_trans hchunk (by decide)) hbudget
  refine waits_with_permit (by decide) rfl hfirst henter hsecond (n := .streaming 1)
    (m := .streaming 2) ?_ ?_
  · refine (clock_accepts rfl ?_).trans rfl
    rw [hbegin]
    decide
  · exact (clock_accepts rfl (Nat.le_trans hchunk (by decide))).trans (validateFrame_chunk _ rfl)

/-- **An extract waits with the permit**: its channel is full, and no other scan
starts until its client reads. -/
theorem extract_waits_with_permit : ¬ ∀ (config : ScanConfig) (acts : List ScanAction),
    Runs.Always (ScanServer.step config) PermitSafe .init acts := by
  intro hall
  obtain ⟨s, w, hrun, hw, hholds, hwaits⟩ := clock_waits
  have hsafe := (Runs.always_iff_prefix _ _).mp (hall oneChunkConfig _) _ List.prefix_rfl s hrun
  have hunblocked := hsafe.unblocked 0 w hw hholds
  exact Bool.false_ne_true (hunblocked.symm.trans hwaits)

end ScanServer
end VcdTools.Server
