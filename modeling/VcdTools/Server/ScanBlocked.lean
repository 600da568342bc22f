import VcdTools.Server.ScanGate
import VcdTools.Server.StreamErrors

/-! # An extract inside its section

The first calls of an extract with enough rows: the begin frame, the permit,
the first full buffer. And a server in which one worker is at work: when its
channel has room for one frame, the second send waits with the permit. -/
namespace VcdTools.Server
open VcdTools.Query VcdTools.Lib Bracket

/-! ## The calls of an extract -/

/-- A group that fits into a frame and into the budget is one call. -/
theorem sendRows_calls (ser : Json.Serializer) (req : StreamRequest) (stream : StreamOutput)
    {rows : List Json} (hne : rows ≠ []) (hlimit : stream.frameLimit = req.frameLimit)
    (hle : encodedJsonLineBytes (.ofChunk stream.id stream.nextSeq rows) ≤ req.frameLimit)
    (hbudget : ensureResponseBudget stream.encodedBytes
      (encodedJsonLineBytes (.ofChunk stream.id stream.nextSeq rows)) stream.responseLimit =
        .ok ()) :
    ∃ next, stream.sendRows ser rows = .call (.ofChunk stream.id stream.nextSeq rows) next := by
  unfold StreamOutput.sendRows
  rw [dif_neg hne]
  unfold StreamOutput.sendRowsSplit
  simp only [hlimit, req.tryFrameBytes, if_pos hle, hbudget]
  exact ⟨_, rfl⟩

/-- Events that stay in the buffer are sent by nobody. -/
theorem extract_buffers (ser : Json.Serializer) (env : ExtractEnv) (events : List TimeValue) :
    ∀ (b : Buffered) (emitted : UInt64), b.rows.length + events.length < chunkRows →
      ∃ emitted', Proc.fold (extractVisitor ser env) (b, emitted) events =
        .done (.ok (⟨b.stream, b.rows ++ events.map (timeValueRow env)⟩, emitted')) := by
  induction events with
  | nil =>
    intro b emitted _
    refine ⟨emitted, ?_⟩
    rw [List.map_nil, List.append_nil]
    rfl
  | cons event events ih =>
    intro b emitted hroom
    rw [List.length_cons] at hroom
    have hlen : (b.rows ++ [timeValueRow env event]).length = b.rows.length + 1 := by simp
    have hvisit : extractVisitor ser env (b, emitted) event =
        .done (.ok (⟨b.stream, b.rows ++ [timeValueRow env event]⟩, emitted + 1)) := by
      unfold extractVisitor Buffered.push
      simp only
      rw [if_neg (by omega)]
      rfl
    obtain ⟨emitted', hrest⟩ := ih ⟨b.stream, b.rows ++ [timeValueRow env event]⟩ (emitted + 1)
      (by dsimp only; omega)
    refine ⟨emitted', ?_⟩
    rw [Proc.fold, hvisit, Proc.bind_ok, hrest, List.map_cons, List.append_assoc]
    rfl

/-- **The first three calls of an extract** whose visit fills the buffer: the
begin frame, the permit, and the chunk that the visitor sends with the permit. -/
theorem extract_calls (service : VcdService) (req : StreamRequest) (params : ExtractParams)
    (env : ExtractScanEnv) {limits : QueryLimits} {generation : UInt64} {events rest : List TimeValue}
    {event : TimeValue} {bytes chunkSize : Nat}
    (hframe : service.maxEncodedFrameBytes = req.frameLimit)
    (hlimits : queryLimits service.limits params.maxCommands params.maxRows
      params.maxResponseBytes = .ok (limits, req.responseLimit))
    (hcurrent : env.slot = some (.ok generation))
    (hwidths : (params.signals.find? fun signal => (env.width signal).isNone) = none)
    (hitems : env.visit.items = events ++ event :: rest)
    (hlen : events.length + 1 = chunkRows)
    (hbegin : encodedJsonLineBytes (.ofBegin req.id "time_value.v1"
      (Nat.repr generation.toNat)) = bytes)
    (hbytes : bytes ≤ req.frameLimit) (hstart : ensureResponseBudget 0 bytes req.responseLimit = .ok ())
    (hchunk : encodedJsonLineBytes (.ofChunk req.id 1
      ((events ++ [event]).map (timeValueRow env.toExtractEnv))) = chunkSize)
    (hsize : chunkSize ≤ req.frameLimit)
    (hbudget : ensureResponseBudget bytes chunkSize req.responseLimit = .ok ()) :
    ∃ k1 k2 k3, service.dispatchExtract req.id params env =
        .call (.other (.ofBegin req.id "time_value.v1" (Nat.repr generation.toNat))) k1 ∧
      k1 (.ok ()) = .call .enter k2 ∧
      k2 (.ok ()) = .call (.other (.ofChunk req.id 1
        ((events ++ [event]).map (timeValueRow env.toExtractEnv)))) k3 := by
  subst hbegin hchunk
  let stream : StreamOutput :=
    { id := req.id, nextSeq := 1
      encodedBytes := encodedJsonLineBytes (.ofBegin req.id "time_value.v1"
        (Nat.repr generation.toNat))
      rows := 0, responseLimit := req.responseLimit, frameLimit := req.frameLimit }
  let rows := events.map (timeValueRow env.toExtractEnv)
  have hrows : (events ++ [event]).map (timeValueRow env.toExtractEnv) =
      rows ++ [timeValueRow env.toExtractEnv event] := by
    rw [List.map_append, List.map_singleton]
  rw [hrows] at hsize hbudget ⊢
  -- nothing is sent until the buffer is full
  obtain ⟨emitted, hbuffered⟩ := extract_buffers service.ser env.toExtractEnv events
    ⟨stream, []⟩ 0 (by dsimp only [List.length_nil]; omega)
  obtain ⟨sent, hsend⟩ := sendRows_calls service.ser req stream (List.append_ne_nil_of_right_ne_nil
    rows (List.cons_ne_nil (timeValueRow env.toExtractEnv event) [])) rfl hsize hbudget
  have hfull : (rows ++ [timeValueRow env.toExtractEnv event]).length = chunkRows := by
    simp [rows, hlen]
  obtain ⟨pushed, hpush⟩ : ∃ next, Buffered.push service.ser ⟨stream, rows⟩
      (timeValueRow env.toExtractEnv event) =
        .call (.ofChunk req.id 1 (rows ++ [timeValueRow env.toExtractEnv event])) next := by
    unfold Buffered.push
    simp only
    rw [if_pos hfull, hsend]
    exact ⟨_, rfl⟩
  obtain ⟨visited, hscan⟩ : ∃ next, service.extractScan env stream =
      .call (.ofChunk req.id 1 (rows ++ [timeValueRow env.toExtractEnv event])) next := by
    unfold VcdService.extractScan Visit.run
    rw [hitems, Proc.fold_append, hbuffered, Proc.bind_ok, Proc.fold]
    show ∃ next, Proc.bind (Proc.mapError _ (Proc.bind (Proc.bind (Proc.bind
      (Buffered.push service.ser ⟨stream, rows⟩ _) _) _) _)) _ = _
    rw [hpush]
    exact ⟨_, rfl⟩
  unfold VcdService.dispatchExtract
  simp only [hlimits, hcurrent, hwidths, hframe, Proc.attempt, Proc.lift, Proc.bind_eq, Proc.bind_ok,
    begin_eq req _ _ hbytes hstart]
  refine ⟨_, _, ?next, rfl, rfl, ?sends⟩
  case sends =>
    show Proc.bind (exiting (embed (service.extractScan env stream))) _ = _
    rw [hscan]
    rfl

/-! ## One worker at work -/

namespace ScanServer

/-- Worker 0 serves connection `c`, and nothing else happens. -/
def alone (c : Nat) (held : Bool) (queue : List ResponseFrame) (w : ScanWorker) : ScanServer where
  held := held
  connections := Function.update (fun _ => ⟨[], false⟩) c ⟨queue, false⟩
  workers := Function.update (fun _ => none) 0 (some w)

variable {config : ScanConfig} {c : Nat} {held : Bool} {queue : List ResponseFrame} {w w' : ScanWorker}
  {k : Except ProtocolError Unit → Gated Unit} {frame : ResponseFrame}
  {lifecycle : OutputLifecycle}

theorem alone_workers : (alone c held queue w).workers 0 = some w := by
  show Function.update (fun _ : Nat => (none : Option ScanWorker)) 0 (some w) 0 = some w
  exact Function.update_self ..

theorem alone_connections : (alone c held queue w).connections c = ⟨queue, false⟩ := by
  show Function.update (fun _ : Nat => (⟨[], false⟩ : ScanConnection)) c ⟨queue, false⟩ c = _
  exact Function.update_self ..

theorem alone_put : (alone c held queue w).put 0 (some w') = alone c held queue w' := by
  show ScanServer.mk _ _ (Function.update (Function.update _ _ _) _ _) = _
  rw [Function.update_idem]
  rfl

theorem alone_start {request : ScanRequest} (hworkers : 0 < config.workers) :
    ScanServer.init.step config (.start 0 c request) =
      some (alone c false [] (job config c request)) := by
  have hconnections : ScanServer.init.connections =
      Function.update (fun _ => ⟨[], false⟩) c ⟨[], false⟩ := (Function.update_eq_self c _).symm
  have hput : ScanServer.init.put 0 (some (job config c request)) =
      alone c false [] (job config c request) := by
    rw [put, alone, hconnections]
    rfl
  rw [step, ← hput]
  exact if_pos hworkers

theorem alone_turn (look : Look) : (alone c held queue w).step config (.turn 0 look) =
    some ((alone c held queue w).turn config 0 w look) := by
  rw [step, alone_workers, Option.map_some]

theorem alone_hasRoom : (alone c held queue w).hasRoom config c =
    decide (queue.length < config.outputChunks) := by
  rw [hasRoom, alone_connections]

theorem alone_isDisconnected : (alone c held queue w).isDisconnected c = false := by
  rw [isDisconnected, alone_connections]

theorem alone_entering {program : Gated Unit} (hpc : w.pc = .entering program) :
    (alone c held queue w).step config (.turn 0 {}) =
      some (alone c held queue { w with pc := .dispatching program }) := by
  rw [alone_turn, turn, hpc]
  show some ((alone c held queue w).goto 0 w _) = _
  rw [goto, alone_put]

theorem alone_other (hpc : w.pc = .dispatching (.call (.other frame) k))
    (haccept : w.output.accept config.service.ser frame = .ok lifecycle) :
    (alone c held queue w).step config (.turn 0 {}) =
      some (alone c held queue { w with pc := .sending frame lifecycle k false }) := by
  rw [alone_turn, turn, hpc]
  simp only [dispatchTurn, haccept, goto, alone_put]

theorem alone_enter (hpc : w.pc = .dispatching (.call .enter k)) :
    (alone c held queue w).step config (.turn 0 {}) =
      some (alone c held queue { w with pc := .acquiring k }) := by
  rw [alone_turn, turn, hpc]
  simp only [dispatchTurn, goto, alone_put]

theorem alone_acquire (hpc : w.pc = .acquiring k) :
    (alone c false queue w).step config (.turn 0 {}) =
      some (alone c true queue { w with holds := true, pc := .dispatching (k (.ok ())) }) := by
  rw [alone_turn, turn, hpc]
  show some ((alone c false queue w).take 0 w _) = _
  rw [take, alone_put]
  rfl

theorem alone_sends (hc : w.connection = c) {blocked : Bool}
    (hpc : w.pc = .sending frame lifecycle k blocked) (hroom : queue.length < config.outputChunks) :
    (alone c held queue w).step config (.turn 0 {}) =
      some (alone c held (queue ++ [frame]) { w with
        output := w.output.push frame lifecycle, pc := .dispatching (k (.ok ())) }) := by
  subst hc
  have henqueue : (alone w.connection held queue w).enqueue w frame =
      alone w.connection held (queue ++ [frame]) w := by
    simp only [enqueue, connect, alone_connections]
    show ScanServer.mk _ (Function.update (Function.update _ _ _) _ _) _ = _
    rw [Function.update_idem]
    rfl
  rw [alone_turn, turn, hpc]
  show some (sendTurn config _ 0 w frame lifecycle k {}) = _
  have hcheck : requestCheck {} = .ok () := rfl
  rw [sendTurn, hcheck, alone_isDisconnected, alone_hasRoom, decide_eq_true hroom]
  simp only [Bool.false_eq_true, if_false, if_true, henqueue, alone_put]

theorem alone_waits (hc : w.connection = c) {blocked : Bool}
    (hpc : w.pc = .sending frame lifecycle k blocked) (hfull : config.outputChunks ≤ queue.length) :
    (alone c held queue w).step config (.turn 0 {}) =
      some (alone c held queue { w with pc := .sending frame lifecycle k true }) := by
  subst hc
  rw [alone_turn, turn, hpc]
  show some (sendTurn config _ 0 w frame lifecycle k {}) = _
  have hcheck : requestCheck {} = .ok () := rfl
  rw [sendTurn, hcheck, alone_isDisconnected, alone_hasRoom, decide_eq_false (Nat.not_lt.mpr hfull)]
  simp only [Bool.false_eq_true, if_false, goto, alone_put]

/-- A worker whose program sends a frame, takes the permit and sends another one
waits with the permit, when the channel has room for one frame. -/
theorem waits_with_permit {request : ScanRequest} {first second : ResponseFrame}
    {k1 k2 k3 : Except ProtocolError Unit → Gated Unit} {n m : OutputLifecycle}
    (hworkers : 0 < config.workers) (hroom : config.outputChunks = 1)
    (hfirst : config.service.dispatchInner request.id request.method request.env =
      .call (.other first) k1)
    (henter : k1 (.ok ()) = .call .enter k2) (hsecond : k2 (.ok ()) = .call (.other second) k3)
    (haccept : (job config c request).output.accept config.service.ser first = .ok n)
    (haccept' : ((job config c request).output.push first n).accept config.service.ser second =
      .ok m) :
    ∃ s w, Runs.exec (ScanServer.step config) .init
        (.start 0 c request :: List.replicate 7 (.turn 0 {})) = some s ∧
      s.workers 0 = some w ∧ w.holds = true ∧ w.pc.waitsForRoom = true := by
  let start := job config c request
  let calling : ScanWorker := { start with pc := .dispatching (.call (.other first) k1) }
  let sending : ScanWorker := { start with pc := .sending first n k1 false }
  let sent : ScanWorker := { start with
    output := start.output.push first n, pc := .dispatching (.call .enter k2) }
  let acquiring : ScanWorker := { sent with pc := .acquiring k2 }
  let inside : ScanWorker := { sent with
    holds := true, pc := .dispatching (.call (.other second) k3) }
  let offering : ScanWorker := { inside with pc := .sending second m k3 false }
  let waiting : ScanWorker := { inside with pc := .sending second m k3 true }
  have hfree : ([] : List ResponseFrame).length < config.outputChunks := by
    rw [hroom]
    exact Nat.one_pos
  have hfull : config.outputChunks ≤ [first].length := by
    rw [hroom]
    exact Nat.le_refl 1
  have hcalling : (alone c false [] start).step config (.turn 0 {}) =
      some (alone c false [] calling) := by
    rw [alone_entering (w := start) rfl, hfirst]
  have hsending : (alone c false [] calling).step config (.turn 0 {}) =
      some (alone c false [] sending) := alone_other rfl haccept
  have hsent : (alone c false [] sending).step config (.turn 0 {}) =
      some (alone c false [first] sent) := by
    rw [alone_sends (c := c) (w := sending) rfl rfl hfree, henter]
    rfl
  have hacquiring : (alone c false [first] sent).step config (.turn 0 {}) =
      some (alone c false [first] acquiring) := alone_enter rfl
  have hinside : (alone c false [first] acquiring).step config (.turn 0 {}) =
      some (alone c true [first] inside) := by
    rw [alone_acquire (w := acquiring) rfl, hsecond]
  have hoffering : (alone c true [first] inside).step config (.turn 0 {}) =
      some (alone c true [first] offering) := alone_other rfl haccept'
  have hwaiting : (alone c true [first] offering).step config (.turn 0 {}) =
      some (alone c true [first] waiting) := alone_waits rfl rfl hfull
  refine ⟨alone c true [first] waiting, waiting, ?_, alone_workers, rfl, rfl⟩
  simp only [List.replicate, Runs.exec_cons, alone_start hworkers, Option.bind_some]
  rw [hcalling, Option.bind_some, hsending, Option.bind_some, hsent, Option.bind_some,
    hacquiring, Option.bind_some, hinside, Option.bind_some, hoffering, Option.bind_some,
    hwaiting, Option.bind_some]
  rfl

end ScanServer
end VcdTools.Server
