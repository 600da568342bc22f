import VcdTools.Server.DispatchInner
import VcdTools.Server.OutputLifecycle
import VcdTools.Server.RequestMethods
import VcdTools.Server.StreamPackaging

/-! # The answer of a method

`list` and `extract` answer with a stream under the schema of their own, the
other methods with one frame; and no answer is larger than what `describe`
advertises, whatever comes in between. -/
namespace VcdTools.Server
open VcdTools.Query VcdTools.Lib Bracket Requests

variable {ser : Json.Serializer}

/-- The schema of a method's stream; `none` for a method with a single frame. -/
def Requests.RequestMethod.schema : RequestMethod → Option String
  | .list _ => some "signal_name.v1"
  | .extract _ => some "time_value.v1"
  | _ => none

/-- The frames that a method's handler sends. -/
def Requests.RequestMethod.Says (method : RequestMethod) (responseBytes : Nat) :
    ResponseFrame → Prop
  | .result f => method.schema = none ∧ encodedJsonLineBytes (.result f) ≤ responseBytes
  | .begin f => method.schema = some f.schema
  | .chunk _ | .end_ _ | .error _ => True

/-! ## What the handlers send -/

section Asks
variable {K : ResponseFrame → Prop} {frameLimit : Nat}

theorem sendFrame_only {frame : ResponseFrame} (h : K frame) : (sendFrame frame).Asks K :=
  .call h (fun error => ⟨error, rfl⟩) fun _ => .done

theorem frameBytes_ok (hpos : 0 < frameLimit) (hmax : frameLimit ≤ u64Max) {frame : ResponseFrame}
    {bytes : Nat} (h : frameBytes ser frame frameLimit = .ok bytes) :
    bytes = encodedJsonLineBytes frame := by
  unfold frameBytes at h
  rw [tryFrameBytes_eq hpos hmax] at h
  split at h <;> cases h
  rfl

theorem sendUnary_only (hpos : 0 < frameLimit) (hmax : frameLimit ≤ u64Max) {id : String}
    {result : Json} {responseLimit : Nat}
    (h : encodedJsonLineBytes (.ofResult id result) ≤ responseLimit → K (.ofResult id result)) :
    (sendUnary ser id result responseLimit frameLimit).Asks K := by
  unfold sendUnary
  simp only [Proc.bind_eq]
  refine Proc.asks_lift_bind fun bytes hbytes => ?_
  have hsize := frameBytes_ok hpos hmax hbytes
  split
  · exact .done
  · exact sendFrame_only (h (by omega))

theorem begin_only {id schema : String} {generation responseLimit : Nat}
    (h : K (.ofBegin id schema (Nat.repr generation))) :
    (StreamOutput.begin ser id schema generation responseLimit frameLimit).Asks K := by
  unfold StreamOutput.begin
  simp only [Proc.bind_eq]
  refine Proc.asks_lift_bind fun bytes _ => Proc.asks_lift_bind fun _ _ => ?_
  exact (sendFrame_only h).bind fun _ => .done

variable (hchunk : ∀ f, K (.chunk f)) (hend : ∀ f, K (.end_ f))
include hchunk

theorem sendRowsSplit_only (stream : StreamOutput) {rows : List Json} (hne : rows ≠ []) :
    (stream.sendRowsSplit ser rows hne).Asks K := by
  induction hlen : rows.length using Nat.strong_induction_on generalizing rows stream with
  | _ len ih =>
    subst hlen
    unfold StreamOutput.sendRowsSplit
    simp only
    split
    · exact .done
    · split
      · exact .done
      · have hpos := List.length_pos_of_ne_nil hne
        have hfirst : (rows.take (rows.length / 2)).length < rows.length := by
          rw [List.length_take]
          omega
        have hsecond : (rows.drop (rows.length / 2)).length < rows.length := by
          rw [List.length_drop]
          omega
        exact (ih _ hfirst stream _ rfl).bind fun stream => ih _ hsecond stream _ rfl
    · simp only [Proc.bind_eq]
      refine Proc.asks_lift_bind fun _ _ => ?_
      exact (sendFrame_only (hchunk _)).bind fun _ => .done

theorem sendRows_only (stream : StreamOutput) (rows : List Json) :
    (stream.sendRows ser rows).Asks K := by
  unfold StreamOutput.sendRows
  split
  · exact .done
  · exact sendRowsSplit_only hchunk stream _

theorem push_only (b : Buffered) (row : Json) : (b.push ser row).Asks K := by
  unfold Buffered.push
  simp only
  split
  · exact ((sendRows_only hchunk _ _).mapError _).bind fun _ => .done
  · exact .done

theorem flush_only (b : Buffered) : (b.flush ser).Asks K := by
  unfold Buffered.flush
  split
  · exact .done
  · exact sendRows_only hchunk _ _

omit hchunk in
include hend in
theorem finish_only (stream : StreamOutput) (elapsedMs commands : Nat) :
    (stream.finish ser elapsedMs commands).Asks K := by
  unfold StreamOutput.finish
  simp only [Proc.bind_eq]
  refine Proc.asks_lift_bind fun frame hframe => Proc.asks_lift_bind fun bytes _ => ?_
  split
  · exact .done
  · cases hsuccess : ResponseFrame.endSuccess stream.id stream.nextSeq
        (stream.stats elapsedMs commands) stream.encodedBytes with
    | none =>
      rw [hsuccess] at hframe
      cases hframe
    | some f =>
      rw [hsuccess] at hframe
      cases hframe
      obtain ⟨total, rfl⟩ := endSuccess_frame hsuccess
      exact sendFrame_only (hend _)

omit hchunk in
theorem visit_only {σ ρ : Type} {v : Visit ρ} {visitor : σ → ρ → Visiting σ} {s : σ}
    (h : ∀ s item, (visitor s item).Asks K) : (v.run visitor s).Asks K :=
  (Proc.asks_fold h v.items s).bind fun _ =>
    Proc.asks_lift_bind fun _ _ => .done

end Asks

theorem lowerLimit_le {kind : String} {requested : Option Nat} {configured value : Nat}
    (h : lowerLimit kind requested configured = .ok value) : value ≤ configured := by
  unfold lowerLimit at h
  simp only at h
  split at h <;> cases h
  omega

theorem queryLimits_response {config : ServiceConfig} {commands rows response : Option Nat}
    {limits : QueryLimits} {responseLimit : Nat}
    (h : queryLimits config commands rows response = .ok (limits, responseLimit)) :
    responseLimit ≤ config.maxResponseBytes := by
  unfold queryLimits at h
  simp only [Fallible.bind_ok_iff] at h
  obtain ⟨commands, -, rows, -, lowered, hlowered, h⟩ := h
  split at h <;> cases h
  exact lowerLimit_le hlowered

section Handlers
variable {K : ResponseFrame → Prop} {config : ServiceConfig} {frameLimit : Nat} {id : String}
  (hchunk : ∀ f, K (.chunk f)) (hend : ∀ f, K (.end_ f))
include hchunk

theorem listVisitor_only (params : Server.ListParams) (maxRows : Nat) (b : Buffered)
    (name : String) : (listVisitor ser params maxRows b name).Asks K := by
  unfold listVisitor
  split
  · split
    · exact .done
    · exact push_only hchunk b _
  · exact .done

theorem extractVisitor_only (env : ExtractEnv) (s : Buffered × UInt64) (event : TimeValue) :
    (extractVisitor ser env s event).Asks K :=
  (push_only hchunk s.1 _).bind fun _ => .done

include hend

theorem listRequest_only {params : Server.ListParams} {env : ListEnv}
    (hbegin : ∀ generation, K (.ofBegin id "signal_name.v1" generation)) :
    (listRequest ser config frameLimit id params env).Asks K := by
  unfold listRequest
  simp only [Proc.bind_eq]
  refine Proc.asks_lift_bind fun limited _ => Proc.asks_lift_bind fun generation _ => ?_
  refine (begin_only (hbegin _)).bind fun stream => ?_
  refine ((visit_only fun b name => listVisitor_only hchunk params _ b name).mapError _).bind
    fun b => ?_
  refine (flush_only hchunk b).bind fun stream => ?_
  refine Proc.asks_lift_bind fun _ _ => Proc.asks_lift_bind fun _ _ => ?_
  exact finish_only hend stream _ _

end Handlers

section Dispatch
variable {service : VcdService} {id : String} {grant : Except ProtocolError Unit}
  (hpos : 0 < service.maxEncodedFrameBytes) (hmax : service.maxEncodedFrameBytes ≤ u64Max)
include hpos hmax

theorem unary_only {K : ResponseFrame → Prop} {result : Json} {responseLimit : Nat}
    (h : encodedJsonLineBytes (.ofResult id result) ≤ responseLimit → K (.ofResult id result)) :
    (unbracket grant (service.unary id result responseLimit)).Asks K :=
  asks_unbracket_embed (sendUnary_only hpos hmax h)

omit hpos hmax in
theorem scanned_only {K : ResponseFrame → Prop} {ρ : Type} (scan : Option (Except QueryError ρ)) :
    (unbracket grant (withExpensiveScan (scanned scan))).Asks K := by
  refine asks_unbracket_bracket ?_
  cases scan with
  | none => exact .panic
  | some result => cases result <;> exact .done

omit hpos hmax in
theorem dispatchExtract_only {K : ResponseFrame → Prop} (hchunk : ∀ f, K (.chunk f))
    (hend : ∀ f, K (.end_ f)) (hbegin : ∀ generation, K (.ofBegin id "time_value.v1" generation))
    (params : Server.ExtractParams) (env : ExtractScanEnv) :
    (unbracket grant (service.dispatchExtract id params env)).Asks K := by
  unfold VcdService.dispatchExtract
  refine asks_unbracket_lift_bind fun limited _ => asks_unbracket_attempt_bind fun generation => ?_
  dsimp only
  split
  · exact .done
  · refine asks_unbracket_bind (asks_unbracket_embed (begin_only (hbegin _))) fun stream => ?_
    refine asks_unbracket_bind (asks_unbracket_bracket (asks_unbracket_embed ?_))
      fun visited => ?_
    · refine ((visit_only fun s event => extractVisitor_only hchunk _ s event).mapError _).bind
        fun visited => ?_
      split
      · exact .panic
      · exact .done
    · refine asks_unbracket_bind (asks_unbracket_embed (flush_only hchunk _)) fun stream => ?_
      exact asks_unbracket_embed (finish_only hend stream _ _)

variable (service) in
/-- **A handler sends the frames of its method**, a result within the budget. -/
theorem dispatchInner_only (method : RequestMethod) (env : method.Env) :
    (unbracket grant (service.dispatchInner id method env)).Asks
      (method.Says service.limits.maxResponseBytes) := by
  cases method with
  | ping => exact asks_unbracket_attempt_bind fun _ => unary_only hpos hmax fun h => ⟨rfl, h⟩
  | describe =>
    refine asks_unbracket_attempt_bind fun _ => asks_unbracket_lift_bind fun _ _ => ?_
    exact unary_only hpos hmax fun h => ⟨rfl, h⟩
  | list params =>
    change (unbracket grant (service.dispatchList id params.handled env)).Asks _
    unfold VcdService.dispatchList
    split
    · exact asks_unbracket_lift_bind fun _ _ => .panic
    · exact asks_unbracket_embed
        (listRequest_only (fun _ => trivial) (fun _ => trivial) fun _ => rfl)
  | metadata params =>
    refine asks_unbracket_lift_bind fun limited hlimited => ?_
    refine asks_unbracket_attempt_bind fun _ => ?_
    refine asks_unbracket_bind (scanned_only _) fun metadata => ?_
    refine asks_unbracket_lift_bind fun _ _ => asks_unbracket_lift_bind fun _ _ => ?_
    refine asks_unbracket_lift_bind fun _ _ => ?_
    exact unary_only hpos hmax fun h => ⟨rfl, h.trans (queryLimits_response hlimited)⟩
  | extract params =>
    exact dispatchExtract_only (fun _ => trivial) (fun _ => trivial) (fun _ => rfl) params.handled env
  | find params =>
    refine asks_unbracket_lift_bind fun limited hlimited => ?_
    refine asks_unbracket_attempt_bind fun _ => ?_
    refine asks_unbracket_bind (scanned_only _) fun found => ?_
    exact unary_only hpos hmax fun h => ⟨rfl, h.trans (queryLimits_response hlimited)⟩
  | toggles params =>
    refine asks_unbracket_lift_bind fun limited hlimited => ?_
    refine asks_unbracket_attempt_bind fun _ => ?_
    refine asks_unbracket_bind (scanned_only _) fun counts => ?_
    exact unary_only hpos hmax fun h => ⟨rfl, h.trans (queryLimits_response hlimited)⟩
  | cancel params => exact .done

end Dispatch

/-! ## What a job puts on its channel -/

/-- The frames of a job, each of `K` and within the limit of its sink. -/
structure Framed (K : ResponseFrame → Prop) (frameLimit : Nat) (output : OutputSink) : Prop where
  cap : output.maxEncodedFrameBytes = frameLimit
  frames : ∀ f ∈ output.enqueued, K f ∧ encodedJsonLineBytes f ≤ frameLimit

section Framed
variable {K : ResponseFrame → Prop} {frameLimit : Nat} {output : OutputSink} {frame : ResponseFrame}
  (hpos : 0 < frameLimit) (hmax : frameLimit ≤ u64Max)
include hpos hmax

theorem Framed.push (h : Framed K frameLimit output) (hframe : K frame) {line : List Char}
    (hline : output.encodeBounded ser frame = .ok line) (next : OutputLifecycle) :
    Framed K frameLimit (output.push frame next) := by
  have hcap := h.cap
  subst hcap
  refine ⟨rfl, fun f hf => ?_⟩
  rcases List.mem_append.mp hf with hf | hf
  · exact h.frames f hf
  · cases List.mem_singleton.mp hf
    exact ⟨hframe, ((encodeBounded_iff hpos hmax).mp hline).1⟩

theorem Framed.sent (h : Framed K frameLimit output) (hframe : K frame)
    {answer : Except ProtocolError Unit} {output' : OutputSink}
    (hs : SendFrame ser output frame answer output') : Framed K frameLimit output' := by
  cases hs with
  | rejected _ | refused _ _ => exact h
  | enqueued ha =>
    obtain ⟨line, hline⟩ := (OutputSink.accept_ok ha).2
    exact h.push hpos hmax hframe hline _

/-- The worker's own frames are of `K`, too. -/
theorem framed_of_asks {program : Dispatch Unit} (hasks : program.Asks K)
    (herror : ∀ f, K (.error f)) (hend : ∀ f, K (.end_ f)) {id : String} {disconnected : Bool}
    {looks : List Look} {job : Job}
    (h : Runs.exec (Job.step ser) (.start id frameLimit disconnected program) looks = some job) :
    Framed K frameLimit job.output := by
  have hstart : Framed K frameLimit (Job.start id frameLimit disconnected program).output :=
    ⟨rfl, fun f hf => (by cases hf)⟩
  have hserve : ∀ output frame answer output', Framed K frameLimit output → K frame →
      SendFrame ser output frame answer output' → Framed K frameLimit output' :=
    fun _ _ _ _ hi hk hs => hi.sent hpos hmax hk hs
  have hmeets := hasks.meets hserve hstart
  cases follows_of_guarantees hmeets h with
  | entering _ hp | dispatching hp => exact hp.inv
  | sending hi _ _ | ending hi _ | terminating hi _ _ _ | silent hi _ => exact hi
  | @terminated output _ error frame line hi _ hframe hline =>
    refine hi.push hpos hmax ?_ hline _
    unfold OutputSink.terminalFrame at hframe
    split at hframe <;> cases hframe
    · exact herror _
    · exact hend _

end Framed

/-! ## A request of a configured server -/

/-- A server whose configurations were both accepted. -/
structure Configured where
  ser : Json.Serializer
  runtime : RuntimeConfig
  limits : ServiceConfig
  runtime_ok : ∃ checkedAdd, runtime.validate checkedAdd = .ok ()
  limits_ok : limits.validate = .ok ()

/-- A request as a worker takes it, with what its handler reads; `acquire` is
what its wait for the scan permit comes to. -/
structure Incoming where
  request : Request
  valid : request.Valid
  env : request.method.Env
  acquire : Except QueryError Unit
  acquires : ∀ error, acquire = .error error → error = .cancelled ∨ error = .deadlineExceeded

namespace Configured
variable (server : Configured)

def service : VcdService := ⟨server.ser, server.runtime, server.limits⟩

def start (incoming : Incoming) (disconnected : Bool) : Job :=
  .start incoming.request.id server.runtime.maxEncodedFrameBytes disconnected
    (unbracket (incoming.acquire.mapError protocolErrorFromQuery)
      (server.service.dispatchInner incoming.request.id incoming.request.method incoming.env))

/-- The limits that `describe` answers with. -/
def advertised : ServerLimits := serverLimits server.runtime server.limits

theorem frameBytes_le : terminalFrameReserveBytes ≤ server.runtime.maxEncodedFrameBytes ∧
    server.runtime.maxEncodedFrameBytes ≤ chunkBytes :=
  RuntimeConfig.validate_frameBytes server.runtime_ok.choose_spec

theorem frameBytes_pos : 0 < server.runtime.maxEncodedFrameBytes :=
  Nat.lt_of_lt_of_le (by decide) server.frameBytes_le.1

theorem frameBytes_u64 : server.runtime.maxEncodedFrameBytes ≤ u64Max :=
  Nat.le_trans server.frameBytes_le.2 (by decide)

/-- The response limit that a request for a stream is handled with. -/
def responseLimit (commands rows response : Option Nat) : Nat :=
  match queryLimits server.limits commands rows response with
  | .ok (_, limit) => limit
  | .error _ => 0

theorem responseLimit_eq {commands rows response : Option Nat} {limits : QueryLimits} {limit : Nat}
    (h : queryLimits server.limits commands rows response = .ok (limits, limit)) :
    limit = server.responseLimit commands rows response := by
  unfold responseLimit
  rw [h]

theorem responseLimit_le (commands rows response : Option Nat) :
    server.responseLimit commands rows response ≤ server.limits.maxResponseBytes := by
  unfold responseLimit
  split
  · exact queryLimits_response ‹_›
  · exact Nat.zero_le _

def streamRequest {id : String} (hid : IdOk id) (commands rows response : Option Nat) :
    StreamRequest where
  id := id
  frameLimit := server.runtime.maxEncodedFrameBytes
  responseLimit := server.responseLimit commands rows response
  id_le := hid.2
  frame_ge := server.frameBytes_le.1
  frame_le := server.frameBytes_le.2
  response_le := ((server.responseLimit_le commands rows response).trans
    (ServiceConfig.validate_bytes server.limits_ok).2).trans (by decide)

end Configured

/-! ## A stream that panics -/

/-- A list request whose look for the generation panics sends nothing. -/
theorem list_panics {ser : Json.Serializer} {req : StreamRequest} {rows : List Json}
    {output : OutputSink} (h : Fresh req output) {α : Type} (limited : Except ProtocolError α) :
    Guarantees ser (Packaged req rows) (InOrder ser) (Ended rows False) (fun _ => True)
      ((Proc.lift limited).bind fun _ => .panic) output :=
  Proc.meets_lift_bind h.packaged (fun _ _ => .panic h.packaged trivial) fun _ _ =>
    .inl h.lifecycle

/-- A panic breaks nothing of the stream up to there. -/
theorem extract_panics (service : VcdService) {acquire : Except QueryError Unit}
    {req : StreamRequest} {output : OutputSink} {params : Server.ExtractParams}
    {env : ExtractScanEnv} (hpanics : env.slotPanics = true ∨ env.panics = true)
    (hframe : service.maxEncodedFrameBytes = req.frameLimit)
    (hlimits : ∀ limits response,
      queryLimits service.limits params.maxCommands params.maxRows params.maxResponseBytes =
        .ok (limits, response) → response = req.responseLimit)
    (hacquires : ∀ error, acquire = .error error → error = .cancelled ∨ error = .deadlineExceeded)
    (h : Fresh req output) :
    Guarantees service.ser (Packaged req env.rows) (InOrder service.ser) (Ended env.rows False)
      (fun _ => True)
      (unbracket (acquire.mapError protocolErrorFromQuery)
        (service.dispatchExtract req.id params env)) output := by
  unfold VcdService.dispatchExtract
  simp only [Proc.bind_eq, unbracket_lift_bind]
  refine Proc.meets_lift_bind h.packaged (fun limited hl => ?_) fun _ _ => .inl h.lifecycle
  obtain ⟨limits, response⟩ := limited
  cases hlimits limits response hl
  by_cases hslot : env.slotPanics = true
  · rw [ExtractScanEnv.slot, if_pos hslot]
    exact .panic h.packaged trivial
  have hpanics : env.panics = true := hpanics.resolve_left hslot
  rw [ExtractScanEnv.slot, if_neg hslot, Proc.attempt, unbracket_lift_bind]
  refine Proc.meets_lift_bind h.packaged (fun generation _ => ?_) fun _ _ => .inl h.lifecycle
  simp only
  cases hfind : params.signals.find? fun signal => (env.width signal).isNone with
  | some missing => exact Proc.meets_fail h.packaged (.inl h.lifecycle)
  | none =>
    simp only [unbracket_bind, unbracket_embed, withExpensiveScan, unbracket_bracket, hframe,
      Proc.bind_assoc]
    refine Proc.meets_bind (((h.begun generation (.inr rfl)).loud).mono fun result output' _ hq => ?_)
    cases result with
    | error e => exact .inl hq
    | ok stream =>
      refine Proc.meets_lift_bind hq.synced.packaged (fun _ _ => ?_) fun e he =>
        hq.synced.failed (fun e he => ?_) (fun hs => hs.elim) he
      · unfold VcdService.extractScan
        rw [Proc.bind_assoc]
        refine Proc.meets_bind ((visit_meets (s := (Buffered.mk stream [], 0)) Prod.fst
          (fun events => events.map (timeValueRow env.toExtractEnv)) False rfl env.resolves
          (fun hs => hs.elim) (fun _ _ _ _ hp => extractVisitor_meets hp) hq).loud.mono
          fun result output'' hi hv => ?_)
        cases result with
        | error e => exact hv
        | ok s =>
          simp only [hpanics, if_true]
          exact .panic hi trivial
      · rcases hacquires e he with rfl | rfl <;> rfl

/-! ## What is advertised -/

/-- A number within a limit that is given as a text. -/
def Within (limit : String) (n : Nat) : Prop := ∃ m, limit = Nat.repr m ∧ n ≤ m

/-- The frames of a request so far, as its method and the limits have them. -/
structure Answer (id : String) (method : RequestMethod) (limits : ServerLimits)
    (frames : List ResponseFrame) : Prop where
  response : ∃ rest, Response id (frames ++ rest)
  single : ∀ f, .result f ∈ frames →
    method.schema = none ∧ Within limits.responseBytes (encodedJsonLineBytes (.result f))
  stream : ∀ f, .begin f ∈ frames →
    method.schema = some f.schema ∧ Within limits.responseBytes (totalBytes frames)
  frameBytes : ∀ f ∈ frames, Within limits.chunkBytes (encodedJsonLineBytes f)
  rows : ∀ f, .chunk f ∈ frames → Within limits.chunkRows f.rows.length

/-- A chunk is spoken in a stream only. -/
theorem Spoken.begun {id : String} {fs : List ResponseFrame} {lifecycle : OutputLifecycle}
    (h : Spoken id fs lifecycle) {f : ChunkFrame} (hf : .chunk f ∈ fs) : ∃ b, .begin b ∈ fs := by
  cases h with
  | silent | result _ _ | error _ _ | begin _ _ => simp at hf
  | chunk hopen _ _ | end_ hopen _ _ =>
    obtain ⟨b, cs, rfl, -⟩ := hopen.streaming
    exact ⟨b, by simp⟩

section Run
variable {server : Configured} {incoming : Incoming} {disconnected : Bool} {looks : List Look}
  {job : Job}

/-- A list is delivered within the response limit of the server. -/
theorem list_delivers {id : String} (hid : IdOk id) {params : Server.ListParams}
    {env : ListScanEnv} {grant : Except ProtocolError Unit}
    (h : Runs.exec (Job.step server.ser)
      (.start id server.runtime.maxEncodedFrameBytes disconnected
        (unbracket grant (server.service.dispatchList id params env))) looks = some job) :
    ∃ req rows, req.responseLimit ≤ server.limits.maxResponseBytes ∧
      Delivered req rows job.output.enqueued := by
  let req := server.streamRequest hid none params.maxRows params.maxResponseBytes
  have hfresh : Fresh req (Job.start id req.frameLimit disconnected (.done (.ok ()))).output :=
    ⟨rfl, rfl, rfl, rfl⟩
  unfold VcdService.dispatchList at h
  split at h
  · rw [Proc.bind_eq, unbracket_lift_bind] at h
    exact ⟨req, [], server.responseLimit_le _ _ _,
      (delivered_of_follows (follows_of_guarantees (list_panics hfresh _) h)).1⟩
  · rw [unbracket_embed] at h
    have hmeets : Guarantees server.ser (Packaged req (ListEnv.rows env.toListEnv params))
        (InOrder server.ser)
        (Ended (ListEnv.rows env.toListEnv params) (ListEnv.Settled env.toListEnv))
        (fun _ => False)
        (listRequest server.ser server.limits req.frameLimit req.id params env.toListEnv) _ :=
      listRequest_meets (fun _ _ hl => server.responseLimit_eq hl) hfresh
    exact ⟨req, _, server.responseLimit_le _ _ _,
      (delivered_of_follows (follows_of_guarantees hmeets h)).1⟩

/-- An extraction is, whether its scan panics or not. -/
theorem extract_delivers {id : String} (hid : IdOk id) {params : Server.ExtractParams}
    {env : ExtractScanEnv} {acquire : Except QueryError Unit}
    (acquires : ∀ error, acquire = .error error → error = .cancelled ∨ error = .deadlineExceeded)
    (h : Runs.exec (Job.step server.ser)
      (.start id server.runtime.maxEncodedFrameBytes disconnected
        (unbracket (acquire.mapError protocolErrorFromQuery)
          (server.service.dispatchExtract id params env))) looks = some job) :
    ∃ req rows, req.responseLimit ≤ server.limits.maxResponseBytes ∧
      Delivered req rows job.output.enqueued := by
  let req := server.streamRequest hid params.maxCommands params.maxRows params.maxResponseBytes
  have hfresh : Fresh req (Job.start id req.frameLimit disconnected (.done (.ok ()))).output :=
    ⟨rfl, rfl, rfl, rfl⟩
  by_cases hpanics : env.slotPanics = true ∨ env.panics = true
  · have hmeets := extract_panics server.service hpanics rfl
      (fun _ _ hl => server.responseLimit_eq hl) acquires hfresh
    exact ⟨req, _, server.responseLimit_le _ _ _,
      (delivered_of_follows (follows_of_guarantees hmeets h)).1⟩
  · obtain ⟨hslot, hpanics⟩ := not_or.mp hpanics
    let asked : ExtractScanEnv := { env with acquire, acquires }
    have hmeets : Guarantees server.ser (Packaged req asked.toExtractEnv.rows)
        (InOrder server.ser) (Ended asked.toExtractEnv.rows asked.toExtractEnv.Settled)
        (fun _ => False) (extractRequest server.ser server.limits req.frameLimit req.id params
          asked.toExtractEnv) _ :=
      extractRequest_meets (fun _ _ hl => server.responseLimit_eq hl) hfresh
    have hprogram : unbracket (acquire.mapError protocolErrorFromQuery)
        (server.service.dispatchExtract id params env) =
          extractRequest server.ser server.limits req.frameLimit req.id params
            asked.toExtractEnv :=
      unbracket_extract params asked (Bool.eq_false_of_not_eq_true hslot)
        (Bool.eq_false_of_not_eq_true hpanics)
    rw [hprogram] at h
    exact ⟨req, _, server.responseLimit_le _ _ _,
      (delivered_of_follows (follows_of_guarantees hmeets h)).1⟩

/-- A stream is delivered within the response limit of the server. -/
theorem Configured.delivers
    (h : Runs.exec (Job.step server.ser) (server.start incoming disconnected) looks = some job)
    (hstream : incoming.request.method.schema ≠ none) :
    ∃ req rows, req.responseLimit ≤ server.limits.maxResponseBytes ∧
      Delivered req rows job.output.enqueued := by
  obtain ⟨⟨id, method⟩, valid, env, acquire, acquires⟩ := incoming
  cases method with
  | list params => exact list_delivers valid.1 h
  | extract params => exact extract_delivers valid.1 acquires h
  | ping | describe | metadata _ | find _ | toggles _ | cancel _ => exact absurd rfl hstream

/-- **The answer of a method.** Whatever happens around a request that the server
takes, its frames so far are the beginning of one response: `list` and `extract`
answer with a stream under the schema of their own, the other methods with a
single frame, and none of it is larger than what `describe` advertises. -/
theorem answers_keep
    (h : Runs.exec (Job.step server.ser) (server.start incoming disconnected) looks = some job) :
    Answer incoming.request.id incoming.request.method server.advertised job.output.enqueued := by
  have hok : JobOk incoming.request.id job := Runs.exec_invariant
    (fun _ _ _ hj hs => hj.step hs) looks _ _ (jobOk_start _ _ _) h
  have hframed := framed_of_asks server.frameBytes_pos server.frameBytes_u64
    (dispatchInner_only server.service server.frameBytes_pos server.frameBytes_u64
      incoming.request.method incoming.env) (fun _ => trivial) (fun _ => trivial) h
  constructor
  case response => exact hok.spoken.response.1
  case single =>
    intro f hf
    obtain ⟨hschema, hbytes⟩ := (hframed.frames _ hf).1
    exact ⟨hschema, _, rfl, hbytes⟩
  case stream =>
    intro f hf
    have hschema : incoming.request.method.schema = some f.schema := (hframed.frames _ hf).1
    obtain ⟨req, rows, hle, hdelivered⟩ := server.delivers h (by simp [hschema])
    exact ⟨hschema, _, rfl, (hdelivered.budget f hf).trans hle⟩
  case frameBytes =>
    exact fun f hf => ⟨_, rfl, (hframed.frames f hf).2.trans server.frameBytes_le.2⟩
  case rows =>
    intro f hf
    obtain ⟨b, hb⟩ := hok.spoken.begun hf
    have hschema : incoming.request.method.schema = some b.schema := (hframed.frames _ hb).1
    obtain ⟨req, rows, -, hdelivered⟩ := server.delivers h (by simp [hschema])
    exact ⟨_, rfl, hdelivered.chunks f hf⟩

end Run

/-! ## A list of three names -/

def smallServer : Configured where
  ser := .whole
  runtime := RuntimeConfig.default
  limits := ServiceConfig.default
  runtime_ok := ⟨some, default_ok.2⟩
  limits_ok := default_ok.1

def smallIncoming : Incoming where
  request := ⟨"q", .list ⟨some "a", none, none, none⟩⟩
  valid := ⟨⟨by decide, by decide⟩, fun _ h => (by cases h)⟩
  env := { smallEnv with slotPanics := false }
  acquire := .ok ()
  acquires := ok_acquires

/-- The second and the third look at the channel find it full. -/
def slowClient : List Look :=
  .replicate 2 {} ++ (.replicate 2 { channel := .full } ++ .replicate 7 {})

theorem answers_keep_list : ∃ job,
    Runs.exec (Job.step smallServer.ser) (smallServer.start smallIncoming false) slowClient =
      some job ∧ job.pc = .done ∧
    Answer "q" smallIncoming.request.method smallServer.advertised job.output.enqueued := by
  have hany : (Runs.exec (Job.step smallServer.ser) (smallServer.start smallIncoming false)
      slowClient).any Job.isDone = true := by decide +kernel
  obtain ⟨job, h, hdone⟩ := (Option.any_eq_true _ _).mp hany
  exact ⟨job, h, Job.done_of_isDone hdone, answers_keep h⟩

end VcdTools.Server
