import VcdTools.Server.OutputLifecycle
import VcdTools.Server.StreamOutput

/-! # The rows of a list or extract request on their way out

Both handlers keep one invariant over the visit: what is on the channel, what
is buffered and what is still to come make up all rows of the request
(`Pending`). From the handlers it is carried to the job that runs them, and to
the terminal frame the worker sends when the handler could not. -/
namespace VcdTools.Server
open VcdTools.Query VcdTools.Lib

variable {ser : Json.Serializer} {req : StreamRequest} {handed pending : List Json}
  {stream : StreamOutput} {output : OutputSink}

/-! ## The buffer -/

/-- The stream, the buffer and the rows to come, between two visits. -/
structure Pending (req : StreamRequest) (handed pending : List Json) (b : Buffered)
    (output : OutputSink) : Prop where
  synced : Synced req handed b.stream output
  room : b.rows.length < chunkRows
  rows : rowsOf output.enqueued ++ (b.rows ++ pending) = handed

/-- What a visitor leaves: the rest of the rows, or a cut stream. -/
def Visited {σ : Type} (req : StreamRequest) (handed pending : List Json)
    (buffered : σ → Buffered) : Except QueryError σ → OutputSink → Prop :=
  Proc.onResult (fun s => Pending req handed pending (buffered s))
    fun error => Cut handed (protocolErrorFromQuery error)

theorem modest_internal (message : String) :
    Modest (protocolErrorFromQuery (.internal message)) := modest_fromQuery rfl

/-- **One row goes to the buffer**, and the buffer out when it is full. -/
theorem push_meets {b : Buffered} {row : Json} (h : Pending req handed (row :: pending) b output) :
    Guarantees ser (Packaged req handed) (InOrder ser) (Visited req handed pending id)
      (fun _ => False) (b.push ser row) output := by
  have hrows : rowsOf output.enqueued ++ ((b.rows ++ [row]) ++ pending) = handed := by
    have := h.rows
    simpa using this
  have hlen : (b.rows ++ [row]).length = b.rows.length + 1 := by simp
  have hroom := h.room
  unfold Buffered.push
  simp only
  split
  · rename_i hfull
    have hpre : rowsOf output.enqueued ++ (b.rows ++ [row]) <+: handed := by
      exact ⟨pending, by rw [← hrows]; simp only [List.append_assoc]⟩
    refine Proc.meets_bind (Proc.meets_mapError
      ((sendRows_meets h.synced (Nat.le_of_eq hfull) hpre).mono fun result output' _ hsent => ?_))
    cases result with
    | error e => exact ⟨modest_internal _, hsent.streaming, hsent.missing⟩
    | ok stream' =>
      refine .done hsent.1.packaged ⟨hsent.1, Nat.zero_lt_succ _, ?_⟩
      rw [hsent.2, List.append_assoc]
      exact hrows
  · rename_i hpart
    have hlt : (b.rows ++ [row]).length < chunkRows := by omega
    exact .done h.synced.packaged ⟨h.synced, hlt, hrows⟩

/-- The last flush. -/
theorem flush_meets {b : Buffered} (h : Pending req handed [] b output) :
    Guarantees ser (Packaged req handed) (InOrder ser) (Sent req handed handed [])
      (fun _ => False) (b.flush ser) output := by
  have hrows : rowsOf output.enqueued ++ b.rows = handed := by
    have := h.rows
    rwa [List.append_nil] at this
  unfold Buffered.flush
  split
  · rename_i hempty
    rw [List.isEmpty_iff] at hempty
    rw [hempty, List.append_nil] at hrows
    exact .done h.synced.packaged ⟨h.synced, by rw [hrows, List.append_nil]⟩
  · refine (sendRows_meets h.synced (Nat.le_of_lt h.room) (by rw [hrows])).mono
      fun result output' _ hsent => ?_
    cases result with
    | error e => exact hsent
    | ok stream' => exact ⟨hsent.1, by rw [hsent.2, hrows, List.append_nil]⟩

/-- Behind the last flush every row is on the channel. -/
theorem flushed_meets {b : Buffered} {settled : Prop} {rest : StreamOutput → Dispatch Unit}
    (h : Pending req handed [] b output)
    (hrest : ∀ stream output', Synced req handed stream output' →
      rowsOf output'.enqueued = handed →
      Guarantees ser (Packaged req handed) (InOrder ser) (Ended handed settled) (fun _ => False)
        (rest stream) output') :
    Guarantees ser (Packaged req handed) (InOrder ser) (Ended handed settled) (fun _ => False)
      ((b.flush ser).bind rest) output := by
  refine Proc.meets_bind ((flush_meets h).mono fun result output' _ hf => ?_)
  cases result with
  | error e => exact hf.ended _
  | ok stream =>
    obtain ⟨hsync, hall⟩ := hf
    rw [List.append_nil] at hall
    exact hrest stream output' hsync hall

/-- A check of the source or the context fails in an open stream. -/
theorem Synced.failed (h : Synced req handed stream output) {settled : Prop}
    {checked : Except QueryError Unit} {error : ProtocolError}
    (hnames : ∀ e, checked = .error e → e.listsNames = false) (hsettled : settled → checked = .ok ())
    (he : checked.mapError protocolErrorFromQuery = .error error) :
    Ended handed settled (.error error) output := by
  cases checked with
  | ok u => cases he
  | error e =>
    cases he
    refine .inr ⟨⟨_, h.lifecycle⟩, modest_fromQuery (hnames e rfl), fun hs _ => ?_⟩
    cases hsettled hs

/-- What a handler has after the visit. -/
def AfterVisit {σ : Type} (req : StreamRequest) (handed : List Json) (buffered : σ → Buffered)
    (settled : Prop) : Except ProtocolError σ → OutputSink → Prop :=
  Proc.onResult (fun s => Pending req handed [] (buffered s))
    fun error => Ended handed settled (.error error)

/-- The loop over the visited items, for a visitor that turns each of them into
at most one row. -/
theorem visit_meets {σ ρ : Type} {v : Visit ρ} {visitor : σ → ρ → Visiting σ} {s : σ}
    (buffered : σ → Buffered) (rowsFor : List ρ → List Json) (settled : Prop)
    (hnil : rowsFor [] = [])
    (hresult : ∀ error, v.result = .error error → error.listsNames = false)
    (hsettled : settled → v.result = .ok ())
    (hbody : ∀ item items s output, Pending req handed (rowsFor (item :: items)) (buffered s) output →
      Guarantees ser (Packaged req handed) (InOrder ser)
        (Visited req handed (rowsFor items) buffered) (fun _ => False) (visitor s item) output)
    (h : Pending req handed (rowsFor v.items) (buffered s) output) :
    Guarantees ser (Packaged req handed) (InOrder ser) (AfterVisit req handed buffered settled)
      (fun _ => False) ((v.run visitor s).mapError protocolErrorFromQuery) output := by
  refine Proc.meets_mapError (Proc.meets_bind ((Proc.meets_fold
    (R := fun items s => Pending req handed (rowsFor items) (buffered s))
    (F := fun error => Cut handed (protocolErrorFromQuery error))
    (fun _ _ hp => hp.synced.packaged) hbody v.items s output h).mono
      fun result output' _ hq => ?_))
  cases result with
  | error e => exact hq.ended settled
  | ok s' =>
    rw [hnil] at hq
    refine Proc.meets_lift_bind hq.synced.packaged (fun _ _ => .done hq.synced.packaged hq)
      fun e he => hq.synced.failed hresult hsettled (by rw [he]; rfl)

/-! ## The two handlers -/

/-- The row limit ends a list before all of its names are buffered. -/
theorem listVisitor_meets {params : ListParams} {maxRows : Nat} {b : Buffered} {name : String}
    {names : List String}
    (h : Pending req handed (((name :: names).filter params.keeps).map .str) b output) :
    Guarantees ser (Packaged req handed) (InOrder ser)
      (Visited req handed ((names.filter params.keeps).map .str) id) (fun _ => False)
      (listVisitor ser params maxRows b name) output := by
  unfold listVisitor
  split
  · rename_i hkeeps
    rw [List.filter_cons_of_pos hkeeps, List.map_cons] at h
    split
    · refine Proc.meets_fail h.synced.packaged
        ⟨modest_fromQuery rfl, ⟨_, h.synced.lifecycle⟩, ?_⟩
      rw [← h.rows]
      simp only [List.length_append, List.length_cons]
      omega
    · exact push_meets h
  · rename_i hskips
    rw [List.filter_cons_of_neg hskips] at h
    exact .done h.synced.packaged h

theorem extractVisitor_meets {env : ExtractEnv} {s : Buffered × UInt64} {event : TimeValue}
    {events : List TimeValue}
    (h : Pending req handed ((event :: events).map (timeValueRow env)) s.1 output) :
    Guarantees ser (Packaged req handed) (InOrder ser)
      (Visited req handed (events.map (timeValueRow env)) Prod.fst) (fun _ => False)
      (extractVisitor ser env s event) output := by
  unfold extractVisitor
  refine Proc.meets_bind ((push_meets h).mono fun result output' _ hq => ?_)
  cases result with
  | error e => exact hq
  | ok b => exact .done hq.synced.packaged hq

/-- The rows a list request asks for. -/
def ListEnv.rows (env : ListEnv) (params : ListParams) : List Json :=
  (env.visit.items.filter params.keeps).map .str

/-- Nothing the request reads fails. -/
def ListEnv.Settled (env : ListEnv) : Prop :=
  env.visit.result = .ok () ∧ env.validateSource = .ok () ∧ env.check = .ok ()

def ExtractEnv.rows (env : ExtractEnv) : List Json := env.visit.items.map (timeValueRow env)

def ExtractEnv.Settled (env : ExtractEnv) : Prop :=
  env.acquire = .ok () ∧ env.visit.result = .ok ()

theorem Fresh.begun (h : Fresh req output) {schema : String} (generation : UInt64)
    (hschema : schema = "signal_name.v1" ∨ schema = "time_value.v1") :
    Guarantees ser (Packaged req handed) (InOrder ser)
      (Proc.onResult (fun stream => Pending req handed handed ⟨stream, []⟩)
        fun _ output' => output'.lifecycle = .notStarted) (fun _ => False)
      (StreamOutput.begin ser req.id schema generation.toNat req.responseLimit req.frameLimit)
      output := by
  have hgeneration : generation.toNat ≤ u64Max := Nat.le_of_lt_succ generation.toNat_lt
  refine (begin_meets h hschema hgeneration).mono fun result output' _ hq => ?_
  cases result with
  | error e => exact hq
  | ok stream => exact ⟨hq.1, Nat.zero_lt_succ _, by rw [hq.2, List.nil_append, List.nil_append]⟩


theorem listRequest_meets {config : ServiceConfig} {params : ListParams} {env : ListEnv}
    (hlimits : ∀ limits response, queryLimits config none params.maxRows params.maxResponseBytes =
      .ok (limits, response) → response = req.responseLimit) (h : Fresh req output) :
    Guarantees ser (Packaged req (env.rows params)) (InOrder ser)
      (Ended (env.rows params) env.Settled) (fun _ => False)
      (listRequest ser config req.frameLimit req.id params env) output := by
  have hms : env.elapsedMs.toNat < 2 ^ 128 := env.elapsedMs.isLt
  unfold listRequest
  simp only [Proc.bind_eq]
  refine Proc.meets_lift_bind h.packaged (fun limited hl => ?_) fun _ _ => .inl h.lifecycle
  obtain ⟨limits, response⟩ := limited
  cases hlimits limits response hl
  refine Proc.meets_lift_bind h.packaged (fun generation _ => ?_) fun _ _ => .inl h.lifecycle
  refine Proc.meets_bind ((h.begun generation (.inl rfl)).mono fun result output' _ hq => ?_)
  cases result with
  | error e => exact .inl hq
  | ok stream =>
    refine Proc.meets_bind ((visit_meets id
      (fun names => (names.filter params.keeps).map .str) env.Settled rfl
      (fun e he => env.resolves e (.inl he)) (fun hs => hs.1)
      (fun _ _ _ _ hp => listVisitor_meets hp) hq).mono fun result output'' _ hv => ?_)
    cases result with
    | error e => exact hv
    | ok b =>
      refine flushed_meets hv fun stream output₃ hsync hall => ?_
      refine Proc.meets_lift_bind hsync.packaged (fun _ _ => ?_) fun e he =>
        hsync.failed (fun e he => env.resolves e (.inr (.inl he))) (fun hs => hs.2.1) he
      refine Proc.meets_lift_bind hsync.packaged (fun _ _ => ?_) fun e he =>
        hsync.failed (fun e he => env.resolves e (.inr (.inr he))) (fun hs => hs.2.2) he
      exact finish_meets hsync hms (Nat.zero_le _) hall _

theorem extractRequest_meets {config : ServiceConfig} {params : ExtractParams} {env : ExtractEnv}
    (hlimits : ∀ limits response,
      queryLimits config params.maxCommands params.maxRows params.maxResponseBytes =
        .ok (limits, response) → response = req.responseLimit) (h : Fresh req output) :
    Guarantees ser (Packaged req env.rows) (InOrder ser) (Ended env.rows env.Settled)
      (fun _ => False) (extractRequest ser config req.frameLimit req.id params env) output := by
  have hms : env.elapsedMs.toNat < 2 ^ 128 := env.elapsedMs.isLt
  unfold extractRequest
  simp only [Proc.bind_eq]
  refine Proc.meets_lift_bind h.packaged (fun limited hl => ?_) fun _ _ => .inl h.lifecycle
  obtain ⟨limits, response⟩ := limited
  cases hlimits limits response hl
  refine Proc.meets_lift_bind h.packaged (fun generation _ => ?_) fun _ _ => .inl h.lifecycle
  simp only
  split
  · exact Proc.meets_fail h.packaged (.inl h.lifecycle)
  refine Proc.meets_bind ((h.begun generation (.inr rfl)).mono fun result output' _ hq => ?_)
  cases result with
  | error e => exact .inl hq
  | ok stream =>
    refine Proc.meets_lift_bind hq.synced.packaged (fun _ _ => ?_) fun e he =>
      hq.synced.failed (fun e he => ?_) (fun hs => hs.1) he
    · refine Proc.meets_bind ((visit_meets (s := (Buffered.mk stream [], 0)) Prod.fst
        (fun events => events.map (timeValueRow env)) env.Settled rfl env.resolves (fun hs => hs.2)
        (fun _ _ _ _ hp => extractVisitor_meets hp) hq).mono fun result output'' _ hv => ?_)
      cases result with
      | error e => exact hv
      | ok s =>
        exact flushed_meets hv fun stream output₃ hsync hall =>
          finish_meets hsync hms (Nat.le_of_lt_succ s.2.toNat_lt) hall _
    · rcases env.acquires e he with rfl | rfl <;> rfl

/-- The two handlers, with the rows they are asked for and what it takes that
nothing but `send_frame` can stop them after the last row. -/
inductive Streams (ser : Json.Serializer) (req : StreamRequest) :
    Dispatch Unit → List Json → Prop → Prop
  | list {config params env} :
      (∀ limits response, queryLimits config none params.maxRows params.maxResponseBytes =
        .ok (limits, response) → response = req.responseLimit) →
      Streams ser req (listRequest ser config req.frameLimit req.id params env)
        (env.rows params) env.Settled
  | extract {config params env} :
      (∀ limits response,
        queryLimits config params.maxCommands params.maxRows params.maxResponseBytes =
          .ok (limits, response) → response = req.responseLimit) →
      Streams ser req (extractRequest ser config req.frameLimit req.id params env)
        env.rows env.Settled

theorem Streams.guarantees {handler : Dispatch Unit} {settled : Prop}
    (h : Streams ser req handler handed settled) (hfresh : Fresh req output) :
    Guarantees ser (Packaged req handed) (InOrder ser) (Ended handed settled) (fun _ => False)
      handler output := by
  cases h with
  | list hlimits => exact listRequest_meets hlimits hfresh
  | extract hlimits => exact extractRequest_meets hlimits hfresh

/-! ## The job -/

/-- What the client gets of `handed`. -/
structure Delivered (req : StreamRequest) (handed : List Json) (frames : List ResponseFrame) :
    Prop where
  rows : rowsOf frames <+: handed
  fits : ∀ f ∈ frames, encodedJsonLineBytes f ≤ req.frameLimit
  chunks : ∀ f, .chunk f ∈ frames → f.rows.length ≤ chunkRows
  whole : ∀ f, .end_ f ∈ frames → f.complete = true → rowsOf frames = handed
  budget : ∀ f, .begin f ∈ frames → totalBytes frames ≤ req.responseLimit

theorem Packaged.delivered (h : Packaged req handed output) :
    Delivered req handed output.enqueued where
  rows := h.rows
  fits := h.fits
  chunks := h.chunks
  whole := h.whole
  budget f hf := by
    have hb := h.budget
    cases hl : output.lifecycle with
    | notStarted =>
      rw [hl] at hb
      rw [show output.enqueued = [] from hb] at hf
      cases hf
    | streaming n =>
      rw [hl] at hb
      exact Nat.le_trans (Nat.le_add_right _ _) hb.2.2.1
    | terminal =>
      rw [hl] at hb
      exact hb

/-- The error a worker has to end an open stream with is a small one. -/
theorem EndsWith.modest {settled : Prop} {E : OutputSink → Prop} {error : ProtocolError} {n : Nat}
    (h : EndsWith (Ended handed settled) E output error)
    (hl : output.lifecycle = .streaming n) : Modest error := by
  cases h with
  | unstarted _ he =>
    exact modest_refusal (List.mem_append_left [connectionDisconnected] he)
  | returned hq =>
    rw [hq.1] at hl
    cases hl
  | failed hq =>
    rcases hq with hstart | ⟨_, hm, _⟩
    · rw [hstart] at hl
      cases hl
    · exact hm
  | panicked _ => exact modest_empty (by decide)

/-- **The worker's terminal frame fits into what the stream left for it.** -/
theorem Packaged.terminated (h : Packaged req handed output) {settled : Prop}
    {E : OutputSink → Prop} {error : ProtocolError} {frame : ResponseFrame} {line : List Char}
    (hends : EndsWith (Ended handed settled) E output error)
    (hframe : output.terminalFrame error = some frame)
    (hline : output.encodeBounded ser frame = .ok line) :
    Delivered req handed (output.enqueued ++ [frame]) := by
  have hle : encodedJsonLineBytes frame ≤ req.frameLimit := by
    have hcap := h.frameCap
    have := (encodeBounded_iff (by rw [hcap]; exact req.frameLimit_pos)
      (by rw [hcap]; exact req.frameLimit_u64)).mp hline
    rw [← hcap]
    exact this.1
  have hb := h.budget
  unfold OutputSink.terminalFrame at hframe
  cases hl : output.lifecycle with
  | notStarted =>
    rw [hl] at hb hframe
    cases hframe
    rw [show output.enqueued = [] from hb, List.nil_append]
    refine ⟨List.nil_prefix, ?_, ?_, ?_, ?_⟩
    · simpa using hle
    all_goals simp [ResponseFrame.ofError]
  | streaming n =>
    rw [hl] at hb hframe
    cases hframe
    have hsmall : encodedJsonLineBytes (.endError output.requestId n error) ≤
        terminalFrameReserveBytes :=
      endError_small (by rw [h.requestId]; exact req.id_le) hb.1 (hends.modest hl)
    have hrows : rowsOf (output.enqueued ++ [.endError output.requestId n error]) =
        rowsOf output.enqueued := by simp [ResponseFrame.endError]
    refine ⟨hrows ▸ h.rows, ?_, ?_, ?_, fun _ _ => ?_⟩
    · intro f hf
      rcases List.mem_append.mp hf with hf | hf
      · exact h.fits f hf
      · rw [List.mem_singleton.mp hf]
        exact hle
    · intro f hf
      rcases List.mem_append.mp hf with hf | hf
      · exact h.chunks f hf
      · cases List.mem_singleton.mp hf
    · intro f hf hcomplete
      rcases List.mem_append.mp hf with hf | hf
      · exact absurd hf (hb.2.2.2 f)
      · cases List.mem_singleton.mp hf
        cases hcomplete
    · rw [totalBytes_append, totalBytes_singleton]
      have := hb.2.2.1
      omega
  | terminal =>
    rw [hl] at hframe
    cases hframe

theorem delivered_of_follows {job : Job} {settled : Prop} {E : OutputSink → Prop}
    (h : Follows ser (Packaged req handed) (InOrder ser) (Ended handed settled) E job) :
    Delivered req handed job.output.enqueued ∧
      job.output.maxEncodedFrameBytes = req.frameLimit := by
  cases h with
  | entering _ hp | dispatching hp => exact ⟨hp.inv.delivered, hp.inv.frameCap⟩
  | sending hi _ _ | ending hi _ | terminating hi _ _ _ | silent hi _ =>
    exact ⟨hi.delivered, hi.frameCap⟩
  | terminated hi hends hframe hline => exact ⟨hi.terminated hends hframe hline, hi.frameCap⟩

/-- What the sizing accepts, the encoder writes, and it writes as many bytes. -/
theorem StreamRequest.sized_encodes (req : StreamRequest) {frame : ResponseFrame} {size : Nat}
    (hcap : output.maxEncodedFrameBytes = req.frameLimit)
    (h : Server.tryFrameBytes ser frame req.frameLimit = .ok (some size)) :
    ∃ line, output.encodeBounded ser frame = .ok line ∧ Json.bytes line = size := by
  rw [req.tryFrameBytes] at h
  split at h
  · cases h
    obtain ⟨line, hline⟩ := encodes_of_le ser hcap ‹_›
    refine ⟨line, hline, ?_⟩
    have := (encodeBounded_iff (by rw [hcap]; exact req.frameLimit_pos)
      (by rw [hcap]; exact req.frameLimit_u64)).mp hline
    rw [this.2, Json.bytes_append]
    rfl
  · cases h

/-- **Stream packaging.** At every point of every run of a list or extract
request: the chunks carry a prefix of its rows, each frame and the whole stream
keep their limits, and the handler sends frames the sink can encode under the
numbers it expects. A handler that succeeds has delivered every row; one that
fails after the last row was refused its end frame. The sizing and the encoder
agree, and a single oversize row is an error. -/
theorem stream_packaging {handler : Dispatch Unit} {settled : Prop}
    {disconnected : Bool} {looks : List Look} {job : Job} (hhandler : Streams ser req handler handed settled)
    (h : Runs.exec (Job.step ser) (.start req.id req.frameLimit disconnected handler) looks =
      some job) :
    Delivered req handed job.output.enqueued ∧
    (∀ frame next, job.pc = .dispatching (.call frame next) → InOrder ser job.output frame) ∧
    (∀ result, job.pc = .dispatching (.done result) → Ended handed settled result job.output) ∧
    (∀ frame size, tryFrameBytes ser frame req.frameLimit = .ok (some size) →
      ∃ line, job.output.encodeBounded ser frame = .ok line ∧ Json.bytes line = size) ∧
    (∀ (stream : StreamOutput) (row : Json), stream.frameLimit = req.frameLimit →
      tryFrameBytes ser (.ofChunk stream.id stream.nextSeq [row]) req.frameLimit = .ok none →
      stream.sendRowsSplit ser [row] (List.cons_ne_nil _ _) =
        .fail (limitError "chunk_bytes" req.frameLimit (req.frameLimit + 1))) := by
  have hf := follows_of_guarantees (hhandler.guarantees ⟨rfl, rfl, rfl, rfl⟩) h
  obtain ⟨hdelivered, hcap⟩ := delivered_of_follows hf
  refine ⟨hdelivered, fun frame next hpc => ?_, fun result hpc => ?_,
    fun frame size hsize => req.sized_encodes hcap hsize, fun stream row hlimit hnone => ?_⟩
  · cases hf with
    | dispatching hp =>
      cases hpc
      cases hp with
      | call _ hc _ => exact hc
    | _ => cases hpc
  · cases hf with
    | dispatching hp =>
      cases hpc
      cases hp with
      | done _ hq => exact hq
    | _ => cases hpc
  · refine sendRowsSplit_oversize hlimit ?_
    rw [req.tryFrameBytes] at hnone
    split at hnone
    · cases hnone
    · exact Nat.not_le.mp ‹_›

def smallConfig : ServiceConfig :=
  { maxSignals := 8, maxRows := 8, maxResponseBytes := 100000, maxCommands := 8 }

def smallList : ListParams := { filter := some "a", maxRows := none, maxResponseBytes := none }

/-- Three names, of which two match the filter. -/
def smallEnv : ListEnv where
  current := .ok 1
  visit := ⟨["top.a", "top.b", "top.aa"], .ok ()⟩
  validateSource := .ok ()
  check := .ok ()
  elapsedMs := 2
  resolves := by simp

theorem strBytes_q : Json.strBytes "q" ≤ maxRequestIdBytes := by decide

theorem reserve_le : terminalFrameReserveBytes ≤ 262144 := by decide

theorem le_chunkBytes : 262144 ≤ chunkBytes := by decide

def smallRequest : StreamRequest where
  id := "q"
  frameLimit := 4096
  responseLimit := 100000
  id_le := strBytes_q
  frame_ge := by decide
  frame_le := by decide
  response_le := by decide

theorem stream_packaging_list : ∃ job,
    Runs.exec (Job.step .whole) (.start "q" 4096 false
      (listRequest .whole smallConfig 4096 "q" smallList smallEnv)) (List.replicate 9 {}) =
        some job ∧ job.pc = .done ∧
    Delivered smallRequest [.str "top.a", .str "top.aa"] job.output.enqueued := by
  have hany : (Runs.exec (Job.step .whole) (.start "q" 4096 false
      (listRequest .whole smallConfig 4096 "q" smallList smallEnv))
      (List.replicate 9 {})).any Job.isDone = true := by decide +kernel
  obtain ⟨job, h, hdone⟩ := (Option.any_eq_true _ _).mp hany
  have hs : Streams .whole smallRequest (listRequest .whole smallConfig 4096 "q" smallList smallEnv)
    (smallEnv.rows smallList) smallEnv.Settled := by
    refine @Streams.list _ smallRequest _ _ _ ?_
    intro limits response hl
    cases hl
    rfl
  exact ⟨job, h, Job.done_of_isDone hdone, (stream_packaging hs h).1⟩

end VcdTools.Server
