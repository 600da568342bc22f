import VcdTools.Server.StreamPackaging

/-! # What becomes of a failed send of rows

A stream stops when `send_rows` fails. The last flush of a handler returns
that error as it is; a full buffer is sent from inside the visit, where it has
to become a query error and is mapped back to `INTERNAL`. -/
namespace VcdTools.Server
open VcdTools.Query VcdTools.Lib

variable {ser : Json.Serializer} {output : OutputSink}

/-- Why a group of rows cannot be sent. -/
inductive StreamStop
  | responseBytes | oversizeRow | cancelled | deadline
  deriving DecidableEq, Repr

/-- The code the protocol has for it. -/
def StreamStop.code : StreamStop → ProtocolErrorCode
  | .responseBytes | .oversizeRow => .limitExceeded
  | .cancelled => .cancelled
  | .deadline => .deadlineExceeded

/-- The error `send_rows` fails with. -/
inductive StreamStop.Raises (stream : StreamOutput) : StreamStop → ProtocolError → Prop
  | responseBytes (actual : Nat) :
      Raises stream .responseBytes (limitError "response_bytes" stream.responseLimit actual)
  | oversizeRow : Raises stream .oversizeRow
      (limitError "chunk_bytes" stream.frameLimit (stream.frameLimit + 1))
  | cancelled : Raises stream .cancelled queryCancelled
  | deadline : Raises stream .deadline queryDeadlineExceeded

theorem StreamStop.Raises.code_eq {stop : StreamStop} {stream : StreamOutput}
    {error : ProtocolError} (h : stop.Raises stream error) : error.code = stop.code := by
  cases h <;> rfl

/-- The two places a handler sends rows from. -/
inductive Flush
  | full | last
  deriving DecidableEq, Repr

/-- What a handler returns for a failed send at each of them. -/
def Flush.returned (error : ProtocolError) : Flush → ProtocolError
  | .full => protocolErrorFromQuery (.internal error.display)
  | .last => error

/-- The visitor makes a row of this item and pushes it. -/
def Pushes {σ ρ : Type} (ser : Json.Serializer) (visitor : σ → ρ → Visiting σ)
    (buffered : σ → Buffered) (s : σ) (item : ρ) (row : Json) : Prop :=
  ∃ k, visitor s item = ((buffered s).push ser row).bind k

/-- Under these answers the visit gets to a send of rows, and that send fails. -/
inductive VisitStops {σ ρ : Type} (ser : Json.Serializer) (v : Visit ρ)
    (visitor : σ → ρ → Visiting σ) (buffered : σ → Buffered) (s₀ : σ) :
    Flush → List (Except ProtocolError Unit) → StreamOutput → ProtocolError → Prop
  | full {pre item post before answers s row error} : v.items = pre ++ item :: post →
      (Proc.fold visitor s₀ pre).after before = some (.done (.ok s)) →
      Pushes ser visitor buffered s item row →
      ((buffered s).rows ++ [row]).length = chunkRows →
      ((buffered s).stream.sendRows ser ((buffered s).rows ++ [row])).after answers =
        some (.done (.error error)) →
      VisitStops ser v visitor buffered s₀ .full (before ++ answers) (buffered s).stream error
  | last {before answers s error} :
      (Proc.fold visitor s₀ v.items).after before = some (.done (.ok s)) → v.result = .ok () →
      ((buffered s).flush ser).after answers = some (.done (.error error)) →
      VisitStops ser v visitor buffered s₀ .last (before ++ answers) (buffered s).stream error

/-- Under these answers a list or extract request gets to a send of rows of
`stream` at `flush`, and that send fails with `error`. -/
inductive HandlerStops (ser : Json.Serializer) (req : StreamRequest) :
    Dispatch Unit → Flush → List (Except ProtocolError Unit) → StreamOutput → ProtocolError → Prop
  | list {config params env limits generation opening stream flush answers stopped error} :
      queryLimits config none params.maxRows params.maxResponseBytes =
        .ok (limits, req.responseLimit) →
      env.current = .ok generation →
      (StreamOutput.begin ser req.id "signal_name.v1" generation.toNat req.responseLimit
        req.frameLimit).after opening = some (.done (.ok stream)) →
      VisitStops ser env.visit (listVisitor ser params (limits.maxRows.getD config.maxRows)) id
        ⟨stream, []⟩ flush answers stopped error →
      HandlerStops ser req (listRequest ser config req.frameLimit req.id params env) flush
        (opening ++ answers) stopped error
  | extract {config params env limits generation opening stream flush answers stopped error} :
      queryLimits config params.maxCommands params.maxRows params.maxResponseBytes =
        .ok (limits, req.responseLimit) →
      env.current = .ok generation →
      (params.signals.find? fun signal => (env.width signal).isNone) = none →
      (StreamOutput.begin ser req.id "time_value.v1" generation.toNat req.responseLimit
        req.frameLimit).after opening = some (.done (.ok stream)) →
      env.acquire = .ok () →
      VisitStops ser env.visit (extractVisitor ser env) Prod.fst (⟨stream, []⟩, 0) flush answers
        stopped error →
      HandlerStops ser req (extractRequest ser config req.frameLimit req.id params env) flush
        (opening ++ answers) stopped error

/-! ## The handler's result -/

/-- A full buffer that fails to go out ends the push. -/
theorem push_stops {b : Buffered} {row : Json} {answers : List (Except ProtocolError Unit)}
    {error : ProtocolError} (hfull : (b.rows ++ [row]).length = chunkRows)
    (h : (b.stream.sendRows ser (b.rows ++ [row])).after answers = some (.done (.error error))) :
    (b.push ser row).after answers = some (.done (.error (.internal error.display))) := by
  unfold Buffered.push
  simp only
  rw [if_pos hfull, Proc.after_bind (Proc.after_mapError h _)]
  rfl

section Visit
variable {σ ρ : Type} {v : Visit ρ} {visitor : σ → ρ → Visiting σ} {buffered : σ → Buffered}
  {s₀ : σ} {flush : Flush} {answers : List (Except ProtocolError Unit)} {stopped : StreamOutput}
  {error : ProtocolError}

/-- The visit and the last flush return what `Flush.returned` says. -/
theorem VisitStops.returned (h : VisitStops ser v visitor buffered s₀ flush answers stopped error)
    (close : σ → StreamOutput → Dispatch Unit) :
    (((v.run visitor s₀).mapError protocolErrorFromQuery).bind fun s =>
      ((buffered s).flush ser).bind (close s)).after answers =
        some (.done (.error (flush.returned error))) := by
  cases h with
  | @full pre item post before answers s row error hitems hpre hpush hfull hsend =>
    obtain ⟨k, hk⟩ := hpush
    have hfold : (Proc.fold visitor s₀ v.items).after (before ++ answers) =
        some (.done (.error (.internal error.display))) := by
      rw [hitems, Proc.fold_append, Proc.after_bind_ok hpre, Proc.fold, hk, Proc.bind_assoc,
        Proc.after_bind (push_stops hfull hsend)]
      rfl
    unfold Visit.run
    rw [Proc.bind_eq, Proc.after_bind (Proc.after_mapError (Proc.after_bind hfold _) _)]
    rfl
  | @last before answers s error hfold hresult hflush =>
    have hrun : ((v.run visitor s₀).mapError protocolErrorFromQuery).after before =
        some (.done (.ok s)) := by
      unfold Visit.run
      rw [Proc.bind_eq, Proc.after_mapError (Proc.after_bind hfold _), hresult]
      rfl
    rw [Proc.after_bind_ok hrun, Proc.after_bind hflush]
    rfl

end Visit

/-- **What the handler returns** for a failed send of rows. -/
theorem HandlerStops.returned {req : StreamRequest} {handler : Dispatch Unit} {flush : Flush}
    {answers : List (Except ProtocolError Unit)} {stopped : StreamOutput} {error : ProtocolError}
    (h : HandlerStops ser req handler flush answers stopped error) :
    handler.after answers = some (.done (.error (flush.returned error))) := by
  cases h with
  | list hlimits hcurrent hbegin hvisit =>
    unfold listRequest
    rw [hlimits, hcurrent]
    exact (Proc.after_bind_ok hbegin).trans (hvisit.returned _)
  | extract hlimits hcurrent hknown hbegin hacquire hvisit =>
    unfold extractRequest
    rw [hlimits, hcurrent]
    simp only [Proc.lift, Proc.bind_eq, Proc.bind_ok, hknown]
    rw [Proc.after_bind_ok hbegin, hacquire]
    exact hvisit.returned _

/-! ## The terminal frame -/

def ResponseFrame.errorCode : ResponseFrame → Option ProtocolErrorCode
  | .error f => some f.error.code
  | .end_ f => f.error.map ProtocolError.code
  | .result _ | .begin _ | .chunk _ => none

theorem terminalFrame_errorCode {error : ProtocolError} {frame : ResponseFrame}
    (h : output.terminalFrame error = some frame) : frame.errorCode = some error.code := by
  unfold OutputSink.terminalFrame at h
  split at h <;> cases h <;> rfl

theorem HandlerStops.streams {req : StreamRequest} {handler : Dispatch Unit} {flush : Flush}
    {answers : List (Except ProtocolError Unit)} {stopped : StreamOutput} {error : ProtocolError}
    (h : HandlerStops ser req handler flush answers stopped error) :
    ∃ handed settled, Streams ser req handler handed settled := by
  cases h with
  | list hlimits _ _ _ =>
    refine ⟨_, _, .list fun _ _ hl => ?_⟩
    rw [hlimits] at hl
    cases hl
    rfl
  | extract hlimits _ _ _ _ _ =>
    refine ⟨_, _, .extract fun _ _ hl => ?_⟩
    rw [hlimits] at hl
    cases hl
    rfl

/-- The terminal frame of a small error can be sent while the response is open. -/
theorem Packaged.terminal_encodes {req : StreamRequest} {handed : List Json}
    (ser : Json.Serializer) (h : Packaged req handed output) {error : ProtocolError} (hm : Modest error)
    (hopen : output.lifecycle ≠ .terminal) :
    ∃ frame line, output.terminalFrame error = some frame ∧
      output.encodeBounded ser frame = .ok line := by
  have hid : Json.strBytes output.requestId ≤ maxRequestIdBytes := by
    rw [h.requestId]
    exact req.id_le
  have hb := h.budget
  unfold OutputSink.terminalFrame
  cases hl : output.lifecycle with
  | notStarted =>
    obtain ⟨line, hline⟩ := encodes_of_le ser h.frameCap
      (Nat.le_trans (error_small hid hm) req.frame_ge)
    exact ⟨_, line, rfl, hline⟩
  | streaming n =>
    rw [hl] at hb
    obtain ⟨line, hline⟩ := encodes_of_le ser h.frameCap
      (Nat.le_trans (endError_small hid hb.1 hm) req.frame_ge)
    exact ⟨_, line, rfl, hline⟩
  | terminal => exact absurd hl hopen

/-- In every state of its job a handler that failed has an open response. -/
theorem Streams.failed_open {req : StreamRequest} {handler : Dispatch Unit} {handed : List Json}
    {settled : Prop} {disconnected : Bool} {looks : List Look} {job : Job} {error : ProtocolError}
    (hs : Streams ser req handler handed settled)
    (h : Runs.exec (Job.step ser) (.start req.id req.frameLimit disconnected handler) looks =
      some job) (hpc : job.pc = .dispatching (.done (.error error))) :
    Packaged req handed job.output ∧ job.output.lifecycle ≠ .terminal := by
  have hf := follows_of_guarantees (hs.guarantees ⟨rfl, rfl, rfl, rfl⟩) h
  cases hf with
  | dispatching hp =>
    cases hpc
    cases hp with
    | done hi hq =>
      refine ⟨hi, fun hl => ?_⟩
      rcases hq with hstart | ⟨⟨n, hn⟩, _⟩
      · rw [hl] at hstart
        cases hstart
      · rw [hl] at hn
        cases hn
  | _ => cases hpc

/-- What a failed send from inside the visit puts on a connection that is up. -/
theorem HandlerStops.full_internal {req : StreamRequest} {handler : Dispatch Unit}
    {disconnected : Bool} {looks : List Look} {job : Job} {stopped : StreamOutput}
    {error : ProtocolError}
    (hstops : HandlerStops ser req handler .full
      ((Job.start req.id req.frameLimit disconnected handler).answers ser looks) stopped error)
    (h : Runs.exec (Job.step ser) (.start req.id req.frameLimit disconnected handler) looks =
      some job) {program : Dispatch Unit} (hpc : job.pc = .dispatching program)
    (hup : job.disconnected = false) :
    ∃ looks' job' frame, Runs.exec (Job.step ser) job looks' = some job' ∧
      frame ∈ job'.output.enqueued.drop job.output.enqueued.length ∧
      frame.errorCode = some .internal := by
  obtain ⟨output, up, pc⟩ := job
  cases hpc
  cases hup
  obtain ⟨_, hstart, hafter⟩ := Job.program_exec h rfl
  cases hstart
  rw [hstops.returned] at hafter
  cases hafter
  obtain ⟨handed, settled, hs⟩ := hstops.streams
  obtain ⟨hpack, hopen⟩ := hs.failed_open h rfl
  obtain ⟨frame, line, hframe, hline⟩ :=
    hpack.terminal_encodes ser (modest_internal error.display) hopen
  exact ⟨_, _, frame, terminal_sent hframe hline, by simp [OutputSink.push],
    terminalFrame_errorCode hframe⟩

/-- **Termination reasons survive only outside the visitor.** In every run of a
list or extract request that gets to a failing send of rows, the terminal frame
carries the code of the reason exactly when the send was the last flush, or no
terminal frame is sent any more. -/
theorem stream_stop_code_iff {req : StreamRequest} {handler : Dispatch Unit} {flush : Flush}
    {disconnected : Bool} {looks : List Look} {job : Job} {stopped : StreamOutput}
    {stop : StreamStop} {error : ProtocolError}
    (hstops : HandlerStops ser req handler flush
      ((Job.start req.id req.frameLimit disconnected handler).answers ser looks) stopped error)
    (hraises : stop.Raises stopped error)
    (h : Runs.exec (Job.step ser) (.start req.id req.frameLimit disconnected handler) looks =
      some job) (hpc : ∃ program, job.pc = .dispatching program) :
    (∀ looks' job' frame, Runs.exec (Job.step ser) job looks' = some job' →
        frame ∈ job'.output.enqueued.drop job.output.enqueued.length →
        frame.errorCode = some stop.code) ↔
      flush = .last ∨ job.disconnected = true := by
  obtain ⟨program, hpc⟩ := hpc
  constructor
  · intro hall
    cases flush with
    | last => exact .inl rfl
    | full =>
      cases hd : job.disconnected with
      | true => exact .inr rfl
      | false =>
        obtain ⟨looks', job', frame, hexec, hmem, hinternal⟩ := hstops.full_internal h hpc hd
        rw [hall looks' job' frame hexec hmem] at hinternal
        cases stop <;> cases hinternal
  · intro hcond looks' job' frame hexec hmem
    obtain ⟨output, disconnected', pc⟩ := job
    cases hpc
    obtain ⟨_, hstart, hafter⟩ := Job.program_exec h rfl
    cases hstart
    rw [hstops.returned] at hafter
    cases hafter
    have hclosing := Closing.exec .returned hexec
    cases hclosing with
    | returned | ending | terminating _ | silent => simp at hmem
    | closed hframe =>
      rw [OutputSink.push, List.drop_left, List.mem_singleton] at hmem
      subst hmem
      rcases hcond with rfl | hdown
      · rw [terminalFrame_errorCode hframe]
        exact congrArg some hraises.code_eq
      · have := Runs.exec_invariant (I := fun job => job.disconnected = true)
          (fun _ _ _ hd hs => Job.disconnected_step hd hs) looks' _ _ hdown hexec
        cases this

/-! ## A list that runs out of budget -/

/-- `begin` within its limits is one call. -/
theorem begin_eq (req : StreamRequest) (schema : String) (generation : Nat)
    (hle : encodedJsonLineBytes (.ofBegin req.id schema (Nat.repr generation)) ≤ req.frameLimit)
    (hbudget : ensureResponseBudget 0
      (encodedJsonLineBytes (.ofBegin req.id schema (Nat.repr generation))) req.responseLimit =
        .ok ()) :
    StreamOutput.begin ser req.id schema generation req.responseLimit req.frameLimit =
      .call (.ofBegin req.id schema (Nat.repr generation)) fun answer =>
        (Proc.done answer).bind fun _ => .done (.ok
          { id := req.id, nextSeq := 1,
            encodedBytes := encodedJsonLineBytes (.ofBegin req.id schema (Nat.repr generation)),
            rows := 0, responseLimit := req.responseLimit, frameLimit := req.frameLimit }) := by
  unfold StreamOutput.begin
  simp only [req.frameBytes hle, Proc.lift, Proc.bind_eq, Proc.bind_ok, hbudget]
  rfl

theorem ensureResponseBudget_over (current next limit : Nat) (hmax : limit < u64Max)
    (h : limit < current + next + terminalFrameReserveBytes) :
    ∃ actual, ensureResponseBudget current next limit =
      .error (limitError "response_bytes" limit actual) := by
  have hover : limit < saturatingAdd (saturatingAdd current next) terminalFrameReserveBytes := by
    unfold saturatingAdd
    omega
  unfold ensureResponseBudget
  simp only
  rw [if_pos hover]
  exact ⟨_, rfl⟩

/-- A group that fits into a frame but not into the budget is not sent. -/
theorem sendRows_over_budget (req : StreamRequest) {stream : StreamOutput} {rows : List Json}
    {error : ProtocolError} (hne : rows ≠ []) (hlimit : stream.frameLimit = req.frameLimit)
    (hle : encodedJsonLineBytes (.ofChunk stream.id stream.nextSeq rows) ≤ req.frameLimit)
    (hbudget : ensureResponseBudget stream.encodedBytes
      (encodedJsonLineBytes (.ofChunk stream.id stream.nextSeq rows)) stream.responseLimit =
        .error error) : stream.sendRows ser rows = .fail error := by
  unfold StreamOutput.sendRows
  rw [dif_neg hne]
  unfold StreamOutput.sendRowsSplit
  simp only [hlimit, req.tryFrameBytes, if_pos hle, hbudget]
  rfl

theorem listVisitor_push {params : ListParams} {maxRows : Nat} {b : Buffered} {name : String}
    (hkeeps : params.keeps name = true) (hmax : b.stream.rows + b.rows.length < maxRows) :
    listVisitor ser params maxRows b name = b.push ser (.str name) := by
  unfold listVisitor
  rw [if_pos hkeeps, if_neg (Nat.not_le.mpr hmax)]

/-- Names that stay in the buffer are sent by nobody. -/
theorem fold_buffers {params : ListParams} {maxRows : Nat} (names : List String) :
    ∀ b : Buffered, (∀ name ∈ names, params.keeps name = true) →
      b.rows.length + names.length < chunkRows →
      b.stream.rows + b.rows.length + names.length ≤ maxRows →
      Proc.fold (listVisitor ser params maxRows) b names =
        .done (.ok ⟨b.stream, b.rows ++ names.map .str⟩) := by
  induction names with
  | nil =>
    intro b _ _ _
    rw [List.map_nil, List.append_nil]
    rfl
  | cons name names ih =>
    intro b hkeeps hroom hmax
    rw [List.length_cons] at hroom hmax
    have hlen : (b.rows ++ [Json.str name]).length = b.rows.length + 1 := by simp
    have hvisit : listVisitor ser params maxRows b name =
        .done (.ok ⟨b.stream, b.rows ++ [.str name]⟩) := by
      rw [listVisitor_push (hkeeps name List.mem_cons_self) (by omega)]
      unfold Buffered.push
      simp only
      rw [if_neg (by omega)]
      rfl
    rw [Proc.fold, hvisit, Proc.bind_ok, ih _ (fun n hn => hkeeps n (List.mem_cons_of_mem _ hn))
      (by dsimp only; omega) (by dsimp only; omega), List.append_assoc]
    rfl

def signalNames (n : Nat) : List String := (List.range n).map fun i => "s" ++ Nat.repr i

def namesConfig : ServiceConfig :=
  { maxSignals := 2000, maxRows := 2000, maxResponseBytes := 4179, maxCommands := 10 }

def namesParams : ListParams := { filter := none, maxRows := none, maxResponseBytes := none }

def namesEnv (n : Nat) : ListEnv where
  current := .ok 1
  visit := ⟨signalNames n, .ok ()⟩
  validateSource := .ok ()
  check := .ok ()
  elapsedMs := 2
  resolves := by simp

theorem namesEnv_items (n : Nat) : (namesEnv n).visit.items = signalNames n := rfl

/-- The budget is what the begin frame and the reserve take. -/
def namesRequest : StreamRequest where
  id := "q"
  frameLimit := 262144
  responseLimit := 4179
  id_le := strBytes_q
  frame_ge := reserve_le
  frame_le := le_chunkBytes
  response_le := by decide

def namesHandler (n : Nat) : Dispatch Unit :=
  listRequest .whole namesConfig 262144 "q" namesParams (namesEnv n)

def namesStream : StreamOutput where
  id := "q"
  nextSeq := 1
  encodedBytes := 83
  rows := 0
  responseLimit := 4179
  frameLimit := 262144

/-- A first chunk with small rows. -/
theorem shortChunk_le {rows : List Json} {k : Nat} (h : ∀ row ∈ rows, row.size ≤ k) :
    encodedJsonLineBytes (.ofChunk "q" 1 rows) ≤ 100 + rows.length * (k + 1) := by
  have harr := Json.size_arr_le h
  have hkeys : Json.bytes (Json.string "v") = 3 ∧ Json.bytes (Json.string "id") = 4 ∧
      Json.bytes (Json.string "seq") = 5 ∧ Json.bytes (Json.string "type") = 6 ∧
      Json.bytes (Json.string "rows") = 6 ∧ Json.bytes (Json.string "chunk") = 7 ∧
      Json.bytes (Json.string "q") = 3 ∧ Json.digits 1 = 1 := by decide
  simp only [encodedJsonLineBytes, ResponseFrame.ofChunk, ResponseFrame.toJson,
    Json.size_obj_cons, Json.renderFields_cons, Json.renderFields_nil, Json.size_num,
    Json.size_str, hkeys, protocolVersion]
  omega

theorem namesChunk_le {n : Nat} (h : n ≤ 1024) :
    encodedJsonLineBytes (.ofChunk "q" 1 ((signalNames n).map .str)) ≤ 262144 := by
  have hname : ∀ e ∈ (signalNames n).map Json.str, e.size ≤ 38 := by
    intro e he
    obtain ⟨name, hmem, rfl⟩ := List.mem_map.mp he
    obtain ⟨i, hi, rfl⟩ := List.mem_map.mp hmem
    have hd : Json.digits i ≤ 4 := by
      rw [Json.digits_le_iff (by decide)]
      have := List.mem_range.mp hi
      omega
    have hbytes : Json.strBytes ("s" ++ Nat.repr i) = 1 + Json.digits i := by
      rw [Json.strBytes, String.toList_append, Json.bytes_append, ← Json.repr_bytes]
      rfl
    have := Json.string_le ("s" ++ Nat.repr i)
    rw [Json.size_str]
    omega
  have hchunk := shortChunk_le hname
  have hlen : ((signalNames n).map Json.str).length = n := by simp [signalNames]
  omega

/-- No chunk fits into the budget. -/
theorem names_sendRows {n : Nat} (hpos : 0 < n) (h : n ≤ 1024) :
    ∃ actual, namesStream.sendRows .whole ((signalNames n).map .str) =
      .fail (limitError "response_bytes" 4179 actual) := by
  have hne : (signalNames n).map Json.str ≠ [] := by
    intro hnil
    have hlen : ((signalNames n).map Json.str).length = n := by simp [signalNames]
    rw [hnil, List.length_nil] at hlen
    omega
  obtain ⟨actual, hbudget⟩ := ensureResponseBudget_over 83
    (encodedJsonLineBytes (.ofChunk "q" 1 ((signalNames n).map .str))) 4179 (by decide)
    (by unfold encodedJsonLineBytes terminalFrameReserveBytes; omega)
  exact ⟨actual, sendRows_over_budget namesRequest hne rfl (namesChunk_le h) hbudget⟩

theorem names_begin : StreamOutput.begin .whole "q" "signal_name.v1" (1 : UInt64).toNat 4179
    262144 = .call (.ofBegin "q" "signal_name.v1" (Nat.repr 1)) fun answer =>
      (Proc.done answer).bind fun _ => .done (.ok namesStream) := by
  have hsize : encodedJsonLineBytes (.ofBegin namesRequest.id "signal_name.v1" (Nat.repr 1)) =
      83 := by decide +kernel
  have heq := @begin_eq .whole namesRequest "signal_name.v1" 1 (by rw [hsize]; decide)
    (by rw [hsize]; rfl)
  rw [hsize] at heq
  exact heq

/-- The handler's first send gets through. -/
theorem names_started (n : Nat) : ∃ job program,
    Runs.exec (Job.step .whole) (.start "q" 262144 false (namesHandler n)) [{}, {}, {}] =
      some job ∧ job.pc = .dispatching program ∧ job.disconnected = false ∧
    (Job.start "q" 262144 false (namesHandler n)).answers .whole [{}, {}, {}] = [.ok ()] := by
  obtain ⟨next, hnext⟩ : ∃ next, namesHandler n =
      .call (.ofBegin "q" "signal_name.v1" (Nat.repr 1)) next := by
    have hlimits : queryLimits namesConfig none none none = .ok
      ({ maxSignals := some 2000, maxRows := some 2000, maxResultBytes := some 4179,
         maxCommands := some 10 }, 4179) := rfl
    simp only [namesHandler, listRequest, namesParams, namesEnv, hlimits, Proc.lift,
      Proc.bind_eq, Proc.bind_ok, names_begin]
    exact ⟨_, rfl⟩
  rw [hnext]
  refine ⟨⟨OutputSink.push ⟨"q", .notStarted, 262144, []⟩
    (.ofBegin "q" "signal_name.v1" (Nat.repr 1)) (.streaming 1), false,
    .dispatching (next (.ok ()))⟩, _, ?_, rfl, rfl, ?_⟩
  · simp only [Job.start, Runs.exec_cons, Job.step, OutputSink.dispatchTurn]
    rfl
  · simp only [Job.start, Job.answers, Job.returned, Job.step, OutputSink.dispatchTurn]
    rfl

theorem names_fold {n : Nat} (h : n < 1024) :
    Proc.fold (listVisitor .whole namesParams 2000) ⟨namesStream, []⟩ (signalNames n) =
      .done (.ok ⟨namesStream, (signalNames n).map .str⟩) := by
  have hlen : (signalNames n).length = n := by simp [signalNames]
  refine (fold_buffers (signalNames n) ⟨namesStream, []⟩ (fun _ _ => rfl) ?_ ?_).trans rfl
  · rw [hlen]
    show 0 + n < chunkRows
    unfold chunkRows
    omega
  · rw [hlen]
    show 0 + 0 + n ≤ 2000
    omega

/-- The handler stops where its visit does. -/
theorem names_handler_stops {n : Nat} {flush : Flush} {error : ProtocolError}
    (h : VisitStops .whole (namesEnv n).visit (listVisitor .whole namesParams 2000) id
      ⟨namesStream, []⟩ flush [] namesStream error) :
    HandlerStops .whole namesRequest (namesHandler n) flush [.ok ()] namesStream error := by
  have hlimits : queryLimits namesConfig none namesParams.maxRows namesParams.maxResponseBytes =
    .ok ({ maxSignals := some 2000, maxRows := some 2000, maxResultBytes := some 4179,
           maxCommands := some 10 }, namesRequest.responseLimit) := rfl
  have hcurrent : (namesEnv n).current = .ok 1 := rfl
  have hbegin := congrArg (Proc.after [.ok ()]) names_begin
  exact .list hlimits hcurrent hbegin h

/-- 1024 names fill the buffer, and the full buffer cannot be sent. -/
theorem names_stop_full : ∃ error, StreamStop.responseBytes.Raises namesStream error ∧
    HandlerStops .whole namesRequest (namesHandler 1024) .full [.ok ()] namesStream error := by
  obtain ⟨actual, hsend⟩ := names_sendRows (n := 1024) (by decide) (Nat.le_refl _)
  have hnames : signalNames 1024 = signalNames 1023 ++ ["s" ++ Nat.repr 1023] := by
    simp only [signalNames, List.range_succ (n := 1023), List.map_append, List.map_singleton]
  rw [hnames, List.map_append, List.map_singleton] at hsend
  have hfold := names_fold (n := 1023) (by decide)
  have hlen : ((signalNames 1023).map Json.str).length = 1023 := by simp [signalNames]
  generalize (signalNames 1023).map Json.str = rows at hsend hfold hlen
  generalize "s" ++ Nat.repr 1023 = name at hsend hnames
  have hpush : Pushes .whole (listVisitor .whole namesParams 2000) id ⟨namesStream, rows⟩ name
      (.str name) := by
    refine ⟨pure, (listVisitor_push rfl ?_).trans (Proc.bind_pure _).symm⟩
    rw [hlen]
    exact (by decide : 0 + 1023 < 2000)
  have hvisit : VisitStops .whole (namesEnv 1024).visit (listVisitor .whole namesParams 2000) id
      ⟨namesStream, []⟩ .full ([] ++ []) namesStream
      (limitError "response_bytes" 4179 actual) :=
    @VisitStops.full _ _ _ _ _ id _ (signalNames 1023) name [] [] [] ⟨namesStream, rows⟩
      (.str name) _ ((namesEnv_items 1024).trans hnames) (congrArg some hfold) hpush
      (by simp [hlen, chunkRows]) (congrArg some hsend)
  exact ⟨_, .responseBytes actual, names_handler_stops hvisit⟩

/-- Three names wait for the last flush. -/
theorem names_stop_last : ∃ error, StreamStop.responseBytes.Raises namesStream error ∧
    HandlerStops .whole namesRequest (namesHandler 3) .last [.ok ()] namesStream error := by
  obtain ⟨actual, hsend⟩ := names_sendRows (n := 3) (by decide) (by decide)
  have hfold : (Proc.fold (listVisitor .whole namesParams 2000) ⟨namesStream, []⟩
      (signalNames 3)).after [] =
        some (.done (.ok ⟨namesStream, (signalNames 3).map .str⟩)) :=
    congrArg some (names_fold (by decide))
  have hflush : (Buffered.flush .whole ⟨namesStream, (signalNames 3).map .str⟩).after [] =
      some (.done (.error (limitError "response_bytes" 4179 actual))) := congrArg some hsend
  have hvisit : VisitStops .whole (namesEnv 3).visit (listVisitor .whole namesParams 2000) id
      ⟨namesStream, []⟩ .last ([] ++ []) namesStream
      (limitError "response_bytes" 4179 actual) :=
    @VisitStops.last _ _ _ _ _ id _ [] [] ⟨namesStream, (signalNames 3).map .str⟩ _ hfold rfl
      hflush
  exact ⟨_, .responseBytes actual, names_handler_stops hvisit⟩

/-- A response limit hit by three rows in the last flush. -/
theorem stream_stop_code_last : ∃ job looks, Runs.exec (Job.step .whole)
      (.start namesRequest.id namesRequest.frameLimit false (namesHandler 3)) looks = some job ∧
    ∀ looks' job' frame, Runs.exec (Job.step .whole) job looks' = some job' →
      frame ∈ job'.output.enqueued.drop job.output.enqueued.length →
      frame.errorCode = some .limitExceeded := by
  obtain ⟨job, program, h, hpc, _, hanswers⟩ := names_started 3
  obtain ⟨error, hraises, hstops⟩ := names_stop_last
  rw [← hanswers] at hstops
  exact ⟨job, _, h, (stream_stop_code_iff hstops hraises h ⟨program, hpc⟩).mpr (.inl rfl)⟩

/-- **A full buffer hides the reason**: 1024 names, a budget that the begin
frame has used up, and the terminal frame says `INTERNAL`. -/
theorem stream_stop_code_lost : ∃ looks job stopped error looks' job' frame,
    Runs.exec (Job.step .whole)
      (.start namesRequest.id namesRequest.frameLimit false (namesHandler 1024)) looks =
        some job ∧
    HandlerStops .whole namesRequest (namesHandler 1024) .full
      ((Job.start namesRequest.id namesRequest.frameLimit false
        (namesHandler 1024)).answers .whole looks) stopped error ∧
    StreamStop.responseBytes.Raises stopped error ∧
    Runs.exec (Job.step .whole) job looks' = some job' ∧
    frame ∈ job'.output.enqueued.drop job.output.enqueued.length ∧
    frame.errorCode = some .internal ∧ StreamStop.responseBytes.code = .limitExceeded := by
  obtain ⟨job, program, h, hpc, hup, hanswers⟩ := names_started 1024
  obtain ⟨error, hraises, hstops⟩ := names_stop_full
  rw [← hanswers] at hstops
  obtain ⟨looks', job', frame, hexec, hmem, hcode⟩ := hstops.full_internal h hpc hup
  exact ⟨_, job, namesStream, error, looks', job', frame, h, hstops, hraises, hexec, hmem, hcode,
    rfl⟩

end VcdTools.Server
