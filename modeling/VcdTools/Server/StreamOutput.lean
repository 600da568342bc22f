import VcdTools.Server.Dispatch
import VcdTools.Server.FrameSize

/-! # One stream and its sink

What holds of a sink while a handler streams `handed` into it (`Packaged`),
how the stream's own numbers follow the sink's (`Synced`), and what each
operation of `StreamOutput` does to both. -/
namespace VcdTools.Server
open VcdTools.Query VcdTools.Lib

/-- The part of a request a stream depends on. -/
structure StreamRequest where
  id : String
  frameLimit : Nat
  responseLimit : Nat
  id_le : Json.strBytes id ≤ maxRequestIdBytes
  frame_ge : terminalFrameReserveBytes ≤ frameLimit
  frame_le : frameLimit ≤ chunkBytes
  response_le : responseLimit ≤ u64Max

/-- The rows of the chunks among `frames`. -/
def rowsOf (frames : List ResponseFrame) : List Json :=
  frames.flatMap fun
    | .chunk f => f.rows
    | _ => []

def totalBytes (frames : List ResponseFrame) : Nat := (frames.map encodedJsonLineBytes).sum

@[simp] theorem rowsOf_nil : rowsOf [] = [] := rfl

@[simp] theorem rowsOf_append (fs gs : List ResponseFrame) :
    rowsOf (fs ++ gs) = rowsOf fs ++ rowsOf gs := List.flatMap_append

@[simp] theorem rowsOf_chunk (f : ChunkFrame) : rowsOf [.chunk f] = f.rows := by simp [rowsOf]

@[simp] theorem rowsOf_begin (f : BeginFrame) : rowsOf [.begin f] = [] := rfl

@[simp] theorem rowsOf_end (f : EndFrame) : rowsOf [.end_ f] = [] := rfl

@[simp] theorem rowsOf_error (f : ErrorFrame) : rowsOf [.error f] = [] := rfl

@[simp] theorem totalBytes_nil : totalBytes [] = 0 := rfl

@[simp] theorem totalBytes_append (fs gs : List ResponseFrame) :
    totalBytes (fs ++ gs) = totalBytes fs + totalBytes gs := by simp [totalBytes]

@[simp] theorem totalBytes_singleton (f : ResponseFrame) :
    totalBytes [f] = encodedJsonLineBytes f := by simp [totalBytes]

/-- The bytes a stream may use before its end, by the sink's lifecycle. -/
def WithinBudget (req : StreamRequest) (frames : List ResponseFrame) : OutputLifecycle → Prop
  | .notStarted => frames = []
  | .streaming n => n ≤ u32Max ∧ totalBytes frames ≤ n * req.frameLimit ∧
      totalBytes frames + terminalFrameReserveBytes ≤ req.responseLimit ∧
      ∀ f, .end_ f ∉ frames
  | .terminal => totalBytes frames ≤ req.responseLimit

/-- What holds of a sink on the way of `handed` into it. -/
structure Packaged (req : StreamRequest) (handed : List Json) (output : OutputSink) : Prop where
  requestId : output.requestId = req.id
  frameCap : output.maxEncodedFrameBytes = req.frameLimit
  rows : rowsOf output.enqueued <+: handed
  fits : ∀ f ∈ output.enqueued, encodedJsonLineBytes f ≤ req.frameLimit
  chunks : ∀ f, .chunk f ∈ output.enqueued → f.rows.length ≤ chunkRows
  whole : ∀ f, .end_ f ∈ output.enqueued → f.complete = true → rowsOf output.enqueued = handed
  budget : WithinBudget req output.enqueued output.lifecycle

/-- The number a frame carries. -/
def ResponseFrame.seq : ResponseFrame → Nat
  | .result f => f.seq
  | .error f => f.seq
  | .begin f => f.seq
  | .chunk f => f.seq
  | .end_ f => f.seq

/-- The number the lifecycle expects next. -/
def OutputLifecycle.expectedSeq : OutputLifecycle → Nat
  | .streaming nextSeq => nextSeq
  | .notStarted | .terminal => 0

/-- A frame the sink can encode, with the number it expects. The sink accepts
it, unless the numbers of the stream are used up. -/
structure InOrder (ser : Json.Serializer) (output : OutputSink) (frame : ResponseFrame) : Prop where
  encodes : ∃ line, output.encodeBounded ser frame = .ok line
  seq : frame.seq = output.lifecycle.expectedSeq
  accepted : output.lifecycle = .streaming u32Max ∨ ∃ next, output.validateFrame frame = .ok next

/-- The stream's numbers are the sink's. -/
structure Synced (req : StreamRequest) (handed : List Json) (stream : StreamOutput)
    (output : OutputSink) : Prop where
  packaged : Packaged req handed output
  id : stream.id = req.id
  responseLimit : stream.responseLimit = req.responseLimit
  frameLimit : stream.frameLimit = req.frameLimit
  lifecycle : output.lifecycle = .streaming stream.nextSeq
  encodedBytes : stream.encodedBytes = totalBytes output.enqueued
  rows_le : stream.rows ≤ u64Max

/-- A failed send: the stream is still open, some row of `handed` is missing,
and the error fits into an end frame. -/
structure Cut (handed : List Json) (error : ProtocolError) (output : OutputSink) : Prop where
  modest : Modest error
  streaming : ∃ n, output.lifecycle = .streaming n
  missing : (rowsOf output.enqueued).length < handed.length

variable {ser : Json.Serializer} {req : StreamRequest} {handed rows : List Json}
  {stream : StreamOutput} {output : OutputSink} {frame : ResponseFrame}

/-! ## Sending a frame -/

theorem StreamRequest.frameLimit_pos (req : StreamRequest) : 0 < req.frameLimit :=
  Nat.lt_of_lt_of_le (by decide) req.frame_ge

theorem StreamRequest.frameLimit_u64 (req : StreamRequest) : req.frameLimit ≤ u64Max :=
  Nat.le_trans req.frame_le (by decide)

/-- The sizing of a frame under the limit of the request. -/
theorem StreamRequest.tryFrameBytes (req : StreamRequest) :
    tryFrameBytes ser frame req.frameLimit =
      .ok (if encodedJsonLineBytes frame ≤ req.frameLimit then some (encodedJsonLineBytes frame)
        else none) :=
  tryFrameBytes_eq req.frameLimit_pos req.frameLimit_u64

theorem StreamRequest.frameBytes (req : StreamRequest)
    (h : encodedJsonLineBytes frame ≤ req.frameLimit) :
    frameBytes ser frame req.frameLimit = .ok (encodedJsonLineBytes frame) := by
  unfold Server.frameBytes
  rw [req.tryFrameBytes, if_pos h]
  rfl

/-- A frame of this size passes the bounded encoder. -/
theorem encodes_of_le (ser : Json.Serializer) (hcap : output.maxEncodedFrameBytes = req.frameLimit)
    (h : encodedJsonLineBytes frame ≤ req.frameLimit) :
    ∃ line, output.encodeBounded ser frame = .ok line := by
  refine ⟨frame.toJson.render ++ ['\n'], (encodeBounded_iff ?_ ?_).mpr ⟨?_, rfl⟩⟩
  · rw [hcap]
    exact req.frameLimit_pos
  · rw [hcap]
    exact req.frameLimit_u64
  · rw [hcap]
    exact h

theorem validateFrame_chunk (rows : List Json) {n : Nat} (h : output.lifecycle = .streaming n) :
    output.validateFrame (.ofChunk output.requestId n rows) =
      if n < u32Max then .ok (.streaming (n + 1))
      else .error (protocolLifecycleError "response sequence overflow") := by
  unfold OutputSink.validateFrame
  simp only [h, ResponseFrame.ofChunk, and_self, if_true]

/-- An encodable frame is admitted exactly when `validate_frame` takes it. -/
theorem accept_encodes (h : ∃ line, output.encodeBounded ser frame = .ok line) :
    output.accept ser frame = output.validateFrame frame := by
  obtain ⟨line, hline⟩ := h
  unfold OutputSink.accept
  rw [hline]
  cases output.validateFrame frame <;> rfl

section Send
variable {α : Type} {I : OutputSink → Prop} {C : OutputSink → ResponseFrame → Prop}
  {Q : Except ProtocolError α → OutputSink → Prop} {E : OutputSink → Prop}

/-- `send_frame(&frame)?`. -/
theorem sendFrame_bind {k : Unit → Dispatch α} (hi : I output) (hc : C output frame)
    (hok : ∀ next, output.accept ser frame = .ok next →
      Guarantees ser I C Q E (k ()) (output.push frame next))
    (hrejected : ∀ error, output.accept ser frame = .error error → Q (.error error) output)
    (hrefused : ∀ error ∈ [queryCancelled, queryDeadlineExceeded, connectionDisconnected],
      Q (.error error) output) :
    Guarantees ser I C Q E ((sendFrame frame).bind k) output := by
  refine .call hi hc fun answer output' h => ?_
  cases h with
  | rejected ha => exact .done hi (hrejected _ ha)
  | refused _ he => exact .done hi (hrefused _ he)
  | enqueued ha => exact hok _ ha

end Send

/-- What one more frame has to bring along. -/
theorem Packaged.push (h : Packaged req handed output) {next : OutputLifecycle}
    (hle : encodedJsonLineBytes frame ≤ req.frameLimit)
    (hrows : rowsOf (output.enqueued ++ [frame]) <+: handed)
    (hchunk : ∀ f, frame = .chunk f → f.rows.length ≤ chunkRows)
    (hwhole : ∀ f, .end_ f ∈ output.enqueued ++ [frame] → f.complete = true →
      rowsOf (output.enqueued ++ [frame]) = handed)
    (hbudget : WithinBudget req (output.enqueued ++ [frame]) next) :
    Packaged req handed (output.push frame next) where
  requestId := h.requestId
  frameCap := h.frameCap
  rows := hrows
  fits f hf := by
    rcases List.mem_append.mp hf with hf | hf
    · exact h.fits f hf
    · rw [List.mem_singleton.mp hf]
      exact hle
  chunks f hf := by
    rcases List.mem_append.mp hf with hf | hf
    · exact h.chunks f hf
    · exact hchunk f (List.mem_singleton.mp hf).symm
  whole := hwhole
  budget := hbudget

/-! ## A chunk -/

theorem Synced.seq_le (h : Synced req handed stream output) : stream.nextSeq ≤ u32Max := by
  have hb := h.packaged.budget
  rw [h.lifecycle] at hb
  exact hb.1

theorem Synced.total_le (h : Synced req handed stream output) :
    totalBytes output.enqueued ≤ stream.nextSeq * req.frameLimit ∧
      totalBytes output.enqueued + terminalFrameReserveBytes ≤ req.responseLimit := by
  have hb := h.packaged.budget
  rw [h.lifecycle] at hb
  exact ⟨hb.2.1, hb.2.2.1⟩

/-- 2^32 frames of 256 KiB are far from 2^64 bytes. -/
theorem Synced.total_u64 (h : Synced req handed stream output) :
    totalBytes output.enqueued + chunkBytes + terminalFrameReserveBytes ≤ u64Max := by
  have hseq : stream.nextSeq * req.frameLimit ≤ u32Max * chunkBytes :=
    Nat.mul_le_mul h.seq_le req.frame_le
  have htotal := h.total_le.1
  have : u32Max * chunkBytes + chunkBytes + terminalFrameReserveBytes ≤ u64Max := by decide
  omega

theorem Synced.budget_ok (h : Synced req handed stream output) {bytes : Nat}
    (hbytes : bytes ≤ req.frameLimit)
    (hok : ensureResponseBudget stream.encodedBytes bytes stream.responseLimit = .ok ()) :
    totalBytes output.enqueued + bytes + terminalFrameReserveBytes ≤ req.responseLimit := by
  have hmax := h.total_u64
  have hle := req.frame_le
  unfold ensureResponseBudget at hok
  rw [h.encodedBytes, h.responseLimit,
    saturatingAdd_eq (a := totalBytes output.enqueued) (b := bytes) (by omega)] at hok
  rw [saturatingAdd_eq (by omega)] at hok
  simp only at hok
  split at hok
  · cases hok
  · omega

theorem ensureResponseBudget_modest {current next limit : Nat} {error : ProtocolError}
    (h : ensureResponseBudget current next limit = .error error) : Modest error := by
  unfold ensureResponseBudget at h
  simp only at h
  split at h <;> cases h
  exact modest_limitError (by decide)

/-- The stream's next chunk, when it fits. -/
theorem Synced.chunk_inOrder (h : Synced req handed stream output)
    (hle : encodedJsonLineBytes (.ofChunk stream.id stream.nextSeq rows) ≤ req.frameLimit) :
    InOrder ser output (.ofChunk stream.id stream.nextSeq rows) where
  encodes := encodes_of_le ser h.packaged.frameCap hle
  seq := by rw [h.lifecycle]; rfl
  accepted := by
    have hv := validateFrame_chunk rows h.lifecycle
    rw [h.packaged.requestId, ← h.id] at hv
    rw [hv, h.lifecycle]
    by_cases hlt : stream.nextSeq < u32Max
    · rw [if_pos hlt]
      exact .inr ⟨_, rfl⟩
    · exact .inl (congrArg _ (Nat.le_antisymm h.seq_le (Nat.le_of_not_lt hlt)))

theorem Synced.accept_chunk (h : Synced req handed stream output)
    (hle : encodedJsonLineBytes (.ofChunk stream.id stream.nextSeq rows) ≤ req.frameLimit) :
    output.accept ser (.ofChunk stream.id stream.nextSeq rows) =
      if stream.nextSeq < u32Max then .ok (.streaming (stream.nextSeq + 1))
      else .error (protocolLifecycleError "response sequence overflow") := by
  rw [accept_encodes (encodes_of_le ser h.packaged.frameCap hle)]
  have hv := validateFrame_chunk rows h.lifecycle
  rwa [h.packaged.requestId, ← h.id] at hv

/-- The sink after a chunk within the budget, and the stream that sent it. -/
theorem Synced.push_chunk (h : Synced req handed stream output)
    (hrows : rows.length ≤ chunkRows) (hpre : rowsOf output.enqueued ++ rows <+: handed)
    (hle : encodedJsonLineBytes (.ofChunk stream.id stream.nextSeq rows) ≤ req.frameLimit)
    (hbudget : totalBytes output.enqueued +
      encodedJsonLineBytes (.ofChunk stream.id stream.nextSeq rows) +
        terminalFrameReserveBytes ≤ req.responseLimit)
    (hseq : stream.nextSeq < u32Max) :
    Synced req handed
      { stream with
        encodedBytes := saturatingAdd stream.encodedBytes
          (encodedJsonLineBytes (.ofChunk stream.id stream.nextSeq rows))
        rows := saturatingAdd stream.rows rows.length
        nextSeq := stream.nextSeq + 1 }
      (output.push (.ofChunk stream.id stream.nextSeq rows)
        (.streaming (stream.nextSeq + 1))) := by
  have hb := h.packaged.budget
  rw [h.lifecycle] at hb
  obtain ⟨_, htotal, _, hend⟩ := hb
  have hmul : stream.nextSeq * req.frameLimit + req.frameLimit =
      (stream.nextSeq + 1) * req.frameLimit := (Nat.succ_mul _ _).symm
  have hmax := h.total_u64
  have hframe := req.frame_le
  have hopen : ∀ f, .end_ f ∉ output.enqueued ++ [.ofChunk stream.id stream.nextSeq rows] := by
    intro f hf
    rcases List.mem_append.mp hf with hf | hf
    · exact hend f hf
    · cases List.mem_singleton.mp hf
  have hbytes : totalBytes (output.enqueued ++ [.ofChunk stream.id stream.nextSeq rows]) =
      totalBytes output.enqueued +
        encodedJsonLineBytes (.ofChunk stream.id stream.nextSeq rows) := by
    rw [totalBytes_append, totalBytes_singleton]
  constructor
  · refine h.packaged.push hle ?_ ?_ (fun f hf => absurd hf (hopen f)) ⟨hseq, ?_, ?_, hopen⟩
    · simpa [ResponseFrame.ofChunk] using hpre
    · rintro f hf
      cases hf
      exact hrows
    · rw [hbytes]
      omega
    · rw [hbytes]
      exact hbudget
  · exact h.id
  · exact h.responseLimit
  · exact h.frameLimit
  · rfl
  · rw [h.encodedBytes, saturatingAdd_eq (by omega)]
    exact hbytes.symm
  · exact Nat.min_le_right _ _

/-! ## The rows of one group -/

/-- What sending `rows` leaves: all of them are on the channel, or the stream is cut. -/
def Sent (req : StreamRequest) (handed sent rows : List Json) :
    Except ProtocolError StreamOutput → OutputSink → Prop :=
  Proc.onResult (fun stream output =>
    Synced req handed stream output ∧ rowsOf output.enqueued = sent ++ rows) (Cut handed)

theorem Synced.cut (h : Synced req handed stream output) {error : ProtocolError}
    (hpre : rowsOf output.enqueued ++ rows <+: handed) (hne : rows ≠ []) (hm : Modest error) :
    Cut handed error output where
  modest := hm
  streaming := ⟨_, h.lifecycle⟩
  missing := by
    have hlen := hpre.length_le
    have hpos := List.length_pos_of_ne_nil hne
    rw [List.length_append] at hlen
    omega

/-- **Splitting loses, repeats and reorders nothing**: the halves of a group
that does not fit go out one after the other. -/
theorem sendRowsSplit_meets (hne : rows ≠ []) (h : Synced req handed stream output)
    (hrows : rows.length ≤ chunkRows) (hpre : rowsOf output.enqueued ++ rows <+: handed) :
    Guarantees ser (Packaged req handed) (InOrder ser)
      (Sent req handed (rowsOf output.enqueued) rows) (fun _ => False)
      (stream.sendRowsSplit ser rows hne) output := by
  induction hlen : rows.length using Nat.strong_induction_on generalizing rows stream output with
  | _ len ih =>
    subst hlen
    have hcut : ∀ error, Modest error → Cut handed error output := fun _ => h.cut hpre hne
    unfold StreamOutput.sendRowsSplit
    simp only [h.frameLimit, req.tryFrameBytes]
    by_cases hle : encodedJsonLineBytes (.ofChunk stream.id stream.nextSeq rows) ≤ req.frameLimit
    · simp only [if_pos hle, Proc.bind_eq]
      refine Proc.meets_lift_bind h.packaged (fun _ hb => ?_) fun e he =>
        hcut e (ensureResponseBudget_modest he)
      have hbudget := h.budget_ok hle hb
      refine sendFrame_bind h.packaged (h.chunk_inOrder hle) (fun next hn => ?_) (fun e he => ?_)
        fun e he => hcut e (modest_refusal he)
      · rw [h.accept_chunk hle] at hn
        split at hn <;> cases hn
        have hseq : stream.nextSeq < u32Max := ‹_›
        have hsync := h.push_chunk hrows hpre hle hbudget hseq
        have hadvance : stream.advance
            (encodedJsonLineBytes (.ofChunk stream.id stream.nextSeq rows)) rows.length =
              .ok _ := if_pos hseq
        rw [hadvance]
        refine .done hsync.packaged ⟨hsync, ?_⟩
        simp [OutputSink.push, ResponseFrame.ofChunk]
      · rw [h.accept_chunk hle] at he
        split at he <;> cases he
        exact hcut _ (modest_empty (by decide))
    · simp only [if_neg hle]
      by_cases hone : rows.length = 1
      · rw [dif_pos hone]
        exact Proc.meets_fail h.packaged (hcut _ (modest_limitError (by decide)))
      · rw [dif_neg hone]
        have hpos := List.length_pos_of_ne_nil hne
        have happ : rows.take (rows.length / 2) ++ rows.drop (rows.length / 2) = rows :=
          List.take_append_drop _ _
        have hfirst : rowsOf output.enqueued ++ rows.take (rows.length / 2) <+: handed := by
          rw [← happ, ← List.append_assoc] at hpre
          exact (List.prefix_append _ _).trans hpre
        refine Proc.meets_bind ((ih _ (by rw [List.length_take]; omega) _ h
          (by rw [List.length_take]; omega) hfirst rfl).mono fun result output' _ hsent => ?_)
        cases result with
        | error e => exact hsent
        | ok stream' =>
          obtain ⟨hsync, hsofar⟩ := hsent
          refine (ih _ (by rw [List.length_drop]; omega) _ hsync
            (by rw [List.length_drop]; omega) ?_ rfl).mono fun result output'' _ hsent => ?_
          · rw [hsofar, List.append_assoc, happ]
            exact hpre
          · cases result with
            | error e => exact hsent
            | ok stream'' =>
              refine ⟨hsent.1, ?_⟩
              rw [hsent.2, hsofar, List.append_assoc, happ]

theorem sendRows_meets (h : Synced req handed stream output) (hrows : rows.length ≤ chunkRows)
    (hpre : rowsOf output.enqueued ++ rows <+: handed) :
    Guarantees ser (Packaged req handed) (InOrder ser)
      (Sent req handed (rowsOf output.enqueued) rows) (fun _ => False)
      (stream.sendRows ser rows) output := by
  unfold StreamOutput.sendRows
  split
  · rename_i hnil
    subst hnil
    exact Proc.Meets.done h.packaged ⟨h, (List.append_nil _).symm⟩
  · exact sendRowsSplit_meets _ h hrows hpre

/-- A single row larger than a frame is an error. -/
theorem sendRowsSplit_oversize {row : Json} (hframe : stream.frameLimit = req.frameLimit)
    (h : req.frameLimit < encodedJsonLineBytes (.ofChunk stream.id stream.nextSeq [row])) :
    stream.sendRowsSplit ser [row] (List.cons_ne_nil _ _) =
      .fail (limitError "chunk_bytes" req.frameLimit (req.frameLimit + 1)) := by
  unfold StreamOutput.sendRowsSplit
  simp only [hframe, req.tryFrameBytes, if_neg (Nat.not_le.mpr h)]
  rfl

/-! ## Both ends -/

/-- A sink nothing was sent to. -/
structure Fresh (req : StreamRequest) (output : OutputSink) : Prop where
  requestId : output.requestId = req.id
  frameCap : output.maxEncodedFrameBytes = req.frameLimit
  lifecycle : output.lifecycle = .notStarted
  enqueued : output.enqueued = []

theorem Fresh.packaged (h : Fresh req output) : Packaged req handed output where
  requestId := h.requestId
  frameCap := h.frameCap
  rows := by simp [h.enqueued]
  fits := by simp [h.enqueued]
  chunks := by simp [h.enqueued]
  whole := by simp [h.enqueued]
  budget := by
    rw [h.lifecycle]
    exact h.enqueued

/-- What `begin` leaves: a stream without rows, or nothing at all. -/
def Begun (req : StreamRequest) (handed : List Json) :
    Except ProtocolError StreamOutput → OutputSink → Prop :=
  Proc.onResult (fun stream output =>
    Synced req handed stream output ∧ rowsOf output.enqueued = [])
    fun _ output => output.lifecycle = .notStarted

theorem begin_meets {schema : String} {generation : Nat} (h : Fresh req output)
    (hschema : schema = "signal_name.v1" ∨ schema = "time_value.v1")
    (hgeneration : generation ≤ u64Max) :
    Guarantees ser (Packaged req handed) (InOrder ser) (Begun req handed) (fun _ => False)
      (StreamOutput.begin ser req.id schema generation req.responseLimit req.frameLimit)
      output := by
  have hsmall := begin_small req.id_le hschema hgeneration
  have hle := Nat.le_trans hsmall req.frame_ge
  have hencodes := encodes_of_le ser h.frameCap hle
  have hvalid : output.validateFrame (.ofBegin req.id schema (Nat.repr generation)) =
      .ok (.streaming 1) := by
    unfold OutputSink.validateFrame
    simp only [h.lifecycle, h.requestId, ResponseFrame.ofBegin, and_self, if_true]
  unfold StreamOutput.begin
  simp only [req.frameBytes hle, Proc.bind_eq]
  refine Proc.meets_lift_bind h.packaged (fun bytes hbytes => ?_) (fun _ he => by cases he)
  cases hbytes
  refine Proc.meets_lift_bind h.packaged (fun _ hb => ?_) fun _ _ => h.lifecycle
  refine sendFrame_bind h.packaged ⟨hencodes, by rw [h.lifecycle]; rfl, .inr ⟨_, hvalid⟩⟩
    (fun next hn => ?_) (fun _ _ => h.lifecycle) fun _ _ => h.lifecycle
  rw [accept_encodes hencodes, hvalid] at hn
  cases hn
  have hbudget : encodedJsonLineBytes (.ofBegin req.id schema (Nat.repr generation)) +
      terminalFrameReserveBytes ≤ req.responseLimit := by
    have hreserve : 2 * terminalFrameReserveBytes ≤ u64Max := by decide
    unfold ensureResponseBudget at hb
    rw [saturatingAdd_eq (a := 0) (by omega)] at hb
    rw [saturatingAdd_eq (by omega)] at hb
    simp only at hb
    split at hb
    · cases hb
    · omega
  have hsync : Synced req handed
      { id := req.id, nextSeq := 1,
        encodedBytes := encodedJsonLineBytes (.ofBegin req.id schema (Nat.repr generation)),
        rows := 0, responseLimit := req.responseLimit, frameLimit := req.frameLimit }
      (output.push (.ofBegin req.id schema (Nat.repr generation)) (.streaming 1)) := by
    have hframes : output.enqueued ++ [.ofBegin req.id schema (Nat.repr generation)] =
        [.ofBegin req.id schema (Nat.repr generation)] := by rw [h.enqueued, List.nil_append]
    refine ⟨h.packaged.push hle ?_ ?_ ?_ ?_, rfl, rfl, rfl, rfl, ?_, Nat.zero_le _⟩
    · simp [h.enqueued, ResponseFrame.ofBegin]
    · simp [ResponseFrame.ofBegin]
    · simp [h.enqueued, ResponseFrame.ofBegin]
    · refine ⟨by decide, ?_, ?_, ?_⟩
      · rw [hframes, totalBytes_singleton, Nat.one_mul]
        exact hle
      · rw [hframes, totalBytes_singleton]
        exact hbudget
      · simp [h.enqueued, ResponseFrame.ofBegin]
    · simp [OutputSink.push, h.enqueued]
  refine .done hsync.packaged ⟨hsync, ?_⟩
  simp [OutputSink.push, h.enqueued, ResponseFrame.ofBegin]

/-- **The end frame of an accepted stream never fails on its budget**: `finish`
does nothing but send it. -/
theorem Synced.finish_eq (ser : Json.Serializer) (h : Synced req handed stream output) {elapsedMs commands : Nat}
    (hms : elapsedMs < 2 ^ 128) (hcommands : commands ≤ u64Max) :
    ∃ f : EndFrame, stream.finish ser elapsedMs commands = sendFrame (.end_ f) ∧
      f.id = req.id ∧ f.seq = stream.nextSeq ∧ f.complete = true ∧
      f.stats.map StreamStats.encodedBytes =
        some (Nat.repr (totalBytes (output.enqueued ++ [.end_ f]))) ∧
      encodedJsonLineBytes (.end_ f) ≤ terminalFrameReserveBytes := by
  have hmax := h.total_u64
  have hlimit := h.total_le.2
  obtain ⟨f, hend, hid, hseq, hcomplete, hstats, hsmall⟩ := endSuccess_some
    (by rw [h.id]; exact req.id_le) h.seq_le h.rows_le hms hcommands
    (by rw [h.encodedBytes]; omega)
  refine ⟨f, ?_, hid.trans h.id, hseq, hcomplete, ?_, hsmall⟩
  · unfold StreamOutput.finish
    rw [hend]
    simp only [h.frameLimit, req.frameBytes (Nat.le_trans hsmall req.frame_ge), Proc.lift,
      Proc.bind_eq, Proc.bind_ok]
    rw [h.encodedBytes, h.responseLimit, saturatingAdd_eq (by omega), if_neg (by omega)]
  · rw [hstats, h.encodedBytes, totalBytes_append, totalBytes_singleton]

/-- How a handler ends: with all rows and the end frame on the channel, before
its begin frame, or in a stream that the worker has to end. There, once every
row went out and nothing else was wrong, `send_frame` refused the end frame. -/
def Ended (handed : List Json) (settled : Prop) :
    Except ProtocolError Unit → OutputSink → Prop
  | .ok (), output => output.lifecycle = .terminal ∧ rowsOf output.enqueued = handed
  | .error error, output => output.lifecycle = .notStarted ∨
      (∃ n, output.lifecycle = .streaming n) ∧ Modest error ∧
        (settled → rowsOf output.enqueued = handed →
          error ∈ [queryCancelled, queryDeadlineExceeded, connectionDisconnected])

theorem Cut.ended {error : ProtocolError} (h : Cut handed error output) (settled : Prop) :
    Ended handed settled (.error error) output := by
  refine .inr ⟨h.streaming, h.modest, fun _ hall => ?_⟩
  have hmissing := h.missing
  rw [hall] at hmissing
  exact absurd hmissing (Nat.lt_irrefl _)

theorem finish_meets (h : Synced req handed stream output) {elapsedMs commands : Nat}
    (hms : elapsedMs < 2 ^ 128) (hcommands : commands ≤ u64Max)
    (hall : rowsOf output.enqueued = handed) (settled : Prop) :
    Guarantees ser (Packaged req handed) (InOrder ser) (Ended handed settled) (fun _ => False)
      (stream.finish ser elapsedMs commands) output := by
  obtain ⟨f, hf, hid, hseq, -, -, hsmall⟩ := h.finish_eq ser hms hcommands
  have hle := Nat.le_trans hsmall req.frame_ge
  have hencodes := encodes_of_le ser h.packaged.frameCap hle
  have hvalid : output.validateFrame (.end_ f) = .ok .terminal := by
    unfold OutputSink.validateFrame
    simp only [h.lifecycle, h.packaged.requestId, hid, hseq, and_self, if_true]
  rw [hf]
  refine .call h.packaged ⟨hencodes, ?_, .inr ⟨_, hvalid⟩⟩ fun answer output' hs => ?_
  · rw [h.lifecycle]
    exact hseq
  · cases hs with
    | rejected ha =>
      rw [accept_encodes hencodes, hvalid] at ha
      cases ha
    | refused _ he =>
      exact .done h.packaged (.inr ⟨⟨_, h.lifecycle⟩, modest_refusal he, fun _ _ => he⟩)
    | enqueued ha =>
      rw [accept_encodes hencodes, hvalid] at ha
      cases ha
      have hrows : rowsOf (output.enqueued ++ [.end_ f]) = handed := by simpa using hall
      refine .done (h.packaged.push hle ?_ ?_ (fun _ _ _ => hrows) ?_) ⟨rfl, hrows⟩
      · rw [hrows]
      · exact fun _ hg => by cases hg
      · have hlimit := h.total_le.2
        change totalBytes (output.enqueued ++ [.end_ f]) ≤ req.responseLimit
        rw [totalBytes_append, totalBytes_singleton]
        omega

end VcdTools.Server
