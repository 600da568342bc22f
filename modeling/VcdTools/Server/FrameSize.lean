import VcdTools.Server.EndFrame
import VcdTools.Server.Service

/-! # The sizes of frames

The service's sizing and the runtime's bounded encoder are two writers with
the same cap; both accept exactly the frames within the limit. The frames
around a stream's chunks are small: a begin frame and either end frame fit
into the bytes reserved for a terminal, and the end frame that states the size
of its own stream exists. -/
namespace VcdTools.Server
open VcdTools.Query VcdTools.Lib Json

variable {ser : Json.Serializer} {frame : ResponseFrame} {frameLimit : Nat}

/-! ## The two writers -/

theorem saturatingAdd_gt {a b cap : Nat} (hcap : cap < u64Max) :
    saturatingAdd a b > cap ↔ a + b > cap := by
  unfold saturatingAdd
  omega

theorem saturatingAdd_eq {a b : Nat} (h : a + b ≤ u64Max) : saturatingAdd a b = a + b := by
  unfold saturatingAdd
  omega

theorem CappedCounter.write_fits {w : CappedCounter} {piece : List Char} (hcap : w.cap < u64Max)
    (h : w.written + bytes piece ≤ w.cap) :
    w.write piece = ({ w with written := w.written + bytes piece }, true) := by
  unfold CappedCounter.write
  simp only
  rw [if_neg (by rw [saturatingAdd_gt hcap]; omega), saturatingAdd_eq (by omega)]

theorem CappedCounter.write_over {w : CappedCounter} {piece : List Char} (hcap : w.cap < u64Max)
    (h : w.cap < w.written + bytes piece) : w.write piece = ({ w with exceeded := true }, false) := by
  unfold CappedCounter.write
  simp only
  rw [if_pos (by rw [saturatingAdd_gt hcap]; omega)]

/-- **The sizing accepts exactly the frames within the limit.** -/
theorem tryFrameBytes_eq (hpos : 0 < frameLimit) (hmax : frameLimit ≤ u64Max) :
    tryFrameBytes ser frame frameLimit =
      .ok (if encodedJsonLineBytes frame ≤ frameLimit then some (encodedJsonLineBytes frame)
        else none) := by
  have key := writeAll_fits CappedCounter.write CappedCounter.written (frameLimit - 1)
    (fun w => w.cap = frameLimit - 1) (fun w => w.exceeded = true)
    (by
      rintro w piece hw hle
      rw [CappedCounter.write_fits (by omega) (by omega)]
      exact ⟨rfl, hw, rfl⟩)
    (by
      rintro w piece hw hlt
      rw [CappedCounter.write_over (by omega) (by omega)]
      exact ⟨rfl, rfl⟩)
    (ser.pieces frame.toJson) (.new frameLimit) rfl (Nat.zero_le _)
  rw [ser.flatten_pieces] at key
  unfold tryFrameBytes encodedJsonLineBytes size
  rcases heq : writeAll CappedCounter.write (.new frameLimit) (ser.pieces frame.toJson) with
    ⟨counter, accepted⟩
  rw [heq] at key
  simp only [CappedCounter.new, Nat.zero_add] at key
  split at key
  · obtain ⟨rfl, hlen⟩ := key
    rw [if_pos (by omega)]
    simp only [hlen]
  · obtain ⟨rfl, hover⟩ := key
    rw [if_neg (by omega)]
    simp only [hover, if_true]

theorem CappedJsonLineWriter.write_fits (w : CappedJsonLineWriter) (piece : List Char)
    (hcap : w.payloadCap < u64Max) (h : Json.bytes w.bytes + Json.bytes piece ≤ w.payloadCap) :
    (w.write piece).2 = true ∧ (w.write piece).1.payloadCap = w.payloadCap := by
  unfold CappedJsonLineWriter.write
  simp only
  rw [if_neg (by rw [saturatingAdd_gt hcap]; omega)]
  exact ⟨rfl, rfl⟩

theorem CappedJsonLineWriter.write_over {w : CappedJsonLineWriter} {piece : List Char}
    (hcap : w.payloadCap < u64Max) (h : w.payloadCap < Json.bytes w.bytes + Json.bytes piece) :
    (w.write piece).2 = false := by
  unfold CappedJsonLineWriter.write
  simp only
  rw [if_pos (by rw [saturatingAdd_gt hcap]; omega)]

theorem CappedJsonLineWriter.write_keeps (w : CappedJsonLineWriter) (piece : List Char)
    (h : (w.write piece).2 = true) : (w.write piece).1.bytes = w.bytes ++ piece := by
  unfold CappedJsonLineWriter.write at h ⊢
  simp only at h ⊢
  split at h
  · cases h
  · rw [if_neg ‹_›]

/-- **The bounded encoder accepts exactly the frames within the limit**, and
its line is the frame's text. -/
theorem encodeBounded_iff {output : OutputSink} {line : List Char}
    (hpos : 0 < output.maxEncodedFrameBytes) (hmax : output.maxEncodedFrameBytes ≤ u64Max) :
    output.encodeBounded ser frame = .ok line ↔
      encodedJsonLineBytes frame ≤ output.maxEncodedFrameBytes ∧
        line = frame.toJson.render ++ ['\n'] := by
  have key := writeAll_fits CappedJsonLineWriter.write (fun w => Json.bytes w.bytes)
    (output.maxEncodedFrameBytes - 1)
    (fun w => w.payloadCap = output.maxEncodedFrameBytes - 1) (fun _ => True)
    (by
      intro w piece hw hle
      obtain ⟨htrue, hcap⟩ :=
        CappedJsonLineWriter.write_fits w piece (by rw [hw]; omega)
          (by rw [hw]; exact hle)
      refine ⟨htrue, hcap.trans hw, ?_⟩
      rw [CappedJsonLineWriter.write_keeps w piece htrue, bytes_append])
    (by
      intro w piece hw hlt
      exact ⟨CappedJsonLineWriter.write_over (by rw [hw]; omega) (by rw [hw]; exact hlt), trivial⟩)
    (ser.pieces frame.toJson) (.new output.maxEncodedFrameBytes) rfl (Nat.zero_le _)
  have keeps := writeAll_keeps CappedJsonLineWriter.write CappedJsonLineWriter.bytes
    CappedJsonLineWriter.write_keeps (ser.pieces frame.toJson) (.new output.maxEncodedFrameBytes)
  rw [ser.flatten_pieces] at key keeps
  unfold OutputSink.encodeBounded encodedJsonLineBytes size
  rcases heq : writeAll CappedJsonLineWriter.write (.new output.maxEncodedFrameBytes)
    (ser.pieces frame.toJson) with ⟨writer, accepted⟩
  rw [heq] at key keeps
  simp only [CappedJsonLineWriter.new, bytes_nil, Nat.zero_add, List.nil_append] at key keeps
  split at key
  · obtain ⟨rfl, _⟩ := key
    simp only [keeps rfl, Except.ok.injEq]
    constructor
    · rintro rfl
      exact ⟨by omega, rfl⟩
    · rintro ⟨_, rfl⟩
      rfl
  · obtain ⟨rfl, _⟩ := key
    simp only [reduceCtorEq, false_iff, not_and]
    intro hle
    omega

/-! ## Small frames -/

/-- The text of the keys and constants of the frames. -/
theorem keyBytes :
    bytes (string "v") = 3 ∧ bytes (string "id") = 4 ∧ bytes (string "seq") = 5 ∧
    bytes (string "type") = 6 ∧ bytes (string "complete") = 10 ∧ bytes (string "stats") = 7 ∧
    bytes (string "error") = 7 ∧ bytes (string "rows") = 6 ∧
    bytes (string "encoded_bytes") = 15 ∧ bytes (string "elapsed_ms") = 12 ∧
    bytes (string "commands") = 10 ∧ bytes (string "backend") = 9 ∧
    bytes (string "schema") = 8 ∧ bytes (string "generation") = 12 ∧
    bytes (string "end") = 5 ∧ bytes (string "ok") = 4 ∧ bytes (string "begin") = 7 ∧ bytes (string "stream") = 8 ∧
    bytes (string "signal_name.v1") = 16 ∧ bytes (string "time_value.v1") = 15 := by
  decide

theorem errorKeyBytes :
    bytes (string "code") = 6 ∧ bytes (string "message") = 9 ∧ bytes (string "details") = 9 ∧
    bytes (string "retryable") = 11 ∧ bytes (string "kind") = 6 ∧ bytes (string "limit") = 7 ∧
    bytes (string "actual") = 8 ∧ bytes (string "signals") = 9 ∧ bytes (string "format") = 8 := by
  decide

theorem digits_u32 {n : Nat} (h : n ≤ u32Max) : digits n ≤ 10 := by
  rw [digits_le_iff (by decide)]
  exact Nat.lt_of_le_of_lt h (by decide)

theorem digits_version : digits protocolVersion = 1 := by decide

/-- A request id is at most 128 bytes long. -/
theorem string_id_le {id : String} (h : strBytes id ≤ maxRequestIdBytes) :
    bytes (string id) ≤ 770 := by
  have := string_le id
  unfold maxRequestIdBytes at h
  omega

section Small
variable {id : String} (hid : strBytes id ≤ maxRequestIdBytes)
include hid

theorem begin_small {schema : String} {generation : Nat}
    (hschema : schema = "signal_name.v1" ∨ schema = "time_value.v1")
    (hgeneration : generation ≤ u64Max) :
    encodedJsonLineBytes (.ofBegin id schema (Nat.repr generation)) ≤
      terminalFrameReserveBytes := by
  have hidSize := string_id_le hid
  have hgenerationSize := digits_u64 hgeneration
  have hschemaSize : bytes (string schema) ≤ 16 := by
    rcases hschema with rfl | rfl <;> decide
  simp only [encodedJsonLineBytes, ResponseFrame.ofBegin, ResponseFrame.toJson, size_obj_cons,
    renderFields_cons, renderFields_nil, size_num, size_str, string_repr_bytes, keyBytes,
    digits_version, digits_zero, terminalFrameReserveBytes]
  omega

/-- An error frame of this size always fits into the reserve. -/
def Modest (error : ProtocolError) : Prop := error.toJson.size ≤ 3000

theorem error_small {error : ProtocolError} (herror : Modest error) :
    encodedJsonLineBytes (.ofError (some id) 0 error) ≤ terminalFrameReserveBytes := by
  have hidSize := string_id_le hid
  unfold Modest at herror
  simp only [encodedJsonLineBytes, ResponseFrame.ofError, ResponseFrame.toJson, Option.elim,
    size_obj_cons, renderFields_cons, renderFields_nil, size_num, size_str, keyBytes,
    digits_version, digits_zero, size_false, terminalFrameReserveBytes]
  omega

theorem endError_small {seq : Nat} {error : ProtocolError} (hseq : seq ≤ u32Max)
    (herror : Modest error) :
    encodedJsonLineBytes (.endError id seq error) ≤ terminalFrameReserveBytes := by
  have hidSize := string_id_le hid
  have hseqSize := digits_u32 hseq
  unfold Modest at herror
  simp only [encodedJsonLineBytes, ResponseFrame.endError, ResponseFrame.toJson, Option.elim,
    List.append_nil, List.cons_append, List.nil_append, size_obj_cons, renderFields_cons,
    renderFields_nil, size_num, size_str, keyBytes, digits_version, size_false,
    terminalFrameReserveBytes]
  omega

end Small

/-! ## The end frame states its own stream's size -/

/-- **The end frame of a stream exists**, ends the stream it is made for, and
fits into the reserve. -/
theorem endSuccess_some {stream : StreamOutput} {elapsedMs commands : Nat}
    (hid : strBytes stream.id ≤ maxRequestIdBytes) (hseq : stream.nextSeq ≤ u32Max)
    (hrows : stream.rows ≤ u64Max) (hms : elapsedMs < 2 ^ 128) (hcommands : commands ≤ u64Max)
    (hprior : stream.encodedBytes + terminalFrameReserveBytes ≤ u64Max) :
    ∃ f : EndFrame, ResponseFrame.endSuccess stream.id stream.nextSeq
        (stream.stats elapsedMs commands) stream.encodedBytes = some (.end_ f) ∧
      f.id = stream.id ∧ f.seq = stream.nextSeq ∧ f.complete = true ∧
      f.stats.map StreamStats.encodedBytes =
        some (Nat.repr (stream.encodedBytes + encodedJsonLineBytes (.end_ f))) ∧
      encodedJsonLineBytes (.end_ f) ≤ terminalFrameReserveBytes := by
  have hidSize := string_id_le hid
  have hseqSize := digits_u32 hseq
  have hrowsSize := digits_u64 hrows
  have hcommandsSize := digits_u64 hcommands
  have helapsedSize : digits elapsedMs ≤ 39 := by
    rw [digits_le_iff (by decide)]
    exact Nat.lt_trans hms (by decide)
  have hcompleteSize : size (.bool true) ≤ 5 := size_bool_le true
  obtain ⟨base, hsize⟩ := endFrame_size stream.id stream.nextSeq (stream.stats elapsedMs commands)
  have hbase : base ≤ 1200 := by
    have hzero := hsize 0
    simp only [encodedJsonLineBytes, endFrame, ResponseFrame.toJson, StreamOutput.stats,
      StreamStats.toJson, Option.elim, List.append_nil, List.cons_append, List.nil_append,
      size_obj_cons, renderFields_cons, renderFields_nil, size_num, size_str,
      string_repr_bytes, keyBytes, digits_version, digits_zero] at hzero
    omega
  unfold terminalFrameReserveBytes at hprior ⊢
  obtain ⟨total, hleast, hnear⟩ := exists_least_total stream.encodedBytes hsize
  have hle : total ≤ u64Max := (hnear 20 (digits_u64 (by omega))).trans (by omega)
  have htotal : stream.encodedBytes + encodedJsonLineBytes (endFrame stream.id stream.nextSeq
      (stream.stats elapsedMs commands) total) = total := hleast.1
  have hend : ResponseFrame.endSuccess stream.id stream.nextSeq (stream.stats elapsedMs commands)
      stream.encodedBytes = some (endFrame _ _ _ total) :=
    (endSuccessFrom_eq hsize hleast).trans (if_pos hle)
  refine ⟨_, hend, rfl, rfl, rfl, congrArg (fun t => some (Nat.repr t)) htotal.symm, ?_⟩
  have hsmall := hsize total
  have := digits_u64 hle
  exact hsmall.trans_le (by omega)

/-! ## Modest errors -/

theorem takeBytes_le (max : Nat) (cs : List Char) : bytes (takeBytes max cs) ≤ max := by
  induction cs generalizing max with
  | nil => exact Nat.zero_le _
  | cons c cs ih =>
    unfold takeBytes
    split
    · have := ih (max - c.utf8Size)
      rw [bytes_cons]
      omega
    · exact Nat.zero_le _

theorem mem_takeBytes {max : Nat} {cs : List Char} {c : Char} (h : c ∈ takeBytes max cs) :
    c ∈ cs := by
  induction cs generalizing max with
  | nil => exact h
  | cons d ds ih =>
    unfold takeBytes at h
    split at h
    · rcases List.mem_cons.mp h with rfl | h
      · exact List.mem_cons_self
      · exact List.mem_cons_of_mem _ (ih h)
    · cases h

theorem truncateUtf8_short {text : String} {max : Nat} (h : strBytes text ≤ max) :
    truncateUtf8 text max = text := if_pos h

theorem ellipsis_bytes : ellipsis.utf8Size = 3 ∧ escape [ellipsis] = [ellipsis] := by decide

theorem truncateUtf8_le (text : String) : strBytes (truncateUtf8 text 256) ≤ 256 := by
  unfold truncateUtf8
  split
  · assumption
  · have := takeBytes_le (256 - ellipsis.utf8Size) text.toList
    rw [ellipsis_bytes.1] at this
    rw [strBytes, String.toList_ofList, bytes_append, bytes_cons, bytes_nil, ellipsis_bytes.1]
    omega

/-- A number in the details keeps its size in any case. -/
theorem string_number_le (n : Nat) : bytes (string (truncateUtf8 (Nat.repr n) 256)) ≤ 258 := by
  have hle := truncateUtf8_le (Nat.repr n)
  have hplain : escape (truncateUtf8 (Nat.repr n) 256).toList =
      (truncateUtf8 (Nat.repr n) 256).toList := by
    unfold truncateUtf8
    split
    · rw [Nat.toList_repr]
      exact (escape_digits (decimal_isDigit n)).1
    · rw [String.toList_ofList, Nat.toList_repr]
      have hdigits : ∀ c ∈ takeBytes (256 - ellipsis.utf8Size) (Nat.toDigits 10 n),
          c.isDigit = true := fun c hc => decimal_isDigit n c (mem_takeBytes hc)
      have := (escape_digits hdigits).1
      rw [escape] at this ⊢
      rw [List.flatMap_append, this]
      exact congrArg _ ellipsis_bytes.2
  rw [string_bytes, hplain]
  rw [strBytes] at hle
  omega

theorem asStr_le (code : ProtocolErrorCode) : bytes (string code.asStr) ≤ 22 := by
  cases code <;> decide

theorem new_size {code : ProtocolErrorCode} {message : String} {details : Json}
    {retryable : Bool} (hm : strBytes message ≤ 60) :
    (ProtocolError.new code message details retryable).toJson.size ≤
      500 + (boundErrorDetails 4 details).size := by
  have hcodeSize := asStr_le code
  have hmessageSize := string_le message
  have hretryableSize := size_bool_le retryable
  have hkept : truncateUtf8 message maxErrorMessageBytes = message :=
    truncateUtf8_short (by unfold maxErrorMessageBytes; omega)
  simp only [ProtocolError.new, ProtocolError.toJson, hkept, size_obj_cons, renderFields_cons,
    renderFields_nil, size_str, errorKeyBytes]
  omega

theorem modest_of_details {code : ProtocolErrorCode} {message : String} {details : Json}
    {retryable : Bool} (hm : strBytes message ≤ 60)
    (hd : (boundErrorDetails 4 details).size ≤ 2500) :
    Modest (.new code message details retryable) :=
  Nat.le_trans (new_size hm) (by omega)

theorem modest_empty {code : ProtocolErrorCode} {message : String} {retryable : Bool}
    (hm : strBytes message ≤ 60) :
    Modest (.new code message (Json.object []) retryable) :=
  modest_of_details hm (by decide)

theorem modest_limit {code : ProtocolErrorCode} {message kind : String} {limit actual : Nat}
    {retryable : Bool} (hm : strBytes message ≤ 60) (hk : strBytes kind ≤ 30) :
    Modest (.new code message (Json.object [("kind", .str kind), ("limit", .str (Nat.repr limit)),
      ("actual", .str (Nat.repr actual))]) retryable) := by
  have hd : boundErrorDetails 4 (Json.object [("kind", .str kind),
      ("limit", .str (Nat.repr limit)), ("actual", .str (Nat.repr actual))]) =
      .obj [("actual", .str (truncateUtf8 (Nat.repr actual) 256)),
        ("kind", .str (truncateUtf8 kind 256)),
        ("limit", .str (truncateUtf8 (Nat.repr limit) 256))] := rfl
  have hlimitSize := string_number_le limit
  have hactualSize := string_number_le actual
  have hkindSize := string_le kind
  have hkept : truncateUtf8 kind 256 = kind := truncateUtf8_short (by omega)
  refine modest_of_details hm ?_
  rw [hd, hkept]
  simp only [size_obj_cons, renderFields_cons, renderFields_nil, size_str, errorKeyBytes]
  omega

theorem modest_signal {code : ProtocolErrorCode} {message signal : String} {retryable : Bool}
    (hm : strBytes message ≤ 60) :
    Modest (.new code message (Json.object [("signals", .arr [.str signal])]) retryable) := by
  have hd : boundErrorDetails 4 (Json.object [("signals", .arr [.str signal])]) =
      .obj [("signals", .arr [.str (truncateUtf8 signal 256)])] := rfl
  have hsignalSize := string_le (truncateUtf8 signal 256)
  have hshort := truncateUtf8_le signal
  refine modest_of_details hm ?_
  rw [hd]
  simp only [size_obj_cons, renderFields_nil, size_arr_one, size_str, errorKeyBytes]
  omega

/-- Every mapped query error is modest but the one that lists missing signals. -/
theorem modest_fromQuery {error : QueryError} (h : error.listsNames = false) :
    Modest (protocolErrorFromQuery error) := by
  cases error with
  | limitExceeded kind limit actual =>
    exact modest_limit (by decide) (by cases kind <;> decide)
  | signalNotFound signal => exact modest_signal (by decide)
  | vcd error =>
    cases error with
    | missingSignal signal => exact modest_signal (by decide)
    | missingSignals signals => cases h
    | invalidOccurrence | io _ | missingEndDefinitions | duplicateSignal _ | parse _ =>
      exact modest_empty (by decide)
  | fst message => exact modest_of_details (by decide) (by decide)
  | cancelled | deadlineExceeded | staleSource _ | queueFull | sourceUnavailable _
  | unsupportedWaveform _ | internal _ => exact modest_empty (by decide)

theorem modest_limitError {kind : String} {limit actual : Nat} (hk : strBytes kind ≤ 30) :
    Modest (limitError kind limit actual) := modest_limit (by decide) hk

/-- Whatever `send_frame` refuses a frame with is modest. -/
theorem modest_refusal {error : ProtocolError}
    (h : error ∈ [queryCancelled, queryDeadlineExceeded, connectionDisconnected]) :
    Modest error := by
  simp only [List.mem_cons, List.not_mem_nil, or_false] at h
  rcases h with rfl | rfl | rfl <;> exact modest_empty (by decide)

end VcdTools.Server
