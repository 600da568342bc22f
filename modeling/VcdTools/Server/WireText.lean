import VcdTools.Lib.JsonText
import VcdTools.Query.FormatValue
import VcdTools.Server.WireDelivery
import VcdTools.Server.WorkStats

/-! # What the bytes of a response say

The lines of a stream of frames tell these frames and no others, and a row of
an extract request tells its event. So a response is the only one with its
bytes: two waveforms that answer an extract request alike have the same events
for it. -/
namespace VcdTools.Server
open VcdTools.Lib VcdTools.Lib.Iter VcdTools.Query VcdTools.Opened

/-! ## Frames -/

theorem asStr_injective {code code' : ProtocolErrorCode} (h : code.asStr = code'.asStr) :
    code = code' := by
  cases code <;> cases code' <;> first | rfl | simp [ProtocolErrorCode.asStr] at h

theorem ProtocolError.toJson_injective {error error' : ProtocolError}
    (h : error.toJson = error'.toJson) : error = error' := by
  obtain ⟨code, message, details, retryable⟩ := error
  obtain ⟨code', message', details', retryable'⟩ := error'
  simp only [toJson, Json.obj.injEq, List.cons.injEq, Prod.mk.injEq, Json.str.injEq,
    Json.bool.injEq, true_and, and_true] at h
  obtain ⟨hcode, rfl, rfl, rfl⟩ := h
  rw [asStr_injective hcode]

theorem StreamStats.toJson_injective {stats stats' : StreamStats}
    (h : stats.toJson = stats'.toJson) : stats = stats' := by
  cases stats
  cases stats'
  simpa [toJson] using h

/-- The optional fields behind the others of an end frame. -/
theorem optional_injective {stats stats' : Option StreamStats} {error error' : Option ProtocolError}
    (h : (stats.elim [] fun stats => [("stats", stats.toJson)]) ++
        (error.elim [] fun error => [("error", error.toJson)]) =
      (stats'.elim [] fun stats => [("stats", stats.toJson)]) ++
        (error'.elim [] fun error => [("error", error.toJson)])) :
    stats = stats' ∧ error = error' := by
  have hstats : ∀ {a b : StreamStats}, a.toJson = b.toJson → a = b :=
    StreamStats.toJson_injective
  have herror : ∀ {a b : ProtocolError}, a.toJson = b.toJson → a = b :=
    ProtocolError.toJson_injective
  cases stats <;> cases stats' <;> cases error <;> cases error' <;> simp at h ⊢
  all_goals grind

/-- **The JSON of a frame tells the frame.** -/
theorem ResponseFrame.toJson_injective {frame frame' : ResponseFrame}
    (h : frame.toJson = frame'.toJson) : frame = frame' := by
  cases frame with
  | result f =>
    cases frame' with
    | result f' =>
      cases f
      cases f'
      simpa [toJson] using h
    | _ => simp [toJson] at h
  | error f =>
    cases frame' with
    | error f' =>
      obtain ⟨v, id, seq, frameType, ok, error⟩ := f
      obtain ⟨v', id', seq', frameType', ok', error'⟩ := f'
      simp only [toJson, Json.obj.injEq, List.cons.injEq, Prod.mk.injEq, Json.num.injEq,
        Json.str.injEq, Json.bool.injEq, true_and, and_true] at h
      obtain ⟨rfl, hid, rfl, rfl, rfl, herror⟩ := h
      have hid : id = id' := by cases id <;> cases id' <;> simp_all
      rw [hid, ProtocolError.toJson_injective herror]
    | _ => simp [toJson] at h
  | begin f =>
    cases frame' with
    | begin f' =>
      cases f
      cases f'
      simpa [toJson] using h
    | _ => simp [toJson] at h
  | chunk f =>
    cases frame' with
    | chunk f' =>
      cases f
      cases f'
      simpa [toJson] using h
    | _ => simp [toJson] at h
  | end_ f =>
    cases frame' with
    | end_ f' =>
      obtain ⟨v, id, seq, frameType, complete, stats, error⟩ := f
      obtain ⟨v', id', seq', frameType', complete', stats', error'⟩ := f'
      simp only [toJson, Json.obj.injEq, List.cons_append, List.nil_append, List.cons.injEq,
        Prod.mk.injEq, Json.num.injEq, Json.str.injEq, Json.bool.injEq, true_and] at h
      obtain ⟨rfl, rfl, rfl, rfl, rfl, hoptional⟩ := h
      obtain ⟨rfl, rfl⟩ := optional_injective hoptional
      rfl
    | _ => simp [toJson] at h

theorem ResponseFrame.text_injective {frame frame' : ResponseFrame} (h : frame.text = frame'.text) :
    frame = frame' :=
  toJson_injective (Json.encodeUtf8_render_injective h)

/-! ## Streams of frames -/

/-- The bytes of a stream of frames. -/
def framesBytes (frames : List ResponseFrame) : List UInt8 :=
  (frames.map ResponseFrame.line).flatten

theorem framesBytes_cons (frame : ResponseFrame) (frames : List ResponseFrame) :
    framesBytes (frame :: frames) = frame.text ++ newline :: framesBytes frames := by
  rw [framesBytes, List.map_cons, List.flatten_cons, frame.line_eq, List.append_assoc]
  rfl

/-- Two texts that go on alike up to their first newlines. -/
theorem begins_newline {text text' rest rest' : List UInt8} (htext : newline ∉ text)
    (htext' : newline ∉ text') (h : text ++ newline :: rest <+: text' ++ newline :: rest') :
    text = text' ∧ rest <+: rest' := by
  rcases List.prefix_or_prefix_of_prefix ((List.prefix_append text _).trans h)
    (List.prefix_append text' _) with ⟨more, rfl⟩ | ⟨more, rfl⟩
  · rw [List.append_assoc, List.prefix_append_right_inj] at h
    cases more with
    | nil => exact ⟨(List.append_nil _).symm, (List.cons_prefix_cons.mp h).2⟩
    | cons byte more =>
      obtain ⟨rfl, -⟩ := List.cons_prefix_cons.mp h
      exact absurd (List.mem_append_right _ List.mem_cons_self) htext'
  · rw [List.append_assoc, List.prefix_append_right_inj] at h
    cases more with
    | nil => exact ⟨List.append_nil _, (List.cons_prefix_cons.mp h).2⟩
    | cons byte more =>
      obtain ⟨rfl, -⟩ := List.cons_prefix_cons.mp h
      exact absurd (List.mem_append_right _ List.mem_cons_self) htext

theorem begins_of_framesBytes : ∀ {frames frames' : List ResponseFrame},
    framesBytes frames <+: framesBytes frames' → frames <+: frames'
  | [], _, _ => List.nil_prefix
  | frame :: frames, [], h => by
    rw [framesBytes_cons, show framesBytes [] = [] from rfl, List.prefix_nil] at h
    simp at h
  | frame :: frames, frame' :: frames', h => by
    rw [framesBytes_cons, framesBytes_cons] at h
    obtain ⟨htext, hrest⟩ := begins_newline frame.newline_not_mem frame'.newline_not_mem h
    rw [ResponseFrame.text_injective htext]
    exact List.cons_prefix_cons.mpr ⟨rfl, begins_of_framesBytes hrest⟩

/-- **The bytes of a stream tell its frames**, whichever part of it has come. -/
theorem frames_unambiguous (frames frames' : List ResponseFrame) :
    framesBytes frames <+: framesBytes frames' ↔ frames <+: frames' := by
  constructor
  · exact begins_of_framesBytes
  · rintro ⟨more, rfl⟩
    rw [framesBytes, framesBytes, List.map_append, List.flatten_append]
    exact List.prefix_append _ _

/-! ## Rows -/

theorem hex16_injective {n n' : Nat} (h : hex16 n = hex16 n') : n = n' := by
  have hhex : lowerHex 16 n = lowerHex 16 n' := h
  exact lowerHex_injective hhex

variable {floatText floatText' : F64 → String}

theorem wireValue_integer (n : Nat) : wireValue floatText (.integer n) =
    .obj [("kind", .str "integer"), ("text", .str (Nat.repr n))] := rfl

theorem wireValue_float (f : F64) : wireValue floatText (.float f) =
    .obj [("bits", .str (hex16 f.bits.toNat)), ("kind", .str "float"),
      ("text", .str (floatText f))] := rfl

theorem wireValue_text (t : String) : wireValue floatText (.text t) =
    .obj [("kind", .str "text"), ("text", .str t)] := rfl

/-- The JSON of a value tells the value, a float with all its bits. -/
theorem wireValue_injective {value value' : ChangeValue}
    (h : wireValue floatText value = wireValue floatText' value') : value = value' := by
  cases value with
  | integer n =>
    cases value' with
    | integer n' =>
      simp only [wireValue_integer, Json.obj.injEq, List.cons.injEq, Prod.mk.injEq, Json.str.injEq,
        true_and, and_true] at h
      rw [Decimal.repr_injective h]
    | float f' => simp [wireValue_integer, wireValue_float] at h
    | text t' => simp [wireValue_integer, wireValue_text] at h
  | float f =>
    cases value' with
    | integer n' => simp [wireValue_integer, wireValue_float] at h
    | float f' =>
      simp only [wireValue_float, Json.obj.injEq, List.cons.injEq, Prod.mk.injEq, Json.str.injEq,
        true_and, and_true] at h
      obtain ⟨bits⟩ := f
      obtain ⟨bits'⟩ := f'
      obtain rfl : bits = bits' := BitVec.eq_of_toNat_eq (hex16_injective h.1)
      rfl
    | text t' => simp [wireValue_float, wireValue_text] at h
  | text t =>
    cases value' with
    | integer n' => simp [wireValue_integer, wireValue_text] at h
    | float f' => simp [wireValue_float, wireValue_text] at h
    | text t' =>
      simp only [wireValue_text, Json.obj.injEq, List.cons.injEq, Prod.mk.injEq, Json.str.injEq,
        true_and, and_true] at h
      rw [h]

/-- `width_of` of a signal that an extract request has checked. -/
def ExtractEnv.widthOf (env : ExtractEnv) (signal : String) : Nat := (env.width signal).getD 1

theorem timeValueRow_eq (env : ExtractEnv) (event : TimeValue) : timeValueRow env event =
    .obj [("signal", .str event.signal), ("time", .str (Nat.repr event.time)),
      ("value", wireValue env.floatText event.value),
      ("width", .str (Nat.repr (env.widthOf event.signal)))] := rfl

/-- **A row tells its event** and the width of the signal. -/
theorem timeValueRow_injective {env env' : ExtractEnv} {event event' : TimeValue}
    (h : timeValueRow env event = timeValueRow env' event') :
    event = event' ∧ env.widthOf event.signal = env'.widthOf event.signal := by
  rw [timeValueRow_eq, timeValueRow_eq] at h
  simp only [Json.obj.injEq, List.cons.injEq, Prod.mk.injEq, Json.str.injEq, true_and,
    and_true] at h
  obtain ⟨signal, time, value⟩ := event
  obtain ⟨signal', time', value'⟩ := event'
  obtain ⟨rfl, htime, hvalue, hwidth⟩ := h
  obtain rfl : time = time' := Decimal.repr_injective htime
  obtain rfl : value = value' := wireValue_injective hvalue
  exact ⟨rfl, Decimal.repr_injective hwidth⟩

/-- Equal rows are those of equal events. -/
theorem rows_injective {env env' : ExtractEnv} : ∀ {events events' : List TimeValue},
    events.map (timeValueRow env) = events'.map (timeValueRow env') →
      events = events' ∧ ∀ event ∈ events, env.widthOf event.signal = env'.widthOf event.signal
  | [], [], _ => ⟨rfl, by simp⟩
  | [], _ :: _, h => by simp at h
  | _ :: _, [], h => by simp at h
  | event :: events, event' :: events', h => by
    rw [List.map_cons, List.map_cons, List.cons.injEq] at h
    obtain ⟨rfl, hwidth⟩ := timeValueRow_injective h.1
    obtain ⟨rfl, hwidths⟩ := rows_injective h.2
    exact ⟨rfl, List.forall_mem_cons.mpr ⟨hwidth, hwidths⟩⟩

/-! ## Responses -/

/-- A point of a run of an extract request over a waveform. -/
structure ExtractRun (η : Type) [DecidableEq η] where
  ser : Json.Serializer
  waveform : OpenedWaveform η
  fst : FstEnv η
  context : QueryContext
  config : ServiceConfig
  params : ExtractParams
  env : ExtractEnv
  req : StreamRequest
  disconnected : Bool
  looks : List Look
  job : Job
  serves : env.Serves waveform fst params context
  limits : ∀ limits response,
    queryLimits config params.maxCommands params.maxRows params.maxResponseBytes =
      .ok (limits, response) → response = req.responseLimit
  run : Runs.exec (Job.step ser) (.start req.id req.frameLimit disconnected
    (extractRequest ser config req.frameLimit req.id params env)) looks = some job

namespace ExtractRun

variable {η η' : Type} [DecidableEq η] [DecidableEq η'] (r : ExtractRun η) (r' : ExtractRun η')

/-- The frames that have come into the channel. -/
def frames : List ResponseFrame := r.job.output.enqueued

/-- What `extract` of the library gives for the request. -/
def result : Except QueryError (List TimeValue) :=
  r.waveform.extract r.fst r.params.signals ⟨r.params.start, r.params.end_⟩ r.context

/-- The events that the scan delivers, up to its first error. -/
def events : List TimeValue := r.env.visit.items

/-- A complete end frame has been sent. -/
def Complete : Prop := ∃ f, .end_ f ∈ r.frames ∧ f.complete = true

theorem delivered : Delivered r.req r.env.rows r.frames :=
  (delivered_of_follows (follows_of_guarantees
    ((Streams.extract r.limits).guarantees ⟨rfl, rfl, rfl, rfl⟩) r.run)).1

/-- The rows so far are those of the first events. -/
theorem rows_eq : rowsOf r.frames =
    (r.events.take (rowsOf r.frames).length).map (timeValueRow r.env) := by
  rw [List.map_take]
  exact List.prefix_iff_eq_take.mp r.delivered.rows

/-- A scan that did not fail is the extraction of the library. -/
theorem result_eq (h : r.env.visit.result = .ok ()) : r.result = .ok r.events := by
  obtain ⟨items, hdelivers, hvisit⟩ := r.serves.visit
  rw [result, hdelivers.extract, allOk_visitOf, events, ← hvisit, h]
  rfl

/-- A complete response is the whole extraction. -/
theorem Complete.whole (h : r.Complete) : r.result = .ok r.events ∧
    (rowsOf r.frames).length = r.events.length := by
  obtain ⟨f, hf, hcomplete⟩ := h
  have hreports := extract_reports r.run f hf hcomplete
  exact ⟨r.result_eq hreports.visited, hreports.rows⟩

end ExtractRun

/-- What the bytes of a response say about a waveform whose response goes on
from there. -/
structure Told {η η' : Type} [DecidableEq η] [DecidableEq η'] (r : ExtractRun η)
    (r' : ExtractRun η') : Prop where
  begins : r.frames <+: r'.frames
  /-- The rows so far are those of the first events, -/
  rows : rowsOf r.frames = (r.events.take (rowsOf r.frames).length).map (timeValueRow r.env)
  /-- which are the first events of the other waveform too. -/
  events : r.events.take (rowsOf r.frames).length = r'.events.take (rowsOf r.frames).length
  widths : ∀ event ∈ r.events.take (rowsOf r.frames).length,
    r.env.widthOf event.signal = r'.env.widthOf event.signal
  /-- With the end frame the extractions are the same. -/
  whole : r.Complete → ∃ events, r.result = .ok events ∧ r'.result = .ok events ∧
    rowsOf r.frames = events.map (timeValueRow r.env)

/-- **A response is the only one with its bytes**: two extract requests whose
responses begin alike have the same events, and the same result once a complete
end frame has come. -/
theorem extract_told {η η' : Type} [DecidableEq η] [DecidableEq η'] (r : ExtractRun η)
    (r' : ExtractRun η') (h : framesBytes r.frames <+: framesBytes r'.frames) : Told r r' := by
  obtain ⟨more, hframes⟩ := begins_of_framesBytes h
  have hrows : rowsOf r'.frames = rowsOf r.frames ++ rowsOf more := by rw [← hframes, rowsOf_append]
  have hshared : (r.events.take (rowsOf r.frames).length).map (timeValueRow r.env) =
      (r'.events.take (rowsOf r.frames).length).map (timeValueRow r'.env) := by
    calc (r.events.take (rowsOf r.frames).length).map (timeValueRow r.env)
        = rowsOf r.frames := r.rows_eq.symm
      _ = (rowsOf r'.frames).take (rowsOf r.frames).length := by rw [hrows, List.take_left]
      _ = _ := by
        rw [r'.rows_eq, List.map_take, List.take_take, ← List.map_take, hrows, List.length_append,
          Nat.min_eq_left (Nat.le_add_right _ _)]
  obtain ⟨hevents, hwidths⟩ := rows_injective hshared
  refine ⟨⟨more, hframes⟩, r.rows_eq, hevents, hwidths, ?_⟩
  rintro ⟨f, hf, hcomplete⟩
  have hf' : .end_ f ∈ r'.frames := hframes ▸ List.mem_append_left _ hf
  obtain ⟨-, -, -, stats, hstats, hcount, -⟩ := extract_reports r.run f hf hcomplete
  obtain ⟨-, -, -, stats', hstats', hcount', -⟩ := extract_reports r'.run f hf' hcomplete
  obtain rfl : stats = stats' := Option.some.inj (hstats.symm.trans hstats')
  have hlength : (rowsOf r.frames).length = (rowsOf r'.frames).length :=
    Decimal.repr_injective (hcount.symm.trans hcount')
  obtain ⟨hresult, hall⟩ := ExtractRun.Complete.whole r ⟨f, hf, hcomplete⟩
  obtain ⟨hresult', hall'⟩ := ExtractRun.Complete.whole r' ⟨f, hf', hcomplete⟩
  have hsame : r.events = r'.events := by
    rw [List.take_of_length_le (Nat.le_of_eq hall.symm),
      List.take_of_length_le (Nat.le_of_eq (hlength.trans hall').symm)] at hevents
    exact hevents
  refine ⟨r.events, hresult, by rw [hresult', hsame], ?_⟩
  rw [r.rows_eq, List.map_take, ← List.map_take, List.take_of_length_le (Nat.le_of_eq hall.symm)]

/-! ### A body with and without a last timestamp -/

/-- A run of a request for the changes of `a`, of which there is one. -/
def changeRun (commands : List ParseResult) (job : Job)
    (hserves : (changesEnv commands [⟨"a", 5, .text "1"⟩]).Serves (.vcd (aliasedVcd commands)) bitEnv
      changesOfA {})
    (run : Runs.exec (Job.step .whole) (.start "q" 4096 false (extractRequest .whole smallConfig 4096
      "q" changesOfA (changesEnv commands [⟨"a", 5, .text "1"⟩]))) (List.replicate 9 {}) =
        some job) : ExtractRun (List UInt8) where
  ser := .whole
  waveform := .vcd (aliasedVcd commands)
  fst := bitEnv
  context := {}
  config := smallConfig
  params := changesOfA
  env := changesEnv commands [⟨"a", 5, .text "1"⟩]
  req := smallRequest
  disconnected := false
  looks := List.replicate 9 {}
  job := job
  serves := hserves
  limits := by
    intro limits response h
    cases h
    rfl
  run := run

theorem extract_told_change : ∃ r r' : ExtractRun (List UInt8),
    r.waveform = .vcd (aliasedVcd bitBody) ∧
    r'.waveform = .vcd (aliasedVcd (bitBody ++ [.ok (.timestamp 9)])) ∧
    r.Complete ∧ Told r r' := by
  have hany : (Runs.exec (Job.step .whole) (.start "q" 4096 false (extractRequest .whole smallConfig
      4096 "q" changesOfA (changesEnv bitBody [⟨"a", 5, .text "1"⟩])))
      (List.replicate 9 {})).any Job.hasEnded = true := by decide +kernel
  obtain ⟨job, h, hended⟩ := (Option.any_eq_true _ _).mp hany
  have hserves := changesEnv_serves bitBody [⟨"a", 5, .text "1"⟩] ⟨rfl, rfl⟩ (by decide) (by decide)
  have hserves' := changesEnv_serves (bitBody ++ [.ok (.timestamp 9)]) [⟨"a", 5, .text "1"⟩]
    ⟨rfl, rfl⟩ (by decide) (by decide)
  exact ⟨changeRun bitBody job hserves h, changeRun _ job hserves' h, rfl, rfl,
    Job.end_of_hasEnded hended, extract_told _ _ List.prefix_rfl⟩

end VcdTools.Server
