import VcdTools.Lib.Decimal
import VcdTools.Opened.ScanWork
import VcdTools.Query.ScanLimits
import VcdTools.Server.StreamPackaging

/-! # The numbers in the end frame of an extract request

`end.stats.rows` is a counter of the stream, and `end.stats.commands` is what
the handler hands to `finish`: the number of events its visitor got. Both are
carried from the visitor to the end frame (`Tallied`, `Emitted`, `Reported`) and
compared with the work of the scan. -/
namespace VcdTools.Server
open VcdTools.Lib VcdTools.Lib.Iter VcdTools.Query VcdTools.Opened

variable {ser : Json.Serializer} {output : OutputSink} {stream : StreamOutput}
  {rows : List Json} {v : Visit TimeValue}

/-! ## The stream's own counter -/

/-- A stream that has counted its rows. It is far from the end of the counter,
as 2^32 chunks of 1024 rows are. -/
structure Tallied (stream : StreamOutput) (output : OutputSink) : Prop where
  rows : stream.rows = (rowsOf output.enqueued).length
  bound : (rowsOf output.enqueued).length ≤ stream.nextSeq * chunkRows
  seq_le : stream.nextSeq ≤ u32Max
  opened : ∀ f, .end_ f ∉ output.enqueued

/-- What a complete end frame on the channel says of the rows before it and of
the visit. -/
structure Reports (v : Visit TimeValue) (frames : List ResponseFrame) (f : EndFrame) : Prop where
  visited : v.result = .ok ()
  rows : (rowsOf frames).length = v.items.length
  bound : v.items.length ≤ u32Max * chunkRows
  stats : ∃ stats, f.stats = some stats ∧ stats.rows = Nat.repr (rowsOf frames).length ∧
    stats.commands = Nat.repr v.items.length

/-- Every complete end frame on the channel reports. -/
def Reported (v : Visit TimeValue) (output : OutputSink) : Prop :=
  ∀ f, .end_ f ∈ output.enqueued → f.complete = true → Reports v output.enqueued f

theorem Reported.of_opened (h : ∀ f, .end_ f ∉ output.enqueued) : Reported v output :=
  fun f hf => absurd hf (h f)

/-- What an operation of the stream leaves once it has sent `sent` rows. -/
def Tally (output : OutputSink) (sent : Nat) :
    Except ProtocolError StreamOutput → OutputSink → Prop :=
  Proc.onResult (fun stream output' => Tallied stream output' ∧
    (rowsOf output'.enqueued).length = (rowsOf output.enqueued).length + sent) fun _ _ => True

theorem Tallied.push_chunk (h : Tallied stream output) (hrows : rows.length ≤ chunkRows)
    {bytes : Nat} {stream' : StreamOutput}
    (hadvance : stream.advance bytes rows.length = .ok stream') (next : OutputLifecycle) :
    Tallied stream' (output.push (.ofChunk stream.id stream.nextSeq rows) next) := by
  unfold StreamOutput.advance at hadvance
  split at hadvance <;> cases hadvance
  have hmul : (stream.nextSeq + 1) * chunkRows = stream.nextSeq * chunkRows + chunkRows :=
    Nat.succ_mul _ _
  have hall : (rowsOf (output.enqueued ++ [.ofChunk stream.id stream.nextSeq rows])).length =
      (rowsOf output.enqueued).length + rows.length := by
    rw [rowsOf_append, List.length_append]
    exact congrArg _ (congrArg List.length (rowsOf_chunk _))
  have hmax : (u32Max + 1) * chunkRows ≤ u64Max := by decide
  have hseq : stream.nextSeq * chunkRows ≤ u32Max * chunkRows := Nat.mul_le_mul_right _ h.seq_le
  have hmaxmul : (u32Max + 1) * chunkRows = u32Max * chunkRows + chunkRows := Nat.succ_mul _ _
  have hbound := h.bound
  refine ⟨?_, ?_, ‹_›, ?_⟩
  · change saturatingAdd stream.rows rows.length = _
    rw [h.rows, saturatingAdd_eq (by omega)]
    exact hall.symm
  · change (rowsOf (output.enqueued ++ [.ofChunk stream.id stream.nextSeq rows])).length ≤
      (stream.nextSeq + 1) * chunkRows
    rw [hall]
    omega
  · intro f hf
    obtain hf | hf := List.mem_append.mp hf
    · exact h.opened f hf
    · cases List.mem_singleton.mp hf

theorem sendRowsSplit_tally (hne : rows ≠ []) (h : Tallied stream output)
    (hrows : rows.length ≤ chunkRows) :
    Guarantees ser (Reported v) (fun _ _ => True) (Tally output rows.length) (fun _ => False)
      (stream.sendRowsSplit ser rows hne) output := by
  induction hlen : rows.length using Nat.strong_induction_on generalizing rows stream output with
  | _ len ih =>
    subst hlen
    have hi : Reported v output := .of_opened h.opened
    unfold StreamOutput.sendRowsSplit
    simp only
    split
    · exact Proc.meets_fail hi trivial
    · split
      · exact Proc.meets_fail hi trivial
      · have hpos := List.length_pos_of_ne_nil hne
        have hfirst : (rows.take (rows.length / 2)).length = rows.length / 2 := by
          rw [List.length_take]
          omega
        have hsecond : (rows.drop (rows.length / 2)).length = rows.length - rows.length / 2 :=
          List.length_drop
        refine Proc.meets_bind ((ih _ (by omega) _ h (by omega) rfl).mono
          fun result output' _ hsent => ?_)
        cases result with
        | error e => trivial
        | ok stream' =>
          obtain ⟨htallied, hcount⟩ := hsent
          refine (ih _ (by omega) _ htallied (by omega) rfl).mono fun result output'' _ hsent => ?_
          cases result with
          | error e => trivial
          | ok stream'' => exact ⟨hsent.1, by rw [hsent.2, hcount]; omega⟩
    · simp only [Proc.bind_eq]
      refine Proc.meets_lift_bind hi (fun _ _ => ?_) fun _ _ => trivial
      refine sendFrame_bind hi trivial (fun next _ => ?_) (fun _ _ => trivial) fun _ _ => trivial
      cases hadvance : stream.advance _ rows.length with
      | error e =>
        refine .done (.of_opened fun f hf => ?_) trivial
        obtain hf | hf := List.mem_append.mp hf
        · exact h.opened f hf
        · cases List.mem_singleton.mp hf
      | ok stream' =>
        have htallied := h.push_chunk hrows hadvance next
        refine .done (.of_opened htallied.opened) ⟨htallied, ?_⟩
        change (rowsOf (output.enqueued ++ [.ofChunk stream.id stream.nextSeq rows])).length = _
        rw [rowsOf_append, List.length_append]
        exact congrArg _ (congrArg List.length (rowsOf_chunk _))

theorem sendRows_tally (h : Tallied stream output) (hrows : rows.length ≤ chunkRows) :
    Guarantees ser (Reported v) (fun _ _ => True) (Tally output rows.length) (fun _ => False)
      (stream.sendRows ser rows) output := by
  unfold StreamOutput.sendRows
  split
  · rename_i hnil
    subst hnil
    exact Proc.Meets.done (.of_opened h.opened) ⟨h, rfl⟩
  · exact sendRowsSplit_tally _ h hrows

/-! ## The visitor and its count -/

/-- The buffer and `emitted` when `left` rows are still to come: every row so
far is on the channel or in the buffer, and counted. -/
structure Emitted (v : Visit TimeValue) (left : Nat) (s : Buffered × UInt64)
    (output : OutputSink) : Prop where
  tallied : Tallied s.1.stream output
  room : s.1.rows.length < chunkRows
  rows : (rowsOf output.enqueued).length + s.1.rows.length + left = v.items.length
  emitted : s.2 = UInt64.ofNat ((rowsOf output.enqueued).length + s.1.rows.length)

theorem Emitted.reported {left : Nat} {s : Buffered × UInt64} (h : Emitted v left s output) :
    Reported v output := .of_opened h.tallied.opened

/-- **The visitor counts the row that it buffers.** -/
theorem extractVisitor_emitted {env : ExtractEnv} {left : Nat} {s : Buffered × UInt64}
    {event : TimeValue} (h : Emitted v (left + 1) s output) :
    Guarantees ser (Reported v) (fun _ _ => True)
      (Proc.onResult (Emitted v left) fun _ _ => True) (fun _ => False)
      (extractVisitor ser env s event) output := by
  obtain ⟨⟨stream, rows⟩, emitted⟩ := s
  have hlen : (rows ++ [timeValueRow env event]).length = rows.length + 1 := List.length_append
  have hroom : rows.length < chunkRows := h.room
  have hrows : (rowsOf output.enqueued).length + rows.length + (left + 1) = v.items.length := h.rows
  have hemitted : emitted + 1 = UInt64.ofNat ((rowsOf output.enqueued).length + (rows.length + 1)) := by
    have hsofar : emitted = UInt64.ofNat ((rowsOf output.enqueued).length + rows.length) := h.emitted
    rw [hsofar, ← Nat.add_assoc, UInt64.ofNat_add _ 1]
    rfl
  unfold extractVisitor Buffered.push
  simp only [Proc.bind_eq]
  split
  · refine Proc.meets_bind (Proc.meets_bind (Proc.meets_mapError
      ((sendRows_tally (v := v) h.tallied (by omega)).mono fun result output' hi hsent => ?_)))
    cases result with
    | error e => trivial
    | ok stream' =>
      obtain ⟨htallied, hcount⟩ := hsent
      refine .done hi (.done hi ⟨htallied, Nat.zero_lt_succ _, ?_, ?_⟩)
      · change (rowsOf output'.enqueued).length + 0 + left = v.items.length
        omega
      · change emitted + 1 = UInt64.ofNat ((rowsOf output'.enqueued).length + 0)
        rw [hemitted, hcount, hlen]
        rfl
  · refine .done h.reported ⟨h.tallied, ?_, ?_, ?_⟩
    · change (rows ++ [timeValueRow env event]).length < chunkRows
      omega
    · change (rowsOf output.enqueued).length + (rows ++ [timeValueRow env event]).length + left = _
      omega
    · change emitted + 1 = UInt64.ofNat ((rowsOf output.enqueued).length +
        (rows ++ [timeValueRow env event]).length)
      rw [hemitted, hlen]

theorem visit_emitted {env : ExtractEnv} {s : Buffered × UInt64}
    (h : Emitted env.visit env.visit.items.length s output) :
    Guarantees ser (Reported env.visit) (fun _ _ => True)
      (Proc.onResult (fun s output => env.visit.result = .ok () ∧ Emitted env.visit 0 s output)
        fun _ _ => True) (fun _ => False)
      ((env.visit.run (extractVisitor ser env) s).mapError protocolErrorFromQuery) output := by
  refine Proc.meets_mapError (Proc.meets_bind ((Proc.meets_fold
    (R := fun items s => Emitted env.visit items.length s) (F := fun _ _ => True)
    (fun _ _ hc => hc.reported) (fun _ _ _ _ hc => extractVisitor_emitted hc)
    env.visit.items s output h).mono fun result output' hi hc => ?_))
  cases result with
  | error e => trivial
  | ok s' => exact Proc.meets_lift_bind hi (fun _ hresult => .done hi ⟨hresult, hc⟩) fun _ _ => trivial

/-! ## The end frame -/

/-- **The end frame of a counted visit reports.** -/
theorem finish_reports {elapsedMs commands : Nat} (h : Tallied stream output)
    (hvisit : v.result = .ok ()) (hrows : (rowsOf output.enqueued).length = v.items.length)
    (hcommands : commands = v.items.length) :
    Guarantees ser (Reported v) (fun _ _ => True) (fun _ _ => True) (fun _ => False)
      (stream.finish ser elapsedMs commands) output := by
  have hi : Reported v output := .of_opened h.opened
  unfold StreamOutput.finish
  simp only [Proc.bind_eq]
  refine Proc.meets_lift_bind hi (fun frame hframe => ?_) fun _ _ => trivial
  refine Proc.meets_lift_bind hi (fun bytes _ => ?_) fun _ _ => trivial
  split
  · exact Proc.meets_fail hi trivial
  have hsuccess : ResponseFrame.endSuccess stream.id stream.nextSeq
      (stream.stats elapsedMs commands) stream.encodedBytes = some frame := by
    split at hframe
    · cases hframe
      assumption
    · cases hframe
  obtain ⟨total, hend⟩ := endSuccess_frame hsuccess
  refine .call hi trivial fun answer output' hs => ?_
  cases hs with
  | rejected _ | refused _ _ => exact .done hi trivial
  | enqueued _ =>
    refine .done (fun f hf _ => ?_) trivial
    have hall : rowsOf (output.enqueued ++ [frame]) = rowsOf output.enqueued := by
      rw [hend, rowsOf_append]
      exact List.append_nil _
    change Reports v (output.enqueued ++ [frame]) f
    obtain hf | hf := List.mem_append.mp hf
    · exact absurd hf (h.opened f)
    · rw [hend] at hf
      cases List.mem_singleton.mp hf
      have hbound : (rowsOf output.enqueued).length ≤ u32Max * chunkRows :=
        Nat.le_trans h.bound (Nat.mul_le_mul_right _ h.seq_le)
      refine ⟨hvisit, by rw [hall, hrows], by rw [← hrows]; exact hbound, _, rfl, ?_, ?_⟩
      · change Nat.repr stream.rows = _
        rw [hall, h.rows]
      · change Nat.repr commands = _
        rw [hcommands]

theorem begin_tallied {id schema : String} {generation responseLimit frameLimit : Nat}
    (h : output.enqueued = []) :
    Guarantees ser (Reported v) (fun _ _ => True)
      (Proc.onResult (fun stream output => Tallied stream output ∧ rowsOf output.enqueued = [])
        fun _ _ => True) (fun _ => False)
      (StreamOutput.begin ser id schema generation responseLimit frameLimit) output := by
  have hi : Reported v output := .of_opened (by rw [h]; exact fun _ => List.not_mem_nil)
  unfold StreamOutput.begin
  simp only [Proc.bind_eq]
  refine Proc.meets_lift_bind hi (fun bytes _ => ?_) fun _ _ => trivial
  refine Proc.meets_lift_bind hi (fun _ _ => ?_) fun _ _ => trivial
  refine sendFrame_bind hi trivial (fun next _ => ?_) (fun _ _ => trivial) fun _ _ => trivial
  have hframes : (output.push (.ofBegin id schema (Nat.repr generation)) next).enqueued =
      [.ofBegin id schema (Nat.repr generation)] := by
    rw [OutputSink.push, h]
    rfl
  have hopened : ∀ f, .end_ f ∉
      (output.push (.ofBegin id schema (Nat.repr generation)) next).enqueued := by
    intro f hf
    rw [hframes] at hf
    cases List.mem_singleton.mp hf
  have hnone : rowsOf (output.push (.ofBegin id schema (Nat.repr generation)) next).enqueued = [] := by
    rw [hframes]
    rfl
  have hone : 1 ≤ u32Max := by decide
  refine .done (.of_opened hopened) ⟨⟨?_, ?_, hone, hopened⟩, hnone⟩
  · rw [hnone]
    rfl
  · rw [hnone]
    exact Nat.zero_le _

theorem flush_emitted {s : Buffered × UInt64} (h : Emitted v 0 s output) :
    Guarantees ser (Reported v) (fun _ _ => True)
      (Proc.onResult (fun stream output => Tallied stream output ∧
        (rowsOf output.enqueued).length = v.items.length) fun _ _ => True) (fun _ => False)
      (s.1.flush ser) output := by
  have hrows := h.rows
  unfold Buffered.flush
  split
  · rename_i hempty
    rw [List.isEmpty_iff] at hempty
    rw [hempty] at hrows
    exact .done h.reported ⟨h.tallied, hrows⟩
  · refine (sendRows_tally h.tallied (Nat.le_of_lt h.room)).mono fun result output' _ hsent => ?_
    cases result with
    | error e => trivial
    | ok stream' => exact ⟨hsent.1, by rw [hsent.2]; exact hrows⟩

/-- **The whole handler.** -/
theorem extractRequest_reports {config : ServiceConfig} {frameLimit : Nat} {id : String}
    {params : ExtractParams} {env : ExtractEnv} (h : output.enqueued = []) :
    Guarantees ser (Reported env.visit) (fun _ _ => True) (fun _ _ => True) (fun _ => False)
      (extractRequest ser config frameLimit id params env) output := by
  have hi : Reported env.visit output := .of_opened (by rw [h]; exact fun _ => List.not_mem_nil)
  unfold extractRequest
  simp only [Proc.bind_eq]
  refine Proc.meets_lift_bind hi (fun limited _ => ?_) fun _ _ => trivial
  obtain ⟨limits, response⟩ := limited
  refine Proc.meets_lift_bind hi (fun generation _ => ?_) fun _ _ => trivial
  simp only
  split
  · exact Proc.meets_fail hi trivial
  refine Proc.meets_bind ((begin_tallied h).mono fun result output' hi' hq => ?_)
  cases result with
  | error e => trivial
  | ok stream =>
    obtain ⟨htallied, hnone⟩ := hq
    refine Proc.meets_lift_bind hi' (fun _ _ => ?_) fun _ _ => trivial
    have hbegun : Emitted env.visit env.visit.items.length (⟨stream, []⟩, 0) output' := by
      refine ⟨htallied, Nat.zero_lt_succ _, ?_, ?_⟩
      · rw [hnone]
        exact Nat.zero_add _
      · rw [hnone]
        rfl
    refine Proc.meets_bind ((visit_emitted hbegun).mono fun result output'' _ hv => ?_)
    cases result with
    | error e => trivial
    | ok s =>
      obtain ⟨hresult, hcount⟩ := hv
      have hemitted : s.2 = UInt64.ofNat env.visit.items.length := hcount.rows ▸ hcount.emitted
      refine Proc.meets_bind ((flush_emitted hcount).mono fun result output₃ _ hf => ?_)
      cases result with
      | error e => trivial
      | ok stream =>
        obtain ⟨htallied, hall⟩ := hf
        have hbound : (rowsOf output₃.enqueued).length ≤ u32Max * chunkRows :=
          Nat.le_trans htallied.bound (Nat.mul_le_mul_right _ htallied.seq_le)
        have hmax : u32Max * chunkRows < 2 ^ 64 := by decide
        refine finish_reports htallied hresult hall ?_
        rw [hemitted, UInt64.toNat_ofNat', Nat.mod_eq_of_lt (by omega)]

/-! ## The job -/

/-- A frame of the worker has no rows and is not complete. -/
theorem Reported.terminated (h : Reported v output) {error : ProtocolError}
    {frame : ResponseFrame} (hframe : output.terminalFrame error = some frame) :
    Reported v (output.push frame .terminal) := by
  have hrows : rowsOf [frame] = [] := by
    unfold OutputSink.terminalFrame at hframe
    split at hframe <;> cases hframe <;> rfl
  have hincomplete : ∀ f, frame = .end_ f → f.complete = false := by
    unfold OutputSink.terminalFrame at hframe
    intro f hf
    split at hframe <;> cases hframe <;> cases hf
    rfl
  have hall : rowsOf (output.enqueued ++ [frame]) = rowsOf output.enqueued := by
    rw [rowsOf_append, hrows, List.append_nil]
  intro f hf hcomplete
  change Reports v (output.enqueued ++ [frame]) f
  obtain hf | hf := List.mem_append.mp hf
  · obtain ⟨hvisit, hcount, hbound, hstats⟩ := h f hf hcomplete
    exact ⟨hvisit, by rw [hall, hcount], hbound, by rw [hall]; exact hstats⟩
  · rw [hincomplete f (List.mem_singleton.mp hf).symm] at hcomplete
    cases hcomplete

theorem reported_of_follows {job : Job}
    (h : Follows ser (Reported v) (fun _ _ => True) (fun _ _ => True) (fun _ => False) job) :
    Reported v job.output := by
  cases h with
  | entering _ hp | dispatching hp => exact hp.inv
  | sending hi _ _ | ending hi _ | terminating hi _ _ _ | silent hi _ => exact hi
  | terminated hi _ hframe _ => exact hi.terminated hframe

/-- **A complete end frame** of an extract request counts the rows of its
chunks, and these are the events of a visit that did not fail. -/
theorem extract_reports {config : ServiceConfig} {frameLimit : Nat} {id : String}
    {params : ExtractParams} {env : ExtractEnv} {disconnected : Bool} {looks : List Look} {job : Job}
    (h : Runs.exec (Job.step ser) (.start id frameLimit disconnected
      (extractRequest ser config frameLimit id params env)) looks = some job) :
    Reported env.visit job.output :=
  reported_of_follows (follows_of_guarantees (extractRequest_reports rfl) h)

/-! ## The scan -/

/-- The visit of an extraction: its events up to the first error. -/
def visitOf : List (Except QueryError TimeValue) → Visit TimeValue
  | [] => ⟨[], .ok ()⟩
  | .ok event :: items => ⟨event :: (visitOf items).items, (visitOf items).result⟩
  | .error error :: _ => ⟨[], .error error⟩

theorem allOk_visitOf (items : List (Except QueryError TimeValue)) :
    allOk items = (visitOf items).result.map fun _ => (visitOf items).items := by
  induction items with
  | nil => rfl
  | cons item items ih =>
    cases item with
    | error error => rfl
    | ok event =>
      rw [allOk, visitOf, ih]
      cases (visitOf items).result <;> rfl

theorem visitOf_ok {items : List (Except QueryError TimeValue)}
    (h : (visitOf items).result = .ok ()) : items = (visitOf items).items.map .ok := by
  have hall := allOk_visitOf items
  rw [h] at hall
  exact allOk_eq_ok.mp hall

theorem visitOf_map_ok (events : List TimeValue) : visitOf (events.map .ok) = ⟨events, .ok ()⟩ := by
  induction events with
  | nil => rfl
  | cons event events ih => rw [List.map_cons, visitOf, ih]

variable {η : Type} [DecidableEq η]

/-- What a request reads is what this waveform has for it. -/
structure ExtractEnv.Serves (env : ExtractEnv) (waveform : OpenedWaveform η) (fst : FstEnv η)
    (params : ExtractParams) (context : QueryContext) : Prop where
  width : env.width = waveform.width
  visit : ∃ items, waveform.Delivers fst params.signals ⟨params.start, params.end_⟩ context items ∧
    env.visit = visitOf items

variable {env : ExtractEnv} {waveform : OpenedWaveform η} {fst : FstEnv η}
  {params : ExtractParams} {context : QueryContext}

/-- **The visit is that of `visit_changes`**, for a visitor that neither panics nor
fails. -/
theorem ExtractEnv.Serves.visitChanges {τ : Type} (h : env.Serves waveform fst params context)
    (visitor : τ → TimeValue → τ) (visited : τ) :
    waveform.visitChanges fst params.signals ⟨params.start, params.end_⟩ context
        (fun visited event => some (.ok (visitor visited event))) visited =
      some (env.visit.result.map fun _ => env.visit.items.foldl visitor visited) := by
  obtain ⟨items, hdelivers, hvisit⟩ := h.visit
  rw [hdelivers.visitChanges_total, hvisit, allOk_visitOf]
  cases (visitOf items).result <;> rfl

/-- A visit that did not fail has counted the work it read, and its events are
all that this asks for. -/
theorem ExtractEnv.Serves.work (h : env.Serves waveform fst params context)
    (hresult : env.visit.result = .ok ()) :
    waveform.workConsumed fst params.signals ⟨params.start, params.end_⟩ context =
        some (counter (waveform.workRead fst params.signals ⟨params.start, params.end_⟩)) ∧
      env.visit.items.length =
        waveform.rowsAsked fst params.signals ⟨params.start, params.end_⟩ := by
  obtain ⟨items, hdelivers, hvisit⟩ := h.visit
  rw [hvisit] at hresult ⊢
  rw [visitOf_ok hresult] at hdelivers
  exact hdelivers.workConsumed

/-- **Reported work.** The rows of a complete end frame are those of its chunks.
Its commands are these rows once more, so that they are the commands that the
scan consumed exactly when it read one command for every row. -/
theorem reported_work_iff {config : ServiceConfig} {frameLimit : Nat} {id : String}
    {disconnected : Bool} {looks : List Look} {job : Job} {f : EndFrame}
    (hserves : env.Serves waveform fst params context)
    (h : Runs.exec (Job.step ser) (.start id frameLimit disconnected
      (extractRequest ser config frameLimit id params env)) looks = some job)
    (hf : .end_ f ∈ job.output.enqueued) (hcomplete : f.complete = true) :
    (∃ stats, f.stats = some stats ∧
        stats.rows = Nat.repr (rowsOf job.output.enqueued).length ∧
        ∃ consumed, waveform.workConsumed fst params.signals ⟨params.start, params.end_⟩ context =
            some consumed ∧ stats.commands = Nat.repr consumed) ↔
      waveform.workRead fst params.signals ⟨params.start, params.end_⟩ =
        waveform.rowsAsked fst params.signals ⟨params.start, params.end_⟩ := by
  obtain ⟨hresult, hcount, hbound, stats, hstats, hrows, hcommands⟩ :=
    extract_reports h f hf hcomplete
  obtain ⟨hconsumed, hasked⟩ := hserves.work hresult
  have hmax : u32Max * chunkRows < u64Max := by decide
  constructor
  · rintro ⟨stats', hstats', -, consumed, hconsumed', hcommands'⟩
    rw [hstats] at hstats'
    cases hstats'
    rw [hconsumed] at hconsumed'
    cases hconsumed'
    have hcounter := Lib.Decimal.repr_injective (hcommands.symm.trans hcommands')
    unfold counter at hcounter
    omega
  · intro heq
    refine ⟨stats, hstats, hrows, _, hconsumed, ?_⟩
    have hcounter : counter env.visit.items.length = env.visit.items.length :=
      Nat.min_eq_left (by omega)
    rw [hcommands, heq, ← hasked, hcounter]

/-! ### A body with and without a timestamp -/

def changesOfA : ExtractParams where
  signals := ["a"]
  start := none
  end_ := none
  maxCommands := none
  maxRows := none
  maxResponseBytes := none

/-- What a request for the changes of `a` reads when these are its events. -/
def changesEnv (commands : List ParseResult) (events : List TimeValue) : ExtractEnv where
  current := .ok 1
  width := (OpenedWaveform.vcd (η := List UInt8) (aliasedVcd commands)).width
  acquire := .ok ()
  visit := ⟨events, .ok ()⟩
  floatText _ := ""
  elapsedMs := 2
  acquires := ok_acquires
  resolves := ok_resolves

/-- A complete end frame is on the channel. -/
def Job.hasEnded (job : Job) : Bool :=
  job.output.enqueued.any fun
    | .end_ f => f.complete
    | _ => false

theorem Job.end_of_hasEnded {job : Job} (h : job.hasEnded = true) :
    ∃ f, .end_ f ∈ job.output.enqueued ∧ f.complete = true := by
  obtain ⟨frame, hframe, hend⟩ := List.any_eq_true.mp h
  cases frame with
  | end_ f => exact ⟨f, hframe, hend⟩
  | _ => cases hend

theorem changesEnv_serves (commands : List ParseResult) (events : List TimeValue)
    (hsource : (aliasedVcd commands).Unchanged commands)
    (hnames : ∀ name ∈ changesOfA.signals, ((aliasedVcd commands).signal name).isSome)
    (hevents : answers {} {} (extractWork ((aliasedVcd commands).catalog.requested ["a"])
      ⟨none, none⟩ 0 commands) = events.map .ok) :
    (changesEnv commands events).Serves (.vcd (aliasedVcd commands)) bitEnv changesOfA {} where
  width := rfl
  visit := by
    have hdelivers : (aliasedVcd commands).Delivers changesOfA.signals ⟨none, none⟩ {} _ :=
      delivers_answers ⟨rfl, rfl⟩ hsource hnames rfl ⟨none, none⟩
    exact ⟨_, hdelivers, (visitOf_map_ok events).symm.trans (congrArg visitOf hevents.symm)⟩

/-- Two changes and nothing else: two commands and two rows. -/
theorem reported_work_changes : ∃ job f,
    Runs.exec (Job.step .whole) (.start "q" 4096 false (extractRequest .whole smallConfig 4096 "q"
      changesOfA (changesEnv (manyChanges 2) [⟨"a", 0, .text "1"⟩, ⟨"a", 0, .text "1"⟩])))
      (List.replicate 9 {}) = some job ∧ .end_ f ∈ job.output.enqueued ∧
    ∃ stats, f.stats = some stats ∧
      stats.rows = Nat.repr (rowsOf job.output.enqueued).length ∧
      ∃ consumed, (OpenedWaveform.vcd (aliasedVcd (manyChanges 2))).workConsumed bitEnv ["a"]
          ⟨none, none⟩ {} = some consumed ∧ stats.commands = Nat.repr consumed := by
  have hany : (Runs.exec (Job.step .whole) (.start "q" 4096 false (extractRequest .whole smallConfig
      4096 "q" changesOfA (changesEnv (manyChanges 2) [⟨"a", 0, .text "1"⟩, ⟨"a", 0, .text "1"⟩])))
      (List.replicate 9 {})).any Job.hasEnded = true := by decide +kernel
  obtain ⟨job, h, hended⟩ := (Option.any_eq_true _ _).mp hany
  obtain ⟨f, hf, hcomplete⟩ := Job.end_of_hasEnded hended
  have hserves := changesEnv_serves (manyChanges 2) [⟨"a", 0, .text "1"⟩, ⟨"a", 0, .text "1"⟩]
    ⟨rfl, rfl⟩ (by decide) (by decide)
  exact ⟨job, f, h, hf, (reported_work_iff hserves h hf hcomplete).mpr (by decide)⟩

/-- A timestamp before the change: the scan consumes two commands, and the end
frame reports the one row as one command. -/
theorem timestamp_not_reported :
    ¬ ∀ (waveform : OpenedWaveform (List UInt8)) (fst : FstEnv (List UInt8)) (env : ExtractEnv)
      (params : ExtractParams) (context : QueryContext) (ser : Json.Serializer)
      (config : ServiceConfig) (frameLimit : Nat) (id : String) (disconnected : Bool)
      (looks : List Look) (job : Job) (f : EndFrame),
      env.Serves waveform fst params context →
      Runs.exec (Job.step ser) (.start id frameLimit disconnected
        (extractRequest ser config frameLimit id params env)) looks = some job →
      .end_ f ∈ job.output.enqueued → f.complete = true →
      ∃ stats, f.stats = some stats ∧
        stats.rows = Nat.repr (rowsOf job.output.enqueued).length ∧
        ∃ consumed, waveform.workConsumed fst params.signals ⟨params.start, params.end_⟩ context =
            some consumed ∧ stats.commands = Nat.repr consumed := by
  intro hall
  have hany : (Runs.exec (Job.step .whole) (.start "q" 4096 false (extractRequest .whole smallConfig
      4096 "q" changesOfA (changesEnv bitBody [⟨"a", 5, .text "1"⟩])))
      (List.replicate 9 {})).any Job.hasEnded = true := by decide +kernel
  obtain ⟨job, h, hended⟩ := (Option.any_eq_true _ _).mp hany
  obtain ⟨f, hf, hcomplete⟩ := Job.end_of_hasEnded hended
  have hserves := changesEnv_serves bitBody [⟨"a", 5, .text "1"⟩] ⟨rfl, rfl⟩ (by decide) (by decide)
  obtain ⟨stats, hstats, -, consumed, hconsumed, hcommands⟩ :=
    hall _ bitEnv _ changesOfA {} .whole smallConfig 4096 "q" false _ job f hserves h hf hcomplete
  obtain ⟨-, -, -, stats', hstats', -, hcommands'⟩ := extract_reports h f hf hcomplete
  rw [hstats] at hstats'
  cases hstats'
  rw [(hserves.work rfl).1] at hconsumed
  cases hconsumed
  have hsame : Nat.repr 1 = Nat.repr 2 := hcommands'.symm.trans hcommands
  exact absurd hsame (by decide)

end VcdTools.Server
