import VcdTools.Cli.TraceReports

/-! # What the trace does not depend on

The loop sees the changes of a timestamp in the order of the file. Its reports
need the last value of each signal only, so that changes of different signals
can be swapped; and what is written before a parse error is what any other end
of the file would begin with. -/
namespace VcdTools.Cli
open VcdTools.Lib VcdTools.Lib.Iter VcdTools.Lib.Batches VcdTools.Query
open VcdTools.Lib.RunReports (runs dropLast_runs_prefix)

variable {paths : SignalPaths} {disk : Nat → Option WriteFailure}

/-! ## The order within a timestamp -/

/-- Two buffers in which each signal has the same changes. -/
def SameChanges (buffer buffer' : List TimeValue) : Prop :=
  ∀ name, (buffer.filter fun evt => evt.signal = name) =
    buffer'.filter fun evt => evt.signal = name

theorem SameChanges.symm {buffer buffer' : List TimeValue} (h : SameChanges buffer buffer') :
    SameChanges buffer' buffer := fun name => (h name).symm

theorem SameChanges.mem {buffer buffer' : List TimeValue} (h : SameChanges buffer buffer')
    {evt : TimeValue} (hevt : evt ∈ buffer) : evt ∈ buffer' := by
  have hfilter : evt ∈ buffer.filter fun evt' => evt'.signal = evt.signal :=
    List.mem_filter.mpr ⟨hevt, by simp⟩
  rw [h evt.signal] at hfilter
  exact (List.mem_filter.mp hfilter).1

theorem SameChanges.eq_nil_iff {buffer buffer' : List TimeValue} (h : SameChanges buffer buffer') :
    buffer = [] ↔ buffer' = [] := by
  simp only [List.eq_nil_iff_forall_not_mem]
  exact ⟨fun hnone evt hevt => hnone evt (h.symm.mem hevt),
    fun hnone evt hevt => hnone evt (h.mem hevt)⟩

theorem SameChanges.append_right {buffer buffer' : List TimeValue} (h : SameChanges buffer buffer')
    (more : List TimeValue) : SameChanges (buffer ++ more) (buffer' ++ more) := by
  intro name
  rw [List.filter_append, List.filter_append, h name]

theorem SameChanges.append_left {buffer buffer' : List TimeValue} (h : SameChanges buffer buffer')
    (before : List TimeValue) : SameChanges (before ++ buffer) (before ++ buffer') := by
  intro name
  rw [List.filter_append, List.filter_append, h name]

/-- Drained events leave the last value of each signal. -/
theorem foldl_update_eq (buffer : List TimeValue) (t : Trace) :
    buffer.foldl (Trace.update paths) t =
      { t with
        prevClk := match lastValues buffer paths.clk with
          | some value => valueToBool value
          | none => t.prevClk
        state := fun name => (lastValues buffer name).or (t.state name) } := by
  induction buffer using List.reverseRecOn with
  | nil => rfl
  | append_singleton buffer evt ih =>
    rw [List.foldl_append, List.foldl_cons, List.foldl_nil, ih, lastValues_concat]
    refine Trace.ext (funext fun name => ?_) ?_ rfl rfl
    · by_cases hname : name = evt.signal
      · simp [Trace.update, hname]
      · simp [Trace.update, hname]
    · by_cases hclk : evt.signal = paths.clk
      · simp [Trace.update, hclk]
      · have hother : paths.clk ≠ evt.signal := fun h => hclk h.symm
        simp [Trace.update, hclk, hother]

/-- **Buffers with the same changes** are processed alike. -/
theorem processBuffer_same {buffer buffer' : List TimeValue} (h : SameChanges buffer buffer')
    (t : Trace) : processBuffer paths disk buffer t = processBuffer paths disk buffer' t := by
  have hlast : lastValues buffer = lastValues buffer' := by
    funext name
    rw [lastValues, lastValues, h name]
  have hany : ∀ p : TimeValue → Bool, buffer.any p = buffer'.any p := by
    intro p
    rw [Bool.eq_iff_iff, List.any_eq_true, List.any_eq_true]
    exact ⟨fun ⟨evt, hevt, hp⟩ => ⟨evt, h.mem hevt, hp⟩,
      fun ⟨evt, hevt, hp⟩ => ⟨evt, h.symm.mem hevt, hp⟩⟩
  unfold processBuffer
  simp only [hany, foldl_update_eq, hlast]

/-- Two states of the loop that differ in the order of the buffer. -/
structure Alike (s s' : TraceLoop) : Prop where
  current : s.current = s'.current
  acc : s.acc = s'.acc
  buffer : SameChanges s.buffer s'.buffer

/-- The results of alike rounds. -/
def AlikeResults : Except Stopped TraceLoop → Except Stopped TraceLoop → Prop
  | .ok s, .ok s' => Alike s s'
  | .error stopped, .error stopped' => stopped = stopped'
  | _, _ => False

theorem traceRound_alike {s s' : TraceLoop} (h : Alike s s') (item : Except VcdError TimeValue) :
    AlikeResults (traceRound paths disk s item) (traceRound paths disk s' item) := by
  obtain ⟨current, acc, buffer⟩ := s
  obtain ⟨current', acc', buffer'⟩ := s'
  obtain ⟨rfl, rfl, hbuffer⟩ := h
  cases item with
  | error error => exact rfl
  | ok evt =>
    simp only [traceRound, processBuffer_same hbuffer]
    split
    · cases processBuffer paths disk buffer' acc with
      | error stopped => exact rfl
      | ok acc => exact ⟨rfl, rfl, fun _ => rfl⟩
    · exact ⟨rfl, rfl, hbuffer.append_right [evt]⟩

theorem AlikeResults.bind {r r' : Except Stopped TraceLoop} (h : AlikeResults r r')
    {f : TraceLoop → Except Stopped TraceLoop}
    (hf : ∀ s s', Alike s s' → AlikeResults (f s) (f s')) : AlikeResults (r >>= f) (r' >>= f) := by
  match r, r', h with
  | .error _, .error _, h => exact h
  | .ok s, .ok s', h => exact hf s s' h

theorem foldlM_alike (items : List (Except VcdError TimeValue)) {s s' : TraceLoop}
    (h : Alike s s') :
    AlikeResults (items.foldlM (traceRound paths disk) s)
      (items.foldlM (traceRound paths disk) s') := by
  induction items generalizing s s' with
  | nil => exact h
  | cons item items ih =>
    rw [List.foldlM_cons, List.foldlM_cons]
    exact (traceRound_alike h item).bind fun _ _ => ih

theorem traceRest_alike {r r' : Except Stopped TraceLoop} (h : AlikeResults r r') :
    r >>= traceRest paths disk = r' >>= traceRest paths disk := by
  match r, r', h with
  | .error stopped, .error _, h =>
    cases h
    rfl
  | .ok s, .ok s', h =>
    change traceRest paths disk s = traceRest paths disk s'
    rw [traceRest_eq, traceRest_eq, State.flush, State.flush, h.acc, processBuffer_same h.buffer]
    simp only [h.buffer.eq_nil_iff]

theorem sameChanges_swap {block block' : List TimeValue}
    (h : ∀ evt ∈ block, ∀ evt' ∈ block', evt.signal ≠ evt'.signal) :
    SameChanges (block ++ block') (block' ++ block) := by
  intro name
  rw [List.filter_append, List.filter_append]
  by_cases hblock : ∃ evt ∈ block, evt.signal = name
  · obtain ⟨evt, hevt, rfl⟩ := hblock
    have hnone : (block'.filter fun evt' => evt'.signal = evt.signal) = [] :=
      List.filter_eq_nil_iff.mpr fun evt' hevt' => by simpa using (h evt hevt evt' hevt').symm
    rw [hnone, List.append_nil, List.nil_append]
  · have hnone : (block.filter fun evt => evt.signal = name) = [] :=
      List.filter_eq_nil_iff.mpr fun evt hevt => by simpa using fun heq => hblock ⟨evt, hevt, heq⟩
    rw [hnone, List.append_nil, List.nil_append]

/-- Blocks of different signals at one time can be swapped. -/
theorem traceItems_swap (time : Nat) {block block' : List TimeValue}
    (htime : ∀ evt ∈ block ++ block', evt.time = time)
    (h : ∀ evt ∈ block, ∀ evt' ∈ block', evt.signal ≠ evt'.signal)
    (before after : List (Except VcdError TimeValue)) :
    traceItems paths disk (before ++ ((block ++ block').map .ok ++ after)) =
      traceItems paths disk (before ++ ((block' ++ block).map .ok ++ after)) := by
  have hsame := sameChanges_swap h
  have hrounds : ∀ (events : List TimeValue) (s : TraceLoop),
      (events.map .ok).foldlM (traceRound paths disk) s =
        events.foldlM (State.next (·.time) (processBuffer paths disk)) s := by
    intro events s
    rw [List.foldlM_map]
    simp only [traceRound_ok]
  rw [traceItems, traceItems, List.foldlM_append, List.foldlM_append]
  cases before.foldlM (traceRound paths disk) ⟨none, .init, []⟩ with
  | error stopped => rfl
  | ok s =>
    refine traceRest_alike ?_
    change AlikeResults (List.foldlM (traceRound paths disk) s ((block ++ block').map .ok ++ after))
      (List.foldlM (traceRound paths disk) s ((block' ++ block).map .ok ++ after))
    rw [List.foldlM_append, List.foldlM_append, hrounds, hrounds]
    refine AlikeResults.bind ?_ fun _ _ => foldlM_alike after
    by_cases hnil : block ++ block' = []
    · rw [hnil, hsame.eq_nil_iff.mp hnil]
      exact ⟨rfl, rfl, fun _ => rfl⟩
    · rw [foldlM_block _ _ hnil htime, foldlM_block _ _ (fun h => hnil (hsame.eq_nil_iff.mpr h))
        fun evt hevt => htime evt (hsame.symm.mem hevt)]
      split
      · exact ⟨rfl, rfl, hsame.append_left s.buffer⟩
      · cases processBuffer paths disk s.buffer s.acc with
        | error stopped => exact rfl
        | ok acc => exact ⟨rfl, rfl, hsame⟩

/-! ## The events of a body -/

theorem not_late (result : ParseResult) : isLate ⟨none, none⟩ result = false := by
  cases result with
  | error error => rfl
  | ok command => cases command <;> rfl

theorem legacyItems_append (names : IdCode → List String) (time : Nat)
    (before after : List ParseResult) :
    legacyItems names ⟨none, none⟩ time (before ++ after) =
      legacyItems names ⟨none, none⟩ time before ++
        legacyItems names ⟨none, none⟩ (before.foldl timeAfter time) after := by
  induction before generalizing time with
  | nil => rfl
  | cons result before ih =>
    rw [List.cons_append, legacyItems_cons (not_late result), legacyItems_cons (not_late result), ih,
      List.append_assoc, List.foldl_cons]

/-- A command that parses adds its rows. -/
theorem legacyItems_ok (names : IdCode → List String) (time : Nat) (command : Command)
    (rest : List ParseResult) :
    legacyItems names ⟨none, none⟩ time (.ok command :: rest) =
      (rowsAt names ⟨none, none⟩ time command).map .ok ++
        legacyItems names ⟨none, none⟩ (timeAfter time (.ok command)) rest := by
  rw [legacyItems_cons (not_late _), expand, map_legacyItem_ok]

theorem timeAfter_change {command : Command} {id : IdCode} {value : ChangeValue}
    (h : commandToChangeValue command = some (id, value)) (time : Nat) :
    timeAfter time (.ok command) = time := by
  cases command with
  | timestamp time' => cases h
  | _ => rfl

theorem mem_rowsAt {names : IdCode → List String} {command : Command} {id : IdCode}
    {value : ChangeValue} (h : commandToChangeValue command = some (id, value)) {time : Nat}
    {evt : TimeValue} (hevt : evt ∈ rowsAt names ⟨none, none⟩ time command) :
    evt.time = time ∧ evt.signal ∈ names id := by
  rw [rowsAt, h] at hevt
  simp only at hevt
  split at hevt
  · obtain ⟨name, hname, rfl⟩ := List.mem_map.mp hevt
    exact ⟨rfl, hname⟩
  · cases hevt

/-- The same program on another body. -/
def TraceInput.withBody (input : TraceInput) (body : List ParseResult) : TraceInput :=
  { input with body := .ok body }

theorem Opens.withBody {input : TraceInput} {catalog : SignalCatalog} {body : List ParseResult}
    (h : Opens (input.withBody body) paths catalog body) (body' : List ParseResult) :
    Opens (input.withBody body') paths catalog body' :=
  ⟨h.loaded, h.header, h.found, rfl, h.create⟩

theorem openTrace_withBody (input : TraceInput) (body : List ParseResult) :
    openTrace (input.withBody body) =
      (openTrace (input.withBody [])).map fun (paths, iter) =>
        (paths, { iter with parser := body }) := by
  unfold openTrace
  simp only [TraceInput.withBody]
  cases loadPaths input.signalPath with
  | error why => rfl
  | ok paths =>
    cases input.header with
    | error error => rfl
    | ok catalog =>
      simp only [bind, Except.bind, Except.mapError]
      cases catalog.intoCompatibilityParts with
      | error error => rfl
      | ok parts =>
        by_cases hmissing : (buildTargetMap parts.2 paths.targetNames).2 ≠ []
        · simp only [if_pos hmissing]
          rfl
        · simp only [if_neg hmissing]
          cases input.create <;> rfl

/-- Two bodies: the program gets to its loop on both, or does the same. -/
theorem withBody_cases (input : TraceInput) (body body' : List ParseResult) :
    traceMain (input.withBody body) = traceMain (input.withBody body') ∨
      ∃ paths catalog, Opens (input.withBody body) paths catalog body ∧
        Opens (input.withBody body') paths catalog body' := by
  cases hopen : openTrace (input.withBody []) with
  | error why =>
    left
    rw [traceMain, traceMain, openTrace_withBody input body, openTrace_withBody input body', hopen]
    rfl
  | ok opened =>
    right
    have hbody := openTrace_withBody input body
    rw [hopen] at hbody
    obtain ⟨catalog, commands, h, -⟩ := openTrace_ok hbody
    cases h.body
    exact ⟨_, catalog, h, h.withBody body'⟩

/-- **The order of different signals within a timestamp does not matter.** -/
theorem trace_order (input : TraceInput) (before after : List ParseResult) {c c' : Command}
    {id id' : IdCode} {value value' : ChangeValue} (hc : commandToChangeValue c = some (id, value))
    (hc' : commandToChangeValue c' = some (id', value')) (hid : id ≠ id') :
    traceMain (input.withBody (before ++ .ok c :: .ok c' :: after)) =
      traceMain (input.withBody (before ++ .ok c' :: .ok c :: after)) := by
  rcases withBody_cases input (before ++ .ok c :: .ok c' :: after)
    (before ++ .ok c' :: .ok c :: after) with hsame | ⟨paths, catalog, h, h'⟩
  · exact hsame
  · obtain ⟨time, htime⟩ : ∃ time, before.foldl timeAfter 0 = time := ⟨_, rfl⟩
    have hitems : ∀ {c c' : Command} {id id' : IdCode} {value value' : ChangeValue},
        commandToChangeValue c = some (id, value) → commandToChangeValue c' = some (id', value') →
        traceEvents paths catalog (before ++ .ok c :: .ok c' :: after) =
          traceEvents paths catalog before ++
            ((rowsAt (catalog.requested paths.targetNames) ⟨none, none⟩ time c ++
              rowsAt (catalog.requested paths.targetNames) ⟨none, none⟩ time c').map .ok ++
              legacyItems (catalog.requested paths.targetNames) ⟨none, none⟩ time after) := by
      intro c c' id id' value value' hc hc'
      rw [traceEvents, traceEvents, legacyItems_append, htime, legacyItems_ok,
        timeAfter_change hc, legacyItems_ok, timeAfter_change hc', List.map_append,
        List.append_assoc]
    rw [h.traceMain, h'.traceMain, ← traceItems_eq, ← traceItems_eq, hitems hc hc', hitems hc' hc]
    refine congrArg TraceEnd.ofLoop (traceItems_swap time ?_ ?_ _ _)
    · intro evt hevt
      rcases List.mem_append.mp hevt with hevt | hevt
      · exact (mem_rowsAt hc hevt).1
      · exact (mem_rowsAt hc' hevt).1
    · intro evt hevt evt' hevt' heq
      have hmem := (mem_rowsAt hc hevt).2
      have hmem' := (mem_rowsAt hc' hevt').2
      rw [← heq] at hmem'
      have hfound := of_decide_eq_true (List.mem_filter.mp hmem).2
      have hfound' := of_decide_eq_true (List.mem_filter.mp hmem').2
      exact hid (Option.some.inj (hfound.symm.trans hfound'))

/-- A waveform with a clock and another signal, for all the other paths. -/
def clockAndData : TraceInput where
  signalPath := some ⟨"paths.json", .ok (.ok ⟨some "clk", some "d", some "d", some "d", some "d",
    some "d", some "d", some "d", some "d", some "d"⟩)⟩
  header := SignalCatalog.fromScopeItems
    [.var ⟨.wire, 1, ⟨33⟩, "clk", none⟩, .var ⟨.wire, 1, ⟨34⟩, "d", none⟩]
  body := .ok []
  output := "trace.txt"
  create := .ok ()
  disk _ := none

def clockPaths : SignalPaths := ⟨"clk", "d", "d", "d", "d", "d", "d", "d", "d", "d"⟩

def clockCatalog : SignalCatalog := clockAndData.header.toOption.get rfl

theorem clock_opens (body : List ParseResult) :
    Opens (clockAndData.withBody body) clockPaths clockCatalog body where
  loaded := rfl
  header := rfl
  found := by decide
  body := rfl
  create := rfl

/-- The clock rises at 5, and again at 15, where both signals change. -/
def clockBody : List ParseResult :=
  [.ok (.timestamp 0), .ok (.changeScalar ⟨33⟩ .v0), .ok (.changeScalar ⟨34⟩ .v1),
    .ok (.timestamp 5), .ok (.changeScalar ⟨33⟩ .v1), .ok (.timestamp 10),
    .ok (.changeScalar ⟨33⟩ .v0), .ok (.timestamp 15)]

theorem trace_order_clock :
    traceMain (clockAndData.withBody (clockBody ++ .ok (.changeScalar ⟨33⟩ .v1) ::
        .ok (.changeScalar ⟨34⟩ .v0) :: [.ok (.timestamp 20)])) =
      traceMain (clockAndData.withBody (clockBody ++ .ok (.changeScalar ⟨34⟩ .v0) ::
        .ok (.changeScalar ⟨33⟩ .v1) :: [.ok (.timestamp 20)])) ∧
    traceMain (clockAndData.withBody (clockBody ++ .ok (.changeScalar ⟨33⟩ .v1) ::
        .ok (.changeScalar ⟨34⟩ .v0) :: [.ok (.timestamp 20)])) =
      ⟨some ["PC : 0x00000001 I : 0x00000001 ", "x01 <= 0x00000001"], [], none⟩ := by
  refine ⟨trace_order clockAndData _ _ rfl rfl (by simp), ?_⟩
  have hops : traceOps clockPaths (traceEvents clockPaths clockCatalog
      (clockBody ++ .ok (.changeScalar ⟨33⟩ .v1) :: .ok (.changeScalar ⟨34⟩ .v0) ::
        [.ok (.timestamp 20)])) =
      [.line "PC : 0x00000001 I : 0x00000001 ", .line "x01 <= 0x00000001"] := by decide
  rw [(clock_opens _).traceMain, hops]
  rfl

/-! ## Other ends of a body -/

theorem readUntilError_append (events : List TimeValue)
    (items : List (Except VcdError TimeValue)) :
    readUntilError (events.map .ok ++ items) =
      (events ++ (readUntilError items).1, (readUntilError items).2) := by
  induction events with
  | nil => rfl
  | cons evt events ih => rw [List.map_cons, List.cons_append, readUntilError, ih, List.cons_append]

theorem legacyItems_commands (names : IdCode → List String) (time : Nat) (commands : List Command) :
    ∃ events : List TimeValue,
      legacyItems names ⟨none, none⟩ time (commands.map .ok) = events.map .ok := by
  induction commands generalizing time with
  | nil => exact ⟨[], rfl⟩
  | cons command commands ih =>
    obtain ⟨events, hevents⟩ := ih (timeAfter time (.ok command))
    exact ⟨rowsAt names ⟨none, none⟩ time command ++ events, by
      rw [List.map_cons, legacyItems_ok, hevents, List.map_append]⟩

theorem out_prefix (ops : List TraceOp) (out : List String) :
    out <+: written (perform disk ops out) := by
  induction ops generalizing out with
  | nil => exact List.prefix_rfl
  | cons op ops ih =>
    cases op with
    | stop why => exact List.prefix_rfl
    | line text =>
      rw [perform_line]
      cases disk out.length with
      | some failure => exact List.prefix_rfl
      | none => exact (List.prefix_append _ _).trans (ih _)

/-- What operations write stays when others follow. -/
theorem written_append (disk : Nat → Option WriteFailure) (ops more : List TraceOp) (out : List String) :
    written (perform disk ops out) <+: written (perform disk (ops ++ more) out) := by
  rw [perform_append]
  cases perform disk ops out with
  | error stopped => exact List.prefix_rfl
  | ok out' => exact out_prefix more out'

theorem written_stop (ops : List TraceOp) (why : TraceFailure) (out : List String) :
    written (perform disk (ops ++ [.stop why]) out) = written (perform disk ops out) := by
  rw [perform_append]
  cases perform disk ops out <;> rfl

/-- Cycles that end in the timestamps before the last one, on more events. -/
theorem ended_events (paths : SignalPaths) (events more : List TimeValue) :
    ended (Rises paths · ·) (timestamps events).dropLast <+:
      ended (Rises paths · ·) (timestamps (events ++ more)).dropLast := by
  obtain ⟨later, hlater⟩ := dropLast_runs_prefix (fun evt : TimeValue => evt.time) events more
  rw [timestamps, timestamps, ← hlater]
  exact ended_prefix _ _ later

/-- The reports before a parse error begin every other list of reports. -/
theorem traceOps_error (paths : SignalPaths) (events : List TimeValue) (error : VcdError)
    (rest items : List (Except VcdError TimeValue)) :
    ∃ (ops more : List TraceOp) (why : TraceFailure),
      traceOps paths (events.map .ok ++ .error error :: rest) = ops ++ [.stop why] ∧
        traceOps paths (events.map .ok ++ items) = ops ++ more := by
  have hops : traceOps paths (events.map .ok ++ .error error :: rest) =
      (ended (Rises paths · ·) (timestamps events).dropLast).flatMap (cycleReport paths) ++
        [.stop (.vcd error)] := by
    rw [traceOps, readUntilError_append, readUntilError, List.append_nil]
  obtain ⟨events', error', hread⟩ : ∃ events' error', readUntilError items = (events', error') :=
    ⟨_, _, rfl⟩
  obtain ⟨later, hlater⟩ := ended_events paths events events'
  cases error' with
  | some error' =>
    refine ⟨_, later.flatMap (cycleReport paths) ++ [.stop (.vcd error')], _, hops, ?_⟩
    rw [traceOps, readUntilError_append, hread]
    simp only
    rw [← hlater, List.flatMap_append, List.append_assoc]
  | none =>
    obtain ⟨last, hlast⟩ := List.dropLast_prefix (timestamps (events ++ events'))
    obtain ⟨later', hlater'⟩ : ended (Rises paths · ·) (timestamps (events ++ events')).dropLast <+:
        cycles (Rises paths · ·) (timestamps (events ++ events')) := by
      have hended := ended_prefix (fun seen batch => decide (Rises paths seen batch))
        (timestamps (events ++ events')).dropLast last
      rw [hlast] at hended
      exact hended.trans (ended_prefix_cycles _)
    refine ⟨_, (later ++ later').flatMap (cycleReport paths), _, hops, ?_⟩
    rw [traceOps, readUntilError_append, hread]
    simp only
    rw [← hlater', ← hlater, List.append_assoc, List.flatMap_append]

theorem file_ofLoop (result : Except Stopped (List String)) :
    (TraceEnd.ofLoop result).file = some (written result) := by
  cases result <;> rfl

/-- **What was written stays right**: the lines before a parse error are the
first lines of the trace of every other end of the body. -/
theorem trace_keeps (input : TraceInput) (commands : List Command) (error : IoError)
    (rest after : List ParseResult) :
    ((traceMain (input.withBody (commands.map .ok ++ .error error :: rest))).file.getD []) <+:
      (traceMain (input.withBody (commands.map .ok ++ after))).file.getD [] := by
  rcases withBody_cases input (commands.map .ok ++ .error error :: rest)
    (commands.map .ok ++ after) with hsame | ⟨paths, catalog, h, h'⟩
  · rw [hsame]
  · obtain ⟨events, hevents⟩ :=
      legacyItems_commands (catalog.requested paths.targetNames) 0 commands
    rw [h.traceMain, h'.traceMain, file_ofLoop, file_ofLoop, Option.getD_some, Option.getD_some,
      traceEvents, traceEvents, legacyItems_append, legacyItems_append, hevents,
      legacyItems_cons (not_late _)]
    obtain ⟨ops, more, why, hops, hops'⟩ := traceOps_error paths events (.io error)
      (legacyItems (catalog.requested paths.targetNames) ⟨none, none⟩
        (timeAfter ((commands.map .ok).foldl timeAfter 0) (.error error)) rest)
      (legacyItems (catalog.requested paths.targetNames) ⟨none, none⟩
        ((commands.map .ok).foldl timeAfter 0) after)
    have hwritten := written_append input.disk ops more []
    rw [← written_stop ops why, ← hops, ← hops'] at hwritten
    exact hwritten

end VcdTools.Cli
