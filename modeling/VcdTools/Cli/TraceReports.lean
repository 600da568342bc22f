import VcdTools.Cli.Trace
import VcdTools.Query.ExtractReference

/-! # What the trace reports

The changes of a timestamp make a batch. A batch in which the clock is set,
while it was low before the batch, starts a cycle; a cycle is reported on the
values it ends with. The loop with its buffer writes what these reports say. -/
namespace VcdTools.Cli
open VcdTools.Lib VcdTools.Lib.Iter VcdTools.Lib.Batches VcdTools.Query
open VcdTools.Lib.RunReports (runs)

variable {paths : SignalPaths} {disk : Nat → Option WriteFailure}

/-! ## The reports -/

/-- The last values of the signals. -/
def lastValues (events : List TimeValue) : NameMap ChangeValue := fun name =>
  ((events.filter fun evt => evt.signal = name).getLast?).map (·.value)

/-- The level of the clock after `events`. -/
def clockLevel (paths : SignalPaths) (events : List TimeValue) : Option Bool :=
  (lastValues events paths.clk).bind valueToBool

/-- The changes of each timestamp. -/
def timestamps (events : List TimeValue) : List (List TimeValue) := runs (·.time) events

/-- A batch starts a cycle: the clock was low before it, and is set in it. -/
def Rises (paths : SignalPaths) (seen : List (List TimeValue)) (batch : List TimeValue) : Prop :=
  clockLevel paths seen.flatten = some false ∧
    ∃ evt ∈ batch, evt.signal = paths.clk ∧ valueToBool evt.value = some true

instance (seen : List (List TimeValue)) (batch : List TimeValue) :
    Decidable (Rises paths seen batch) :=
  inferInstanceAs (Decidable (_ ∧ _))

/-- The report of a cycle that ends after `seen`. -/
def cycleReport (paths : SignalPaths) (seen : List (List TimeValue)) : List TraceOp :=
  processCycle paths (lastValues seen.flatten)

/-- The values of a list of results before its first error, and that error. -/
def readUntilError {ε β : Type} : List (Except ε β) → List β × Option ε
  | [] => ([], none)
  | .ok b :: items => ((b :: (readUntilError items).1), (readUntilError items).2)
  | .error e :: _ => ([], some e)

/-- **What the trace should do**: the reports of all cycles, and after a parse
error those of the cycles that had ended in the timestamps before the last. -/
def traceOps (paths : SignalPaths) (items : List (Except VcdError TimeValue)) : List TraceOp :=
  let (events, error) := readUntilError items
  match error with
  | none => (cycles (Rises paths · ·) (timestamps events)).flatMap (cycleReport paths)
  | some error =>
    (ended (Rises paths · ·) (timestamps events).dropLast).flatMap (cycleReport paths) ++
      [.stop (.vcd error)]

/-! ## Last values -/

theorem lastValues_concat (events : List TimeValue) (evt : TimeValue) :
    lastValues (events ++ [evt]) = Function.update (lastValues events) evt.signal (some evt.value) := by
  funext name
  unfold lastValues
  rw [List.filter_append]
  by_cases hname : evt.signal = name
  · subst hname
    simp
  · rw [Function.update_of_ne (fun h => hname h.symm)]
    simp [hname]

/-- What `process_buffer` borrows, after the events `seen`. -/
def traceAfter (paths : SignalPaths) (seen : List TimeValue) (started : Bool) (out : List String) :
    Trace where
  state := lastValues seen
  prevClk := clockLevel paths seen
  started := started
  out := out

theorem update_traceAfter (seen : List TimeValue) (evt : TimeValue) (started : Bool)
    (out : List String) :
    (traceAfter paths seen started out).update paths evt =
      traceAfter paths (seen ++ [evt]) started out := by
  simp only [traceAfter, Trace.update, lastValues_concat, clockLevel]
  by_cases hclk : evt.signal = paths.clk
  · simp [hclk]
  · rw [Function.update_of_ne (fun h => hclk h.symm), if_neg hclk]

theorem foldl_update (buffer seen : List TimeValue) (started : Bool) (out : List String) :
    buffer.foldl (Trace.update paths) (traceAfter paths seen started out) =
      traceAfter paths (seen ++ buffer) started out := by
  induction buffer generalizing seen with
  | nil => simp
  | cons evt buffer ih => rw [List.foldl_cons, update_traceAfter, ih, ← List.append_cons]

/-! ## Writing -/

@[simp] theorem perform_nil (out : List String) : perform disk [] out = .ok out := rfl

theorem perform_append (ops ops' : List TraceOp) (out : List String) :
    perform disk (ops ++ ops') out = perform disk ops out >>= perform disk ops' := by
  rw [perform, List.foldlM_append]
  rfl

/-- The lines of a list of operations. -/
def opLines (ops : List TraceOp) : List String :=
  ops.filterMap fun op => match op with
    | .line text => some text
    | .stop _ => none

/-- The lines that are written before the program ends. -/
def written : Except Stopped (List String) → List String
  | .ok out => out
  | .error stopped => stopped.out

theorem perform_line (text : String) (ops : List TraceOp) (out : List String) :
    perform disk (.line text :: ops) out =
      match disk out.length with
      | none => perform disk ops (out ++ [text])
      | some failure =>
        .error ⟨out, (encodeUtf8 text.toList).take failure.taken, .write failure.error⟩ := by
  rw [perform, List.foldlM_cons]
  cases disk out.length <;> rfl

theorem perform_stop (why : TraceFailure) (ops : List TraceOp) (out : List String) :
    perform disk (.stop why :: ops) out = .error ⟨out, [], why⟩ := rfl

/-- Nothing but lines of the operations is written, in their order. -/
theorem written_perform (ops : List TraceOp) (out : List String) :
    written (perform disk ops out) <+: out ++ opLines ops := by
  induction ops generalizing out with
  | nil => simp [written, opLines]
  | cons op ops ih =>
    cases op with
    | stop why => exact List.prefix_append _ _
    | line text =>
      rw [perform_line]
      cases disk out.length with
      | some failure => exact List.prefix_append _ _
      | none =>
        have hrest := ih (out ++ [text])
        rwa [List.append_assoc] at hrest

/-- What is left of a line that could not be written is its beginning. -/
theorem fragment_perform {ops : List TraceOp} {out : List String} {stopped : Stopped}
    (h : perform disk ops out = .error stopped) (hfragment : stopped.fragment ≠ []) :
    ∃ text, stopped.out ++ [text] <+: out ++ opLines ops ∧
      stopped.fragment <+: encodeUtf8 text.toList := by
  induction ops generalizing out with
  | nil => cases h
  | cons op ops ih =>
    cases op with
    | stop why =>
      cases h
      exact absurd rfl hfragment
    | line text =>
      have hlines : out ++ opLines (.line text :: ops) = out ++ [text] ++ opLines ops :=
        (List.append_cons _ _ _)
      rw [perform_line] at h
      rw [hlines]
      cases hdisk : disk out.length with
      | some failure =>
        rw [hdisk] at h
        cases h
        exact ⟨text, List.prefix_append _ _, List.take_prefix _ _⟩
      | none =>
        rw [hdisk] at h
        exact ih h

/-- All of them are written where no operation ends the program and no write
fails. -/
theorem perform_ok_iff {ops : List TraceOp} {out out' : List String} :
    perform disk ops out = .ok out' ↔
      (∀ why, .stop why ∉ ops) ∧ out' = out ++ opLines ops ∧
        ∀ n, out.length ≤ n → n < out'.length → disk n = none := by
  induction ops generalizing out with
  | nil =>
    rw [perform_nil, Except.ok.injEq]
    constructor
    · rintro rfl
      exact ⟨by simp, by simp [opLines], fun n h h' => absurd h (by omega)⟩
    · rintro ⟨-, rfl, -⟩
      simp [opLines]
  | cons op ops ih =>
    cases op with
    | stop why =>
      rw [perform_stop]
      exact ⟨fun h => (by cases h), fun h => absurd List.mem_cons_self (h.1 why)⟩
    | line text =>
      have hlines : opLines (.line text :: ops) = text :: opLines ops := rfl
      rw [perform_line, hlines]
      cases hdisk : disk out.length with
      | some failure =>
        refine ⟨fun h => (by cases h), ?_⟩
        rintro ⟨-, rfl, hwrites⟩
        have hnone := hwrites out.length (Nat.le_refl _) (by simp)
        rw [hdisk] at hnone
        cases hnone
      | none =>
        simp only
        rw [ih, List.append_assoc, List.singleton_append, List.length_append, List.length_singleton]
        constructor
        · rintro ⟨hops, rfl, hwrites⟩
          refine ⟨fun why => by simpa using hops why, rfl, fun n hn hlt => ?_⟩
          rcases Nat.eq_or_lt_of_le hn with rfl | hn
          · exact hdisk
          · exact hwrites n hn hlt
        · rintro ⟨hops, rfl, hwrites⟩
          exact ⟨fun why => by simpa using hops why, rfl,
            fun n hn hlt => hwrites n (by omega) hlt⟩

/-! ## The batches -/

/-- A batch reports the cycle that it ends. -/
theorem processBuffer_traceAfter (seen : List (List TimeValue)) (batch : List TimeValue)
    (started : Bool) (out : List String) :
    processBuffer paths disk batch (traceAfter paths seen.flatten started out) =
      (perform disk (if Rises paths seen batch ∧ started then cycleReport paths seen else []) out).map
        fun out => traceAfter paths (seen ++ [batch]).flatten (started || Rises paths seen batch) out := by
  have hrising : (batch.any fun evt => evt.signal = paths.clk ∧
      (traceAfter paths seen.flatten started out).prevClk = some false ∧
        valueToBool evt.value = some true) = decide (Rises paths seen batch) := by
    rw [Bool.eq_iff_iff, List.any_eq_true, decide_eq_true_iff]
    constructor
    · rintro ⟨evt, hevt, h⟩
      obtain ⟨hclk, hlow, hhigh⟩ := of_decide_eq_true h
      exact ⟨hlow, evt, hevt, hclk, hhigh⟩
    · rintro ⟨hlow, evt, hevt, hclk, hhigh⟩
      exact ⟨evt, hevt, decide_eq_true ⟨hclk, hlow, hhigh⟩⟩
  have hfold : ∀ started' out', batch.foldl (Trace.update paths)
      { traceAfter paths seen.flatten started out with out := out', started := started' } =
        traceAfter paths (seen ++ [batch]).flatten started' out' := by
    intro started' out'
    rw [List.flatten_append, List.flatten_singleton]
    exact foldl_update batch seen.flatten started' out'
  unfold processBuffer
  simp only [hrising, decide_eq_true_eq]
  by_cases hrises : Rises paths seen batch ∧ started = true
  · rw [if_pos hrises]
    refine (if_pos hrises).trans ?_
    change (perform disk (cycleReport paths seen) out >>= fun out' => pure _) = _
    cases perform disk (cycleReport paths seen) out with
    | error stopped => rfl
    | ok out' => exact congrArg Except.ok (hfold _ _)
  · rw [if_neg hrises]
    refine (if_neg hrises).trans ?_
    exact congrArg Except.ok (hfold _ _)

/-- **The batches report the cycles that they end.** -/
theorem processAll_init (batches : List (List TimeValue)) :
    processAll (processBuffer paths disk) batches .init =
      (perform disk ((ended (Rises paths · ·) batches).flatMap (cycleReport paths)) []).map fun out =>
        traceAfter paths batches.flatten (!(starts (Rises paths · ·) batches).isEmpty) out := by
  induction batches using List.reverseRecOn with
  | nil => rfl
  | append_singleton batches batch ih =>
    have hops : (ended (Rises paths · ·) (batches ++ [batch])).flatMap (cycleReport paths) =
        (ended (Rises paths · ·) batches).flatMap (cycleReport paths) ++
          if Rises paths batches batch ∧ !(starts (Rises paths · ·) batches).isEmpty then
            cycleReport paths batches else [] := by
      rw [ended_concat, cycles_eq]
      by_cases hrises : Rises paths batches batch
      · by_cases hstarts : starts (Rises paths · ·) batches = []
        · simp [hrises, hstarts]
        · simp [hrises, hstarts]
      · simp [hrises]
    have hstarted : (!(starts (Rises paths · ·) batches).isEmpty || Rises paths batches batch) =
        !(starts (Rises paths · ·) (batches ++ [batch])).isEmpty := by
      rw [starts_concat]
      by_cases hrises : Rises paths batches batch <;> simp [hrises]
    rw [processAll_append, ih, hops, perform_append]
    cases perform disk ((ended (Rises paths · ·) batches).flatMap (cycleReport paths)) [] with
    | error stopped => rfl
    | ok out =>
      change processAll (processBuffer paths disk) [batch] (traceAfter paths batches.flatten _ out) = _
      rw [processAll_singleton, processBuffer_traceAfter, hstarted]
      rfl

/-! ## The loop -/

theorem traceRound_ok (s : TraceLoop) (evt : TimeValue) :
    traceRound paths disk s (.ok evt) =
      State.next (·.time) (processBuffer paths disk) s evt := by
  obtain ⟨current, acc, buffer⟩ := s
  cases current with
  | none => simp [traceRound, State.next]
  | some time =>
    by_cases htime : evt.time = time
    · simp [traceRound, State.next, htime]
    · have htime' : ¬ time = evt.time := fun h => htime h.symm
      simp only [traceRound, State.next, Option.getD_some, ne_eq, htime, not_false_eq_true, if_true,
        reduceCtorEq, Option.some.injEq, htime', or_self, if_false]
      cases processBuffer paths disk buffer acc <;> rfl

/-- The loop on the events before the first error. -/
theorem foldlM_traceRound (items : List (Except VcdError TimeValue)) (s : TraceLoop) :
    items.foldlM (traceRound paths disk) s =
      (readUntilError items).1.foldlM (State.next (·.time) (processBuffer paths disk)) s >>=
        fun s => match (readUntilError items).2 with
          | none => .ok s
          | some error => .error ⟨s.acc.out, [], .vcd error⟩ := by
  induction items generalizing s with
  | nil => rfl
  | cons item items ih =>
    cases item with
    | error error => rfl
    | ok evt =>
      rw [List.foldlM_cons, traceRound_ok]
      cases hround : State.next (·.time) (processBuffer paths disk) s evt with
      | error stopped =>
        simp [readUntilError, hround, bind, Except.bind]
      | ok s' =>
        simp only [readUntilError, List.foldlM_cons, hround]
        exact ih s'

/-- The loop over a list of items, and what follows it. -/
def traceItems (paths : SignalPaths) (disk : Nat → Option WriteFailure)
    (items : List (Except VcdError TimeValue)) : Except Stopped (List String) :=
  items.foldlM (traceRound paths disk) ⟨none, .init, []⟩ >>= traceRest paths disk

/-- The last cycle is reported after the last batch. -/
theorem traceRest_eq (s : TraceLoop) :
    traceRest paths disk s = s.flush (processBuffer paths disk) >>= fun t =>
      if t.started then perform disk (processCycle paths t.state) t.out else .ok t.out := by
  unfold traceRest State.flush
  by_cases hbuffer : s.buffer = []
  · rw [if_pos hbuffer]
    refine (if_neg (not_not_intro hbuffer)).trans ?_
    rfl
  · rw [if_neg hbuffer]
    exact if_pos hbuffer

/-- **The loop writes the reports.** -/
theorem traceItems_eq (items : List (Except VcdError TimeValue)) :
    traceItems paths disk items = perform disk (traceOps paths items) [] := by
  obtain ⟨events, error, hread⟩ : ∃ events error, readUntilError items = (events, error) :=
    ⟨_, _, rfl⟩
  rw [traceItems, foldlM_traceRound, traceOps, hread]
  cases error with
  | none =>
    have hloop := foldlM_flush (·.time) (processBuffer paths disk) .init events
    have hrest : ∀ loop : Except Stopped TraceLoop,
        ((loop >>= fun s => .ok s) >>= traceRest paths disk) =
          (loop >>= State.flush (processBuffer paths disk)) >>= fun t =>
            if t.started then perform disk (processCycle paths t.state) t.out else .ok t.out := by
      intro loop
      cases loop with
      | error stopped => rfl
      | ok s => exact traceRest_eq s
    refine (hrest _).trans ?_
    rw [hloop, processAll_init]
    simp only
    rw [cycles_eq, List.flatMap_append, perform_append, timestamps]
    cases perform disk ((ended (Rises paths · ·) (runs (·.time) events)).flatMap
      (cycleReport paths)) [] with
    | error stopped => rfl
    | ok out =>
      change (if !(starts (Rises paths · ·) (runs (·.time) events)).isEmpty then
          perform disk (cycleReport paths (runs (·.time) events)) out else .ok out) = _
      by_cases hstarts : starts (Rises paths · ·) (runs (·.time) events) = []
      · simp [hstarts, bind, Except.bind]
      · simp [hstarts, bind, Except.bind]
  | some error =>
    simp only
    rw [foldlM_next, processAll_init, perform_append, timestamps]
    cases perform disk ((ended (Rises paths · ·) (runs (·.time) events).dropLast).flatMap
      (cycleReport paths)) [] <;> rfl

/-- The loop over an iterator writes the reports of what it yields. -/
theorem traceLoop_eq {iter : TimeValueIter} {items : List (Except VcdError TimeValue)}
    (h : Yields TimeValueIter.next iter items) :
    traceLoop paths disk iter = perform disk (traceOps paths items) [] := by
  have hitems : Yields TimeValueIter.nextItem iter
      (items.map (Except.ok : _ → Except Stopped (Except VcdError TimeValue))) := h.map _
  have hforget : traceLoop paths disk iter =
      (iterate TimeValueIter.nextItem TimeValueIter.size TimeValueIter.nextItem_shrinks
        (fun s evtRes => (traceRound paths disk s evtRes).map (true, ·)) ⟨none, .init, []⟩
          iter).map (fun ended => (ended.1, ended.2.1)) >>= fun ended =>
            traceRest paths disk ended.2 := by
    unfold traceLoop
    generalize iterate _ _ _ _ _ _ = ended
    cases ended <;> rfl
  rw [hforget, iterate_of_yields TimeValueIter.nextItem_shrinks hitems, visit_map_ok,
    ← traceItems_eq, traceItems]
  cases items.foldlM (traceRound paths disk) ⟨none, .init, []⟩ <;> rfl

/-! ## The program -/

/-- The names without a signal, in the order of the requests. -/
theorem buildTargetMap_missing (index : SignalIndex) (targets : List String) :
    (buildTargetMap index targets).2 =
      targets.filter fun name => (index.byName.lookup name).isNone := by
  have hloop : ∀ (mapping : Groups IdCode String) (missing : List String),
      (buildTargetMapLoop index mapping missing targets).2 =
        missing ++ targets.filter fun name => (index.byName.lookup name).isNone := by
    induction targets with
    | nil => simp [buildTargetMapLoop]
    | cons name targets ih =>
      intro mapping missing
      rw [buildTargetMapLoop]
      cases hname : index.byName.lookup name <;> simp [hname, ih]
  exact hloop [] []

/-- The names of the paths that a waveform lacks. -/
def missingNames (paths : SignalPaths) (catalog : SignalCatalog) : List String :=
  paths.targetNames.filter fun name => (catalog.find name).isNone

/-- What the loop reads from a body. -/
def traceEvents (paths : SignalPaths) (catalog : SignalCatalog) (commands : List ParseResult) :
    List (Except VcdError TimeValue) :=
  legacyItems (catalog.requested paths.targetNames) ⟨none, none⟩ 0 commands

/-- The program gets to its loop on these paths, this catalog and this body. -/
structure Opens (input : TraceInput) (paths : SignalPaths) (catalog : SignalCatalog)
    (commands : List ParseResult) : Prop where
  loaded : loadPaths input.signalPath = .ok paths
  header : input.header = .ok catalog
  found : missingNames paths catalog = []
  body : input.body = .ok commands
  create : input.create = .ok ()

/-- The program up to its target map. -/
theorem openTrace_mapped {input : TraceInput} {catalog : SignalCatalog}
    (hpaths : loadPaths input.signalPath = .ok paths) (hheader : input.header = .ok catalog) :
    ∃ mapping, openTrace input =
        (if missingNames paths catalog ≠ [] then
          .error (.bail ("signals not found in VCD: " ++
            ", ".intercalate (missingNames paths catalog)))
        else do
          let body ← input.body.mapError .vcd
          input.create.mapError (.context ("creating " ++ input.output))
          return (paths, .new body mapping ⟨none, none⟩)) ∧
      (missingNames paths catalog = [] → mapping.Filled ∧
        ∀ id, mapping.getD id = catalog.requested paths.targetNames id) := by
  obtain ⟨signals, index, hparts, hindex⟩ := catalog.toCompatibilityParts_ok
  have hinto : catalog.intoCompatibilityParts = .ok (signals, index) := hparts
  have hmissing : (buildTargetMap index paths.targetNames).2 = missingNames paths catalog := by
    rw [buildTargetMap_missing, missingNames]
    simp only [hindex, Option.isNone_map]
  refine ⟨(buildTargetMap index paths.targetNames).1, ?_, ?_⟩
  · rw [← hmissing]
    simp only [openTrace, hpaths, hheader, hinto, bind, Except.bind, Except.mapError]
    split <;> rfl
  · intro hfound
    have hall : ∀ name ∈ paths.targetNames, (catalog.find name).isSome := by
      intro name hname
      have hsome := List.filter_eq_nil_iff.mp hfound name hname
      rwa [Option.isNone_iff_eq_none, ← ne_eq, Option.ne_none_iff_isSome] at hsome
    obtain ⟨mapping, hmapping, hfilled, hnames⟩ := buildTargetMap_spec hindex hall
    rw [hmapping]
    exact ⟨hfilled, hnames⟩

/-- The loop is reached where the program opens. -/
theorem openTrace_ok {input : TraceInput} {iter : TimeValueIter}
    (h : openTrace input = .ok (paths, iter)) :
    ∃ catalog commands, Opens input paths catalog commands ∧
      Yields TimeValueIter.next iter (traceEvents paths catalog commands) := by
  cases hpaths : loadPaths input.signalPath with
  | error why => simp [openTrace, hpaths, bind, Except.bind] at h
  | ok paths' =>
    cases hheader : input.header with
    | error error => simp [openTrace, hpaths, hheader, bind, Except.bind, Except.mapError] at h
    | ok catalog =>
      obtain ⟨mapping, hopen, hmapping⟩ := openTrace_mapped hpaths hheader
      rw [hopen] at h
      by_cases hfound : missingNames paths' catalog = []
      · obtain ⟨hfilled, hnames⟩ := hmapping hfound
        rw [if_neg (not_not_intro hfound)] at h
        cases hbody : input.body with
        | error error => simp [hbody, bind, Except.bind, Except.mapError] at h
        | ok commands =>
          cases hcreate : input.create with
          | error cause => simp [hbody, hcreate, bind, Except.bind, Except.mapError] at h
          | ok _ =>
            rw [hbody, hcreate] at h
            cases h
            exact ⟨catalog, commands, ⟨hpaths, hheader, hfound, hbody, hcreate⟩,
              legacy_yields hfilled hnames commands⟩
      · rw [if_pos hfound] at h
        cases h

theorem Opens.openTrace {input : TraceInput} {catalog : SignalCatalog} {commands : List ParseResult}
    (h : Opens input paths catalog commands) : ∃ iter, openTrace input = .ok (paths, iter) := by
  obtain ⟨mapping, hopen, -⟩ := openTrace_mapped h.loaded h.header
  rw [hopen, if_neg (not_not_intro h.found), h.body, h.create]
  exact ⟨_, rfl⟩

/-- **The file has the reports** of the events that the loop reads. -/
theorem Opens.traceMain {input : TraceInput} {catalog : SignalCatalog}
    {commands : List ParseResult} (h : Opens input paths catalog commands) :
    traceMain input = .ofLoop (perform input.disk
      (traceOps paths (traceEvents paths catalog commands)) []) := by
  obtain ⟨iter, hopen⟩ := h.openTrace
  obtain ⟨catalog', commands', h', hyields⟩ := openTrace_ok hopen
  cases h.header.symm.trans h'.header
  cases h.body.symm.trans h'.body
  rw [Cli.traceMain, hopen]
  exact congrArg TraceEnd.ofLoop (traceLoop_eq hyields)

/-- **How a trace comes about.** -/
structure Traced (input : TraceInput) : Prop where
  /-- All names that the waveform lacks are told, and no file is created. -/
  lacks : ∀ paths catalog, loadPaths input.signalPath = .ok paths → input.header = .ok catalog →
    missingNames paths catalog ≠ [] → traceMain input = ⟨none, [], some (.bail
      ("signals not found in VCD: " ++ ", ".intercalate (missingNames paths catalog)))⟩
  /-- The file is created exactly where the program gets to its loop. -/
  created : (traceMain input).file.isSome ↔
    ∃ paths catalog commands, Opens input paths catalog commands
  /-- It has the reports of the cycles, up to what ends the program; -/
  reports : ∀ paths catalog commands, Opens input paths catalog commands →
    let ops := traceOps paths (traceEvents paths catalog commands)
    traceMain input = .ofLoop (perform input.disk ops []) ∧
      ∃ out, (traceMain input).file = some out ∧ out <+: opLines ops
  /-- and where a line could not be written, at most its beginning. -/
  torn : ∀ paths catalog commands, Opens input paths catalog commands →
    (traceMain input).fragment ≠ [] → ∃ out text, (traceMain input).file = some out ∧
      out ++ [text] <+: opLines (traceOps paths (traceEvents paths catalog commands)) ∧
      (traceMain input).fragment <+: encodeUtf8 text.toList
  /-- The program succeeds exactly where no report ends it and all lines can be
  written, and then it wrote them all. -/
  complete : ∀ paths catalog commands, Opens input paths catalog commands →
    let ops := traceOps paths (traceEvents paths catalog commands)
    ((traceMain input).failure = none ↔
      (∀ why, .stop why ∉ ops) ∧ ∀ n < (opLines ops).length, input.disk n = none) ∧
    ((traceMain input).failure = none → (traceMain input).file = some (opLines ops))

theorem trace_reports (input : TraceInput) : Traced input where
  lacks := by
    intro paths catalog hpaths hheader hmissing
    obtain ⟨mapping, hopen, -⟩ := openTrace_mapped hpaths hheader
    rw [if_pos hmissing] at hopen
    rw [traceMain, hopen]
  created := by
    constructor
    · intro h
      cases hopen : openTrace input with
      | error why =>
        rw [traceMain, hopen] at h
        cases h
      | ok opened =>
        obtain ⟨catalog, commands, hopens, -⟩ := openTrace_ok hopen
        exact ⟨opened.1, catalog, commands, hopens⟩
    · rintro ⟨paths, catalog, commands, hopens⟩
      rw [hopens.traceMain]
      cases perform input.disk (traceOps paths (traceEvents paths catalog commands)) [] <;> rfl
  reports := by
    intro paths catalog commands hopens ops
    have hbegin : written (perform input.disk ops []) <+: [] ++ opLines ops := written_perform ops []
    have hmain := hopens.traceMain
    refine ⟨hmain, ?_⟩
    rw [hmain]
    cases hperform : perform input.disk ops [] with
    | error stopped =>
      rw [hperform] at hbegin
      exact ⟨stopped.out, rfl, hbegin⟩
    | ok out =>
      rw [hperform] at hbegin
      exact ⟨out, rfl, hbegin⟩
  torn := by
    intro paths catalog commands hopens hfragment
    rw [hopens.traceMain] at hfragment ⊢
    cases hperform : perform input.disk (traceOps paths (traceEvents paths catalog commands)) [] with
    | error stopped =>
      rw [hperform] at hfragment
      obtain ⟨text, hnext, hbegin⟩ := fragment_perform hperform hfragment
      exact ⟨stopped.out, text, rfl, hnext, hbegin⟩
    | ok out =>
      rw [hperform] at hfragment
      exact absurd rfl hfragment
  complete := by
    intro paths catalog commands hopens ops
    have hmain := hopens.traceMain
    have hiff : ∀ out, perform input.disk ops [] = .ok out ↔ _ := fun out => perform_ok_iff
    cases hperform : perform input.disk ops [] with
    | error stopped =>
      rw [hmain, hperform]
      refine ⟨⟨fun h => (by cases h), fun ⟨hops, hdisk⟩ => ?_⟩, fun h => (by cases h)⟩
      have hok := (hiff (opLines ops)).mpr ⟨hops, rfl, fun n _ hn => hdisk n hn⟩
      cases hperform.symm.trans hok
    | ok out =>
      obtain ⟨hops, hout, hdisk⟩ := (hiff out).mp hperform
      rw [List.nil_append] at hout
      subst hout
      rw [hmain, hperform]
      exact ⟨⟨fun _ => ⟨hops, fun n hn => hdisk n (Nat.zero_le n) hn⟩, fun _ => rfl⟩, fun _ => rfl⟩

end VcdTools.Cli
