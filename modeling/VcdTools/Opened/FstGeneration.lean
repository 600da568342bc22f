import VcdTools.Opened.FstExtract
import VcdTools.Lib.Runs

/-! # Which file an FST query reads

A query opens its path three times: to check the generation, to read, and to
check again. Between any two of its steps somebody else may put another file in
the place of the path; a file that is open stays what it is. -/
namespace VcdTools.Opened
open VcdTools.Lib VcdTools.Query

/-- Where a query stands. From the reopening on it holds the file it reads. -/
inductive FstPc
  | start
  | validating (selection : FstSelection)
  | reopening (selection : FstSelection)
  | reading (selection : FstSelection) (file : FstFile)
  | revalidating (file : FstFile) (rows : List TimeValue)
  | done (result : Except QueryError (List TimeValue)) (source : Option FstFile)

/-- What the path names, and the query. -/
structure FstWorld where
  path : Opening
  pc : FstPc

/-- A replacement of what the path names, or a step of the query, which reads
its context as it is then. -/
inductive FstAction
  | replace (path : Opening)
  | step (context : QueryContext)

variable {η : Type}

/-- The parts of one query that do not change. -/
structure FstQuery (η : Type) where
  opened : OpenedFst η
  hash : List UInt8 → η
  reader : FstReader
  targets : List String
  window : TimeWindow

variable [DecidableEq η]

/-- A check of the context and of the generation. -/
def FstQuery.checkGeneration (query : FstQuery η) (context : QueryContext) (path : Opening) :
    Except QueryError Unit := do
  context.check
  (query.opened.validateSource query.hash path).mapError fstToQuery

/-- A step of `visit_changes_until_with_context`, on what the path names now. -/
def FstQuery.advance (query : FstQuery η) (context : QueryContext) (path : Opening) :
    FstPc → FstPc
  | .start =>
    match context.checkSignalCount query.targets.length with
    | .error error => .done (.error error) none
    | .ok () =>
      if inverted query.window then .done (.ok []) none
      else
        match query.opened.select query.targets with
        | .error error => .done (.error error) none
        | .ok selection => .validating selection
  | .validating selection =>
    match query.checkGeneration context path with
    | .error error => .done (.error error) none
    | .ok () => .reopening selection
  | .reopening selection =>
    match path with
    | .error error => .done (.error (.sourceUnavailable error)) none
    | .ok file => .reading selection file
  | .reading selection file =>
    match readFile context pushRow query.reader selection (query.window.start.getD 0)
        (query.window.end_.getD query.opened.header.endTime) file [] with
    | .error error => .done (.error error) (some file)
    | .ok rows => .revalidating file rows
  | .revalidating file rows =>
    match query.checkGeneration context path with
    | .error error => .done (.error error) (some file)
    | .ok () => .done (.ok rows) (some file)
  | .done result source => .done result source

def FstQuery.step (query : FstQuery η) (world : FstWorld) : FstAction → Option FstWorld
  | .replace path => some { world with path := path }
  | .step context => some { world with pc := query.advance context world.path world.pc }

/-! ## The steps are the query -/

@[simp] theorem advance_done (query : FstQuery η) (context : QueryContext) (path : Opening)
    (result : Except QueryError (List TimeValue)) (source : Option FstFile) :
    query.advance context path (.done result source) = .done result source := rfl

/-- `extract_with_context`, with its two checks of the generation by name. -/
theorem extractWithContext_eq (query : FstQuery η) (context : QueryContext)
    (openings : Openings) :
    query.opened.extractWithContext query.hash query.reader openings query.targets query.window
        context = (do
      context.checkSignalCount query.targets.length
      if inverted query.window then return []
      let selection ← query.opened.select query.targets
      query.checkGeneration context openings.validated
      let file ← openings.read.mapError .sourceUnavailable
      let rows ← readFile context pushRow query.reader selection (query.window.start.getD 0)
        (query.window.end_.getD query.opened.header.endTime) file []
      query.checkGeneration context openings.revalidated
      return rows) := by
  simp only [OpenedFst.extractWithContext, OpenedFst.visitChangesUntil, FstQuery.checkGeneration,
    bind_assoc]

/-- **One query in steps.** With these files at its three openings, the steps
end in what `extract_with_context` answers. -/
theorem exec_extract (query : FstQuery η) (context : QueryContext) (openings : Openings)
    (path : Opening) :
    ∃ source, Runs.exec query.step ⟨path, .start⟩
        [.step context, .replace openings.validated, .step context, .replace openings.read,
          .step context, .step context, .replace openings.revalidated, .step context] =
      some ⟨openings.revalidated,
        .done (query.opened.extractWithContext query.hash query.reader openings query.targets
          query.window context) source⟩ := by
  obtain ⟨validated, read, revalidated⟩ := openings
  simp only [Runs.exec_cons, Runs.exec_nil, FstQuery.step, Option.bind_some,
    extractWithContext_eq]
  rw [FstQuery.advance]
  cases context.checkSignalCount query.targets.length with
  | error error => exact ⟨none, rfl⟩
  | ok _ =>
    cases inverted query.window with
    | true => exact ⟨none, rfl⟩
    | false =>
      cases query.opened.select query.targets with
      | error error => exact ⟨none, rfl⟩
      | ok selection =>
        simp only [Bool.false_eq_true, if_false]
        rw [FstQuery.advance]
        cases query.checkGeneration context validated with
        | error error => exact ⟨none, rfl⟩
        | ok _ =>
          cases read with
          | error error => exact ⟨none, rfl⟩
          | ok file =>
            rw [show query.advance context (.ok file) (.reopening selection) =
              .reading selection file from rfl, FstQuery.advance]
            cases hread : readFile context pushRow query.reader selection
              (query.window.start.getD 0) (query.window.end_.getD query.opened.header.endTime)
              file [] with
            | error error =>
              refine ⟨some file, ?_⟩
              simp [hread, bind, Except.bind, Except.mapError]
            | ok rows =>
              refine ⟨some file, ?_⟩
              simp only
              rw [FstQuery.advance]
              cases query.checkGeneration context revalidated with
              | error error => simp [hread, bind, Except.bind, Except.mapError]
              | ok _ => simp [hread, bind, Except.bind, Except.mapError, pure, Except.pure]

/-! ## Where the rows come from -/

/-- The identity of a file is the one recorded at opening. -/
def FstQuery.IsGeneration (query : FstQuery η) (file : FstFile) : Prop :=
  FstIdentity.fromFile query.hash file = query.opened.identity

/-- Every row of a successful answer was read from a file of the opened
generation. -/
def FstQuery.Faithful (query : FstQuery η) (world : FstWorld) : Prop :=
  ∀ rows source, world.pc = .done (.ok rows) source → rows ≠ [] →
    ∃ file, source = some file ∧ query.IsGeneration file

/-- The reopening finds a file of the opened generation, or none. -/
def FstQuery.Reopens (query : FstQuery η) (world : FstWorld) (action : FstAction) : Prop :=
  ∀ context selection, action = .step context → world.pc = .reopening selection →
    ∀ file, world.path = .ok file → query.IsGeneration file

/-- Whatever the query holds is of the opened generation. -/
def FstQuery.Holds (query : FstQuery η) : FstPc → Prop
  | .start | .validating _ | .reopening _ => True
  | .reading _ file | .revalidating file _ => query.IsGeneration file
  | .done result source => ∀ rows, result = .ok rows → rows ≠ [] →
      ∃ file, source = some file ∧ query.IsGeneration file

omit [DecidableEq η] in
theorem FstQuery.Holds.faithful {query : FstQuery η} {world : FstWorld} (h : query.Holds world.pc) :
    query.Faithful world := by
  intro rows source hpc hrows
  rw [hpc] at h
  exact h rows rfl hrows

omit [DecidableEq η] in
theorem FstQuery.holds_error (query : FstQuery η) (error : QueryError) (source : Option FstFile) :
    query.Holds (.done (.error error) source) := by
  intro rows hrows
  cases hrows

/-- **A step of the query** keeps what it holds; only the reopening takes a new
file. -/
theorem advance_holds {query : FstQuery η} (context : QueryContext) (path : Opening) {pc : FstPc}
    (h : query.Holds pc)
    (hreopen : ∀ selection file, pc = .reopening selection → path = .ok file →
      query.IsGeneration file) : query.Holds (query.advance context path pc) := by
  cases pc with
  | start =>
    rw [FstQuery.advance]
    split
    · exact query.holds_error _ _
    · split
      · intro rows hrows hne
        cases hrows
        exact absurd rfl hne
      · split
        · exact query.holds_error _ _
        · trivial
  | validating selection =>
    rw [FstQuery.advance]
    split
    · exact query.holds_error _ _
    · trivial
  | reopening selection =>
    cases path with
    | error error => exact query.holds_error _ _
    | ok file => exact hreopen selection file rfl rfl
  | reading selection file =>
    rw [FstQuery.advance]
    split
    · exact query.holds_error _ _
    · exact h
  | revalidating file rows =>
    rw [FstQuery.advance]
    split
    · exact query.holds_error _ _
    · intro rows' hrows hne
      exact ⟨file, rfl, h⟩
  | done result source => exact h

/-- **An FST query is answered from the opened generation** in every run in
which each reopening finds a file of that generation: whatever is replaced
between its other steps, every row of a successful answer comes from such a
file. -/
theorem query_faithful (query : FstQuery η) (path : Opening) (actions : List FstAction)
    (hreopens : Runs.Along query.step query.Reopens ⟨path, .start⟩ actions) :
    Runs.Always query.step query.Faithful ⟨path, .start⟩ actions := by
  refine Runs.Always.imp (P := fun world => query.Holds world.pc) (fun _ h => h.faithful) ?_
  refine Runs.always_of_along (I := fun _ => True) (fun _ _ _ _ _ => trivial) ?_ actions _ trivial
    trivial hreopens
  intro world action world' _ hholds hreopen hstep
  cases action with
  | replace path =>
    cases Option.some.inj hstep
    exact hholds
  | step context =>
    cases Option.some.inj hstep
    exact advance_holds context world.path hholds fun selection file hpc hpath =>
      hreopen context selection rfl hpc file hpath

/-! ## Replacing and restoring -/

def realFile : FstFile := ⟨[1], some 7⟩

/-- A longer file, which is not of the generation of `realFile`. -/
def otherFile : FstFile := ⟨[2, 2], some 8⟩

/-- A query for one real signal, over a reader that delivers one value for each
byte of the file. -/
def realQuery : FstQuery (List UInt8) where
  opened :=
    { displayPath := "real.fst"
      identity := FstIdentity.fromFile id realFile
      header := ⟨0, 9, -9, none⟩
      signals := [⟨"r", 0, 64, .real, false⟩]
      byName := [("r", 0)] }
  hash := id
  reader :=
    { open_ := fun _ => .done
      readSignals := fun file _ => (file.bytes.map fun b => (5, 0, .real ⟨b.toNat⟩), .done) }
  targets := ["r"]
  window := ⟨none, none⟩

/-- The file is replaced after the first check and restored after the
reopening. -/
def restoringRun : List FstAction :=
  [.step {}, .step {}, .replace (.ok otherFile), .step {}, .replace (.ok realFile), .step {},
    .step {}]

/-- The file is back before the reopening. -/
theorem query_faithful_restored :
    Runs.Always realQuery.step realQuery.Faithful ⟨.ok realFile, .start⟩
      [.step {}, .step {}, .replace (.ok otherFile), .replace (.ok realFile), .step {}, .step {},
        .step {}] := by
  refine query_faithful realQuery (.ok realFile) _ ?_
  have hreal : ∀ (pc : FstPc) (action : FstAction),
      realQuery.Reopens ⟨.ok realFile, pc⟩ action := by
    intro pc action context selection _ _ file hfile
    cases hfile
    rfl
  have hreplace : ∀ (world : FstWorld) (path : Opening),
      realQuery.Reopens world (.replace path) := by
    intro world path context selection haction
    cases haction
  intro _ h
  cases h
  refine ⟨hreal _ _, fun _ h => ?_⟩
  cases h
  refine ⟨hreal _ _, fun _ h => ?_⟩
  cases h
  refine ⟨hreal _ _, fun _ h => ?_⟩
  cases h
  refine ⟨hreplace _ _, fun _ h => ?_⟩
  cases h
  refine ⟨hreal _ _, fun _ h => ?_⟩
  cases h
  refine ⟨hreal _ _, fun _ h => ?_⟩
  cases h
  exact ⟨hreal _ _, trivial⟩

theorem query_reads_replaced_file :
    ¬ ∀ (query : FstQuery (List UInt8)) (path : Opening) (actions : List FstAction),
      Runs.Always query.step query.Faithful ⟨path, .start⟩ actions := by
  intro hall
  have hrun : Runs.exec realQuery.step ⟨.ok realFile, .start⟩ restoringRun =
      some ⟨.ok realFile, .done (.ok [⟨"r", 5, .float ⟨2⟩⟩, ⟨"r", 5, .float ⟨2⟩⟩])
        (some otherFile)⟩ := rfl
  have hfaithful := (Runs.always_iff_prefix _ _).mp
    (hall realQuery (.ok realFile) restoringRun) restoringRun (List.prefix_refl _) _ hrun
  obtain ⟨file, hfile, hgeneration⟩ := hfaithful _ _ rfl (List.cons_ne_nil _ _)
  cases hfile
  exact absurd (congrArg FstIdentity.len hgeneration) (by decide)

end VcdTools.Opened
