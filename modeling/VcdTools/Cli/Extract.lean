import VcdTools.Lib.Fallible
import VcdTools.Lib.RunReports
import VcdTools.Opened.VisitChanges
import Mathlib.Data.List.Dedup

/-! # The extract command

`handle_extract` of `main.rs`: the requested names, the loop that prints a line
for each time, and the table. What a command prints is a list of lines; it is
answered for a command that succeeds. -/
namespace VcdTools.Cli
open VcdTools.Lib VcdTools.Lib.Iter VcdTools.Lib.RunReports VcdTools.Query VcdTools.Opened

/-- The errors a command ends with. -/
inductive CliError
  | message (text : String)
  | vcd (error : VcdError)
  | query (error : QueryError)
  | panicked
  deriving DecidableEq, Repr

/-- A panic ends the command. -/
def orPanicked {α : Type} : Option α → Except CliError α
  | some a => .ok a
  | none => .error .panicked

theorem orPanicked_ok_iff {α : Type} {x : Option α} {a : α} :
    orPanicked x = .ok a ↔ x = some a := by
  cases x <;> simp [orPanicked]

/-! ## The requested names -/

/-- `str::lines`. -/
def lines (content : List Char) : List (List Char) :=
  (splitInclusive (· = '\n') content).map fun line =>
    if line.getLast? = some '\n' then
      let line := line.dropLast
      if line.getLast? = some '\r' then line.dropLast else line
    else line

/-- `load_signal_list`, on what reading the file gives. -/
def loadSignalList (content : Except IoError String) : Except VcdError (List String) := do
  let content ← content.mapError VcdError.io
  let names := (((lines content.toList).map trim).filter fun l => l ≠ [] ∧ l.head? ≠ some '#').map
    fun s => trim (s.takeWhile (· ≠ '#'))
  return (names.filter (· ≠ [])).map String.ofList

/-- `collect_signal_names`. -/
def collectSignalNames (signals : List String) (signalsFile : Option (Except IoError String)) :
    Except CliError (List String) := do
  let names := signals.flatMap fun entry =>
    (((entry.toList.splitOn ',').map trim).filter (· ≠ [])).map String.ofList
  let loaded ← match signalsFile with
    | some file => (loadSignalList file).mapError CliError.vcd
    | none => .ok []
  let names := names ++ loaded
  if names = [] then throw (.message "At least one --signal or --signals-file entry is required")
  return names

/-! ## Tables -/

/-- The widths after one more row. -/
def widen : List Nat → List String → List Nat
  | width :: widths, col :: row => max width col.utf8ByteSize :: widen widths row
  | widths, _ => widths

/-- A column, padded to a number of characters. -/
def padded (col : String) (width : Nat) : String :=
  col ++ String.ofList (List.replicate (width - col.length) ' ')

/-- `print_row`; nothing when a width is more than `format!` takes. -/
def printRow (std : StdText) (row : List String) (widths : List Nat) : Option String := do
  let parts ← (row.zip widths).mapM fun (col, width) =>
    if width ≤ std.maxWidth then some (padded col width) else none
  return " | ".intercalate parts

/-- The widths of the columns, in bytes. -/
def widthsOf (headers : List String) (rows : List (List String)) : List Nat :=
  rows.foldl widen (headers.map String.utf8ByteSize)

def separator (widths : List Nat) : String :=
  "-+-".intercalate (widths.map fun width => String.ofList (List.replicate width '-'))

/-- `print_table`. -/
def printTable (std : StdText) (headers : List String) (rows : List (List String)) :
    Option (List String) := do
  let widths := widthsOf headers rows
  let header ← printRow std headers widths
  let lines ← rows.mapM fun row => printRow std row widths
  return header :: separator widths :: lines

/-! ## The command -/

/-- `OpenedWaveform::format`, as the command writes it. -/
def formatName {η : Type} : OpenedWaveform η → String
  | .vcd _ => "VCD"
  | .fst _ => "FST"

/-- `current_time`, `last_values` and `rows`, and what is printed. -/
structure Extracting where
  currentTime : Option Nat
  lastValues : NameMap String
  rows : List (List String)
  printed : List String

/-- `emit`; nothing when a name has no value. -/
def Extracting.emit (names : List String) (pretty : Bool) (time : Nat) (state : Extracting) :
    Option Extracting := do
  let columns ← names.mapM state.lastValues
  let row := Nat.repr time :: columns
  if pretty then return { state with rows := state.rows ++ [row] }
  else return { state with printed := state.printed ++ ["\t".intercalate row] }

/-- The body of the visitor of `handle_extract`; nothing when it panics. -/
def Extracting.next (std : StdText) (names : List String) (sizes : NameMap Nat) (pretty : Bool)
    (state : Extracting) (event : TimeValue) : Option Extracting := do
  let state ← match state.currentTime with
    | some time => if time ≠ event.time then state.emit names pretty time else some state
    | none => some state
  let size ← sizes event.signal
  let value ← formatValueForSignal std event.value size
  return { state with
    currentTime := some event.time
    lastValues := Function.update state.lastValues event.signal (some value) }

/-- The last line of a group, after the visit. -/
def Extracting.emitLast (names : List String) (pretty : Bool) (state : Extracting) :
    Option Extracting :=
  match state.currentTime with
  | some time => state.emit names pretty time
  | none => some state

/-- `HashMap::len`, of a map whose keys are among the names. -/
def mapLen {α : Type} (names : List String) (map : NameMap α) : Nat :=
  (names.filter fun name => (map name).isSome).dedup.length

/-- The map of the widths of the names that exist. -/
def sizesOf {η : Type} (waveform : OpenedWaveform η) (names : List String) : NameMap Nat :=
  fun name => if name ∈ names then waveform.width name else none

/-- `handle_extract`; `opened` is what `open_waveform` gives. -/
def handleExtract {η : Type} [DecidableEq η] (std : StdText) (env : FstEnv η) (signals : List String)
    (signalsFile : Option (Except IoError String)) (opened : Except CliError (OpenedWaveform η))
    (window : TimeWindow) (pretty : Bool) : Except CliError (List String) := do
  let names ← collectSignalNames signals signalsFile
  let waveform ← opened
  let sizes := sizesOf waveform names
  if mapLen names sizes ≠ names.length then
    let missing := names.filter fun name => (sizes name).isNone
    throw (.message ("Signals not found in " ++ formatName waveform ++ ": " ++
      ", ".intercalate missing))
  let headers := "time" :: names
  let start : Extracting :=
    { currentTime := none
      lastValues := forTargets names ""
      rows := []
      printed := if pretty then [] else ["\t".intercalate headers] }
  let visited ← orPanicked (waveform.visitChanges env names window {}
    (fun state event => (state.next std names sizes pretty event).map .ok) start)
  let state ← visited.mapError CliError.query
  let state ← orPanicked (state.emitLast names pretty)
  let table ← if pretty then orPanicked (printTable std headers state.rows) else pure []
  return state.printed ++ table

/-! ## What it is for -/

/-- The last value of a name among events, as the command formats it. -/
def lastValue (std : StdText) (width : String → Option Nat) (seen : List TimeValue)
    (name : String) : String :=
  match (seen.filter (·.signal = name)).getLast?, width name with
  | some event, some size => formatted std event.value size
  | _, _ => ""

/-- The row at the last of the events. -/
def alignedRow (std : StdText) (width : String → Option Nat) (names : List String)
    (seen : List TimeValue) : List String :=
  (seen.getLast?.elim "" fun event => Nat.repr event.time) :: names.map (lastValue std width seen)

/-- **One row for each maximal run of equal time**, on the events up to its end. -/
def alignedRows (std : StdText) (width : String → Option Nat) (names : List String)
    (events : List TimeValue) : List (List String) :=
  (readAfter (·.time) events).map (alignedRow std width names)

/-- A line of a table with columns of these widths. -/
def tableLine (widths : List Nat) (row : List String) : String :=
  " | ".intercalate (List.zipWith padded row widths)

/-- The lines of a table, plain or pretty. -/
def printed (pretty : Bool) (headers : List String) (rows : List (List String)) : List String :=
  if pretty then
    let widths := widthsOf headers rows
    tableLine widths headers :: separator widths :: rows.map (tableLine widths)
  else (headers :: rows).map fun row => "\t".intercalate row

/-- No column is wider than `format!` takes. -/
def FitsTable (std : StdText) (headers : List String) (rows : List (List String)) : Prop :=
  ∀ row ∈ headers :: rows, ∀ col ∈ row, col.utf8ByteSize ≤ std.maxWidth

/-! ## The table -/

theorem length_widen (widths : List Nat) (row : List String) :
    (widen widths row).length = widths.length := by
  induction widths generalizing row with
  | nil => cases row <;> rfl
  | cons width widths ih =>
    cases row with
    | nil => rfl
    | cons col row => exact congrArg (· + 1) (ih row)

theorem length_widths (widths : List Nat) (rows : List (List String)) :
    (rows.foldl widen widths).length = widths.length := by
  induction rows generalizing widths with
  | nil => rfl
  | cons row rows ih => rw [List.foldl_cons, ih, length_widen]

theorem widen_le_iff {n : Nat} {widths : List Nat} {row : List String}
    (h : row.length ≤ widths.length) :
    (∀ width ∈ widen widths row, width ≤ n) ↔
      (∀ width ∈ widths, width ≤ n) ∧ ∀ col ∈ row, col.utf8ByteSize ≤ n := by
  induction widths generalizing row with
  | nil =>
    cases List.eq_nil_of_length_eq_zero (Nat.le_zero.mp h)
    simp [widen]
  | cons width widths ih =>
    cases row with
    | nil => simp [widen]
    | cons col row =>
      have hlength : row.length ≤ widths.length := Nat.le_of_succ_le_succ h
      have hrest := ih hlength
      simp only [widen, List.forall_mem_cons, hrest, Nat.max_le]
      tauto

theorem widths_le_iff {n : Nat} {rows : List (List String)} {widths : List Nat}
    (h : ∀ row ∈ rows, row.length ≤ widths.length) :
    (∀ width ∈ rows.foldl widen widths, width ≤ n) ↔
      (∀ width ∈ widths, width ≤ n) ∧ ∀ row ∈ rows, ∀ col ∈ row, col.utf8ByteSize ≤ n := by
  induction rows generalizing widths with
  | nil => simp
  | cons row rows ih =>
    obtain ⟨hrow, hrows⟩ := List.forall_mem_cons.mp h
    have hlength : ∀ row' ∈ rows, row'.length ≤ (widen widths row).length := by
      rwa [length_widen]
    rw [List.foldl_cons, ih hlength, widen_le_iff hrow, List.forall_mem_cons, and_assoc]

variable {std : StdText}

theorem printRow_eq (row : List String) (widths : List Nat) :
    printRow std row widths =
      if ∀ column ∈ row.zip widths, column.2 ≤ std.maxWidth then some (tableLine widths row)
      else none := by
  have hparts := Fallible.mapM_option (P := fun column : String × Nat => column.2 ≤ std.maxWidth)
    (f := fun column => padded column.1 column.2) (fun _ => rfl) (row.zip widths)
  rw [printRow]
  change (row.zip widths).mapM (fun column => if column.2 ≤ std.maxWidth then
    some (padded column.1 column.2) else none) >>= _ = _
  rw [hparts]
  split
  · rw [tableLine, ← List.map_uncurry_zip_eq_zipWith]
    rfl
  · rfl

theorem printRow_fits {row : List String} {widths : List Nat}
    (h : ∀ width ∈ widths, width ≤ std.maxWidth) :
    printRow std row widths = some (tableLine widths row) := by
  rw [printRow_eq, if_pos fun column hcolumn => h _ (List.of_mem_zip hcolumn).2]

/-- The header has every column. -/
theorem printRow_wide {row : List String} {widths : List Nat} (hlength : row.length = widths.length)
    (h : ¬ ∀ width ∈ widths, width ≤ std.maxWidth) : printRow std row widths = none := by
  rw [printRow_eq, if_neg fun hall => h fun width hwidth => ?_]
  rw [← List.map_snd_zip (Nat.le_of_eq hlength.symm)] at hwidth
  obtain ⟨column, hcolumn, rfl⟩ := List.mem_map.mp hwidth
  exact hall column hcolumn

/-- **A table is printed** when its columns fit, and else its first line panics. -/
theorem printTable_eq_some_iff {headers : List String} {rows : List (List String)}
    (hrows : ∀ row ∈ rows, row.length ≤ headers.length) {lines : List String} :
    printTable std headers rows = some lines ↔
      FitsTable std headers rows ∧ lines = printed true headers rows := by
  have hfits : (∀ width ∈ widthsOf headers rows, width ≤ std.maxWidth) ↔
      FitsTable std headers rows := by
    rw [widthsOf, widths_le_iff (by simpa using hrows), List.forall_mem_map, FitsTable,
      List.forall_mem_cons]
  rw [← hfits]
  by_cases h : ∀ width ∈ widthsOf headers rows, width ≤ std.maxWidth
  · have hlines : rows.mapM (fun row => printRow std row (widthsOf headers rows)) =
        some (rows.map (tableLine (widthsOf headers rows))) := by
      have hmap : (rows.map id).mapM (fun row => printRow std row (widthsOf headers rows)) = _ :=
        Fallible.mapM_map_eq_some fun row _ => printRow_fits h
      rwa [List.map_id] at hmap
    rw [and_iff_right h, printTable, printRow_fits h, hlines]
    exact Option.some_inj.trans eq_comm
  · have hlength : headers.length = (widthsOf headers rows).length := by
      rw [widthsOf, length_widths, List.length_map]
    refine iff_of_false ?_ fun hall => h hall.1
    rw [printTable, printRow_wide hlength h]
    exact nofun

/-! ## The loop -/

variable {std : StdText} {width : String → Option Nat} {names : List String} {sizes : NameMap Nat}
  {pretty : Bool}

/-- The value of an event in the map. -/
def keepLast (std : StdText) (width : String → Option Nat) (values : NameMap String)
    (event : TimeValue) : NameMap String :=
  Function.update values event.signal
    (some ((width event.signal).elim "" (formatted std event.value)))

/-- The row of a time and the values then. -/
def rowAt (names : List String) (time : Nat) (values : NameMap String) : List String :=
  Nat.repr time :: names.map fun name => (values name).getD ""

/-- The state of the command for that of the loop. -/
def shown (names : List String) (pretty : Bool)
    (s : RunReports.State Nat (NameMap String) (List String)) : Extracting where
  currentTime := s.current
  lastValues := s.acc
  rows := if pretty then s.written else []
  printed := if pretty then [] else (("time" :: names) :: s.written).map fun row =>
    "\t".intercalate row

theorem mapM_isSome {values : NameMap String} (h : ∀ name ∈ names, (values name).isSome) :
    names.mapM values = some (names.map fun name => (values name).getD "") := by
  have hvalue : ∀ name ∈ names, values (id name) = some ((values name).getD "") := by
    intro name hname
    obtain ⟨value, hvalue⟩ := Option.isSome_iff_exists.mp (h name hname)
    rw [id, hvalue, Option.getD_some]
  rw [← Fallible.mapM_map_eq_some hvalue, List.map_id]

theorem emit_shown {values : NameMap String} (hvalues : ∀ name ∈ names, (values name).isSome)
    (current : Option Nat) (time : Nat) (written : List (List String)) :
    (shown names pretty ⟨current, values, written⟩).emit names pretty time =
      some (shown names pretty ⟨current, values, written ++ [rowAt names time values]⟩) := by
  have hcolumns : names.mapM (shown names pretty ⟨current, values, written⟩).lastValues = _ :=
    mapM_isSome hvalues
  rw [Extracting.emit, hcolumns]
  cases pretty with
  | true => rfl
  | false =>
    simp only [shown, rowAt, bind, Option.bind, pure, Bool.false_eq_true, if_false, List.map_cons,
      List.map_append, List.map_nil, List.cons_append]

/-- **A round of the visitor** is a round of the loop, when its value has a text. -/
theorem next_shown {s : RunReports.State Nat (NameMap String) (List String)} {event : TimeValue}
    {size : Nat} (hsize : sizes event.signal = some size) (hwidth : width event.signal = some size)
    (hvalues : ∀ name ∈ names, (s.acc name).isSome) :
    (shown names pretty s).next std names sizes pretty event =
      if Formats std event.value ((width event.signal).getD 1) then
        some (shown names pretty (s.next (·.time) (keepLast std width) (rowAt names) event))
      else none := by
  obtain ⟨current, values, written⟩ := s
  rw [hwidth, Option.getD_some]
  by_cases hformats : Formats std event.value size
  · have htext := formatValueForSignal_eq_some.mpr ⟨hformats, rfl⟩
    have hkeep : keepLast std width values event = Function.update values event.signal
        (some (formatted std event.value size)) := by
      rw [keepLast, hwidth]
      rfl
    rw [if_pos hformats, State.next, hkeep]
    cases current with
    | none =>
      simp only [Extracting.next, shown, hsize, htext, bind, Option.bind, pure]
      rfl
    | some time =>
      by_cases htime : time = event.time
      · subst htime
        simp only [Extracting.next, shown, hsize, htext, bind, Option.bind, pure, ne_eq,
          not_true_eq_false, if_false, if_true]
      · have hemit : (shown names pretty ⟨some time, values, written⟩).emit names pretty time = _ :=
          emit_shown hvalues (some time) time written
        simp only [Extracting.next, shown, hsize, htext, bind, Option.bind, pure, ne_eq, htime,
          not_false_eq_true, if_true, Option.some.injEq, if_false] at hemit ⊢
        rw [hemit]
        rfl
  · have htext : formatValueForSignal std event.value size = none := by
      rw [formatValueForSignal_eq, if_neg hformats]
    rw [if_neg hformats]
    simp only [Extracting.next, hsize, htext, bind, Option.bind_some, Option.bind_none,
      Option.bind_fun_none]
    split
    · split <;> rfl
    · rfl

/-- The map keeps a value for each of the names. -/
theorem isSome_foldl (std : StdText) (width : String → Option Nat) (events : List TimeValue)
    {s : RunReports.State Nat (NameMap String) (List String)}
    (hvalues : ∀ name ∈ names, (s.acc name).isSome) :
    ∀ name ∈ names, ((events.foldl (State.next (·.time) (keepLast std width) (rowAt names))
      s).acc name).isSome := by
  induction events generalizing s with
  | nil => exact hvalues
  | cons event events ih =>
    refine ih fun name hname => ?_
    simp only [State.next, keepLast, Function.update_apply]
    split
    · rfl
    · exact hvalues name hname

/-- The loop over events of requested names. -/
theorem foldlM_shown (std : StdText) (pretty : Bool)
    (hfound : ∀ name ∈ names, ∃ size, sizes name = some size ∧ width name = some size)
    {events : List TimeValue} (hnamed : ∀ event ∈ events, event.signal ∈ names)
    {s : RunReports.State Nat (NameMap String) (List String)}
    (hvalues : ∀ name ∈ names, (s.acc name).isSome) :
    events.foldlM (Extracting.next std names sizes pretty) (shown names pretty s) =
      if Printable std width events then
        some (shown names pretty
          (events.foldl (State.next (·.time) (keepLast std width) (rowAt names)) s))
      else none := by
  induction events generalizing s with
  | nil => rfl
  | cons event events ih =>
    obtain ⟨hevent, hevents⟩ := List.forall_mem_cons.mp hnamed
    obtain ⟨size, hsize, hwidth⟩ := hfound event.signal hevent
    rw [List.foldlM_cons, next_shown hsize hwidth hvalues]
    by_cases hformats : Formats std event.value ((width event.signal).getD 1)
    · rw [if_pos hformats]
      refine (ih hevents (isSome_foldl std width [event] hvalues)).trans ?_
      exact if_congr (by simp [Printable, hformats]) rfl rfl
    · rw [if_neg hformats, if_neg fun h => hformats (h event List.mem_cons_self)]
      rfl

/-- The values that are kept are the last ones. -/
theorem foldl_keepLast (hfound : ∀ name ∈ names, (width name).isSome) {name : String}
    (hname : name ∈ names) (events : List TimeValue) :
    (events.foldl (keepLast std width) (forTargets names "")) name =
      some (lastValue std width events name) := by
  induction events using List.reverseRecOn with
  | nil => exact if_pos hname
  | append_singleton events event ih =>
    rw [List.foldl_append, List.foldl_cons, List.foldl_nil, keepLast, Function.update_apply]
    by_cases hsignal : name = event.signal
    · obtain ⟨size, hsize⟩ := Option.isSome_iff_exists.mp (hfound name hname)
      subst hsignal
      rw [if_pos rfl, lastValue, List.filter_append, List.filter_singleton, decide_eq_true rfl]
      simp only [cond_true, List.getLast?_concat, hsize, Option.elim_some]
    · rw [if_neg hsignal, ih, lastValue, lastValue, List.filter_append,
        List.filter_cons_of_neg (by simpa using Ne.symm hsignal), List.filter_nil, List.append_nil]

/-- **The loop and the last line** write a row for each run, unless a value has no
text. -/
theorem loop_shown (std : StdText) (pretty : Bool)
    (hfound : ∀ name ∈ names, ∃ size, sizes name = some size ∧ width name = some size)
    {events : List TimeValue}
    (hnamed : ∀ event ∈ events, event.signal ∈ names) :
    (Printable std width events → ∃ state current values,
      events.foldlM (Extracting.next std names sizes pretty)
          (shown names pretty ⟨none, forTargets names "", []⟩) = some state ∧
        state.emitLast names pretty =
          some (shown names pretty ⟨current, values, alignedRows std width names events⟩)) ∧
    (¬ Printable std width events → events.foldlM (Extracting.next std names sizes pretty)
      (shown names pretty ⟨none, forTargets names "", []⟩) = none) := by
  have hwidth : ∀ name ∈ names, (width name).isSome := by
    intro name hname
    obtain ⟨size, -, hsize⟩ := hfound name hname
    rw [hsize]
    rfl
  have hstart : ∀ name ∈ names, (forTargets names "" name).isSome := by
    intro name hname
    rw [forTargets, if_pos hname]
    rfl
  have hreport : ∀ (seen : List TimeValue) (event : TimeValue),
      alignedRow std width names (seen ++ [event]) = rowAt names event.time
        ((seen ++ [event]).foldl (keepLast std width) (forTargets names "")) := by
    intro seen event
    rw [alignedRow, rowAt, List.getLast?_concat, Option.elim_some]
    refine congrArg _ (List.map_congr_left fun name hname => ?_)
    rw [foldl_keepLast hwidth hname, Option.getD_some]
  have hrows : (events.foldl (State.next (·.time) (keepLast std width) (rowAt names))
      ⟨none, forTargets names "", []⟩).finish (rowAt names) = alignedRows std width names events :=
    finish_start hreport events
  have hloop := foldlM_shown std pretty (s := ⟨none, forTargets names "", []⟩) hfound hnamed hstart
  have hvalues := isSome_foldl std width events (s := ⟨none, forTargets names "", []⟩) hstart
  refine ⟨fun hprintable => ?_, fun hnot => by rw [hloop, if_neg hnot]⟩
  rw [hloop, if_pos hprintable, ← hrows]
  generalize events.foldl (State.next (·.time) (keepLast std width) (rowAt names))
    ⟨none, forTargets names "", []⟩ = s at hvalues
  obtain ⟨current, values, written⟩ := s
  cases current with
  | none => exact ⟨_, none, values, rfl, rfl⟩
  | some time => exact ⟨_, some time, values, rfl, emit_shown hvalues (some time) time written⟩

/-! ## The widths -/

variable {η : Type}

/-- A map of widths has as many entries as there are names when no name is
repeated. -/
theorem mapLen_eq_iff {waveform : OpenedWaveform η}
    (hfound : ∀ name ∈ names, (waveform.width name).isSome) :
    mapLen names (sizesOf waveform names) = names.length ↔ names.Nodup := by
  have hall : (names.filter fun name => (sizesOf waveform names name).isSome) = names := by
    refine List.filter_eq_self.mpr fun name hname => ?_
    rw [sizesOf, if_pos hname]
    exact hfound name hname
  rw [mapLen, hall]
  constructor
  · intro h
    rw [← List.dedup_eq_self]
    exact (List.dedup_sublist names).eq_of_length h
  · intro h
    rw [List.Nodup.dedup h]

/-! ## The whole command -/

variable [DecidableEq η]

/-- The events among the items of an extraction. -/
def eventsOf (items : List (Except QueryError TimeValue)) : List TimeValue :=
  items.filterMap Except.toOption

theorem map_eventsOf {items : List (Except QueryError TimeValue)}
    (h : ∀ item ∈ items, ∃ event, item = .ok event) : items = (eventsOf items).map .ok := by
  induction items with
  | nil => rfl
  | cons item items ih =>
    obtain ⟨event, rfl⟩ := h item List.mem_cons_self
    exact congrArg (.ok event :: ·) (ih fun i hi => h i (List.mem_cons_of_mem _ hi))

/-- What the command does after the names are found. -/
theorem handleExtract_found {std : StdText} {waveform : OpenedWaveform η} {env : FstEnv η}
    {signals : List String} {signalsFile : Option (Except IoError String)} {names : List String}
    (hnames : collectSignalNames signals signalsFile = .ok names)
    (hlen : mapLen names (sizesOf waveform names) = names.length) (window : TimeWindow)
    (pretty : Bool) {lines : List String} :
    handleExtract std env signals signalsFile (.ok waveform) window pretty = .ok lines ↔
      ∃ visited state, waveform.visitChanges env names window {}
          (fun state event => (Extracting.next std names (sizesOf waveform names) pretty state
            event).map .ok) (shown names pretty ⟨none, forTargets names "", []⟩) =
          some (.ok visited) ∧
        visited.emitLast names pretty = some state ∧
        ∃ table, (if pretty then orPanicked (printTable std ("time" :: names) state.rows)
          else pure []) = .ok table ∧ state.printed ++ table = lines := by
  have hstart : shown names pretty ⟨none, forTargets names "", []⟩ = ⟨none, forTargets names "",
      [], if pretty then [] else ["\t".intercalate ("time" :: names)]⟩ := by
    cases pretty <;> rfl
  have hrun : handleExtract std env signals signalsFile (.ok waveform) window pretty =
      (do
        let visited ← orPanicked (waveform.visitChanges env names window {}
          (fun state event => (Extracting.next std names (sizesOf waveform names) pretty state
            event).map .ok) (shown names pretty ⟨none, forTargets names "", []⟩))
        let state ← visited.mapError CliError.query
        let state ← orPanicked (state.emitLast names pretty)
        (if pretty then orPanicked (printTable std ("time" :: names) state.rows) else pure []) >>=
          fun table => pure (state.printed ++ table)) := by
    rw [hstart, handleExtract, hnames]
    refine (if_neg (not_not.mpr hlen)).trans ?_
    cases pretty <;> rfl
  rw [hrun]
  simp only [Fallible.bind_ok_iff, orPanicked_ok_iff, Fallible.mapError_ok_iff]
  constructor
  · rintro ⟨_, hvisit, visited, rfl, state, hlast, table, htable, hlines⟩
    exact ⟨visited, state, hvisit, hlast, table, htable, Except.ok.inj hlines⟩
  · rintro ⟨visited, state, hvisit, hlast, table, htable, rfl⟩
    exact ⟨_, hvisit, visited, rfl, state, hlast, table, htable, rfl⟩

/-- **What the command prints**, and when it does. -/
theorem handleExtract_ok_iff {std : StdText} {waveform : OpenedWaveform η} {env : FstEnv η}
    {signals : List String} {signalsFile : Option (Except IoError String)} {names : List String}
    (hnames : collectSignalNames signals signalsFile = .ok names)
    (hfound : ∀ name ∈ names, (waveform.width name).isSome) {window : TimeWindow} (pretty : Bool)
    {items : List (Except QueryError TimeValue)}
    (hitems : waveform.Delivers env names window {} items) {lines : List String} :
    handleExtract std env signals signalsFile (.ok waveform) window pretty = .ok lines ↔
      names.Nodup ∧ ∃ events : List TimeValue, items = events.map .ok ∧
        Printable std waveform.width events ∧
        (pretty = true → FitsTable std ("time" :: names)
          (alignedRows std waveform.width names events)) ∧
        lines = printed pretty ("time" :: names) (alignedRows std waveform.width names events) := by
  have hsizes : ∀ name ∈ names, ∃ size, sizesOf waveform names name = some size ∧
      waveform.width name = some size := by
    intro name hname
    obtain ⟨size, hsize⟩ := Option.isSome_iff_exists.mp (hfound name hname)
    exact ⟨size, (if_pos hname).trans hsize, hsize⟩
  have hlengths : ∀ events, ∀ row ∈ alignedRows std waveform.width names events,
      row.length ≤ ("time" :: names).length := by
    intro events row hrow
    obtain ⟨seen, -, rfl⟩ := List.mem_map.mp hrow
    simp [alignedRow]
  by_cases hnodup : names.Nodup
  · rw [and_iff_right hnodup,
      handleExtract_found hnames ((mapLen_eq_iff hfound).mpr hnodup) window pretty]
    have hloop : ∀ {events : List TimeValue}, items = events.map .ok → _ := fun {events} hall =>
      loop_shown std pretty hsizes
        (extract_named (hitems.extract.trans (allOk_eq_ok.mpr hall)))
    constructor
    · rintro ⟨visited, state, hvisit, hlast, table, htable, rfl⟩
      obtain ⟨events, hall, hfold⟩ := hitems.visitChanges_ok_iff.mp hvisit
      obtain ⟨hprints, hpanics⟩ := hloop hall
      have hprintable : Printable std waveform.width events := by
        by_contra hnot
        rw [hpanics hnot] at hfold
        cases hfold
      obtain ⟨_, current, values, hfold', hlast'⟩ := hprints hprintable
      rw [hfold] at hfold'
      cases hfold'
      rw [hlast] at hlast'
      cases hlast'
      refine ⟨events, hall, hprintable, ?_⟩
      cases pretty with
      | true =>
        obtain ⟨hfits, hlines⟩ :=
          (printTable_eq_some_iff (hlengths events)).mp (orPanicked_ok_iff.mp htable)
        exact ⟨fun _ => hfits, hlines⟩
      | false =>
        cases htable
        exact ⟨nofun, List.append_nil _⟩
    · rintro ⟨events, hall, hprintable, hfits, rfl⟩
      obtain ⟨visited, current, values, hfold, hlast⟩ := (hloop hall).1 hprintable
      refine ⟨visited, _, hitems.visitChanges_ok_iff.mpr ⟨events, hall, hfold⟩, hlast, ?_⟩
      cases pretty with
      | true =>
        exact ⟨_, orPanicked_ok_iff.mpr ((printTable_eq_some_iff (hlengths events)).mpr
          ⟨hfits rfl, rfl⟩), rfl⟩
      | false => exact ⟨[], rfl, List.append_nil _⟩
  · have hlen : mapLen names (sizesOf waveform names) ≠ names.length :=
      fun h => hnodup ((mapLen_eq_iff hfound).mp h)
    refine iff_of_false (fun h => ?_) fun h => hnodup h.1
    unfold handleExtract at h
    simp only [hnames, bind, Except.bind, ne_eq, hlen, not_false_eq_true, if_true] at h
    cases h

/-- **The extract command prints one row for each run of equal time**, with the
formatted last value of each requested name, exactly when no name is requested
twice, the events are read without an error, every value has a text, and the columns
of a pretty table fit. -/
theorem handle_extract_aligned_iff (std : StdText) (waveform : OpenedWaveform η) (env : FstEnv η)
    (signals : List String) (signalsFile : Option (Except IoError String)) (names : List String)
    (hnames : collectSignalNames signals signalsFile = .ok names)
    (hfound : ∀ name ∈ names, (waveform.width name).isSome) (window : TimeWindow) (pretty : Bool)
    (items : List (Except QueryError TimeValue))
    (hitems : waveform.Delivers env names window {} items) :
    handleExtract std env signals signalsFile (.ok waveform) window pretty =
        .ok (printed pretty ("time" :: names)
          (alignedRows std waveform.width names (eventsOf items))) ↔
      names.Nodup ∧ (∀ item ∈ items, ∃ event, item = .ok event) ∧
        Printable std waveform.width (eventsOf items) ∧
        (pretty = true → FitsTable std ("time" :: names)
          (alignedRows std waveform.width names (eventsOf items))) := by
  have hevents : ∀ events : List TimeValue, eventsOf (events.map .ok) = events := by
    intro events
    rw [eventsOf, List.filterMap_map]
    exact List.filterMap_some
  rw [handleExtract_ok_iff hnames hfound pretty hitems]
  refine and_congr_right fun _ => ⟨?_, ?_⟩
  · rintro ⟨events, rfl, hprintable, hfits, -⟩
    rw [hevents]
    refine ⟨fun item hitem => ?_, hprintable, hfits⟩
    obtain ⟨event, -, rfl⟩ := List.mem_map.mp hitem
    exact ⟨event, rfl⟩
  · rintro ⟨hall, hprintable, hfits⟩
    exact ⟨eventsOf items, map_eventsOf hall, hprintable, hfits, rfl⟩

/-- Two aliases and one change: one row with the value in both columns. -/
theorem handle_extract_bit :
    handleExtract asciiText bitEnv ["b, a"] none (.ok (.fst bitFst)) ⟨none, none⟩ false =
      .ok ["time\tb\ta", "5\t1\t1"] :=
  (handle_extract_aligned_iff asciiText (.fst bitFst) bitEnv ["b, a"] none ["b", "a"] rfl
    (by decide) ⟨none, none⟩ false [.ok ⟨"b", 5, .text "1"⟩, .ok ⟨"a", 5, .text "1"⟩]
    (delivers_items bitFst _ _ _ _ _ _)).mpr ⟨by decide, by simp, by decide, nofun⟩

/-- A name that is requested twice is refused as missing, and none is named. -/
theorem repeated_name_refused :
    ¬ ∀ (waveform : OpenedWaveform (List UInt8)) (env : FstEnv (List UInt8)) (signals : List String)
      (signalsFile : Option (Except IoError String)) (names : List String),
      collectSignalNames signals signalsFile = .ok names →
      (∀ name ∈ names, (waveform.width name).isSome) →
      ∀ (window : TimeWindow) (pretty : Bool) (events : List TimeValue),
      waveform.Delivers env names window {} (events.map .ok) →
      handleExtract asciiText env signals signalsFile (.ok waveform) window pretty =
        .ok (printed pretty ("time" :: names) (alignedRows asciiText waveform.width names events)) := by
  intro hall
  have hrefused : handleExtract asciiText bitEnv ["a", "a"] none (.ok (.fst bitFst)) ⟨none, none⟩
      false = .error (.message "Signals not found in FST: ") := rfl
  have hprinted := hall (.fst bitFst) bitEnv ["a", "a"] none ["a", "a"] rfl (by decide) ⟨none, none⟩
    false [⟨"a", 5, .text "1"⟩, ⟨"a", 5, .text "1"⟩] (delivers_items bitFst _ _ _ _ _ _)
  rw [hrefused] at hprinted
  cases hprinted

end VcdTools.Cli
