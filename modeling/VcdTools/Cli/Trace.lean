import VcdTools.Cli.Vcd2trace
import VcdTools.Legacy
import VcdTools.Lib.Batches
import VcdTools.Lib.Visit
import VcdTools.Query.Ops

/-! # The architectural trace

`main` of `vcd2trace`: it follows ten signals of a CPU, buffers the changes of a
timestamp, and reports what a clock cycle did when the next one starts. -/
namespace VcdTools.Cli
open VcdTools.Lib VcdTools.Lib.Batches VcdTools.Query

/-! ## Signal paths -/

structure SignalPaths where
  clk : String
  rstN : String
  instRetired : String
  instruction : String
  pc : String
  rfWeQual : String
  rfWeLsu : String
  rdAddr : String
  rdWdata : String
  rdWdataLsu : String
  deriving DecidableEq, Repr

structure PathOverrides where
  clk : Option String
  rstN : Option String
  instRetired : Option String
  instruction : Option String
  pc : Option String
  rfWeQual : Option String
  rfWeLsu : Option String
  rdAddr : Option String
  rdWdata : Option String
  rdWdataLsu : Option String
  deriving DecidableEq, Repr

/-- `default_paths`. -/
def defaultPaths : SignalPaths :=
  let cpu := "tb.U_CHIP.U_TOP_VCORE.U_TOP_CORE.U_TOP_CPU.U_CPU"
  let clkParent := "tb.U_CHIP.U_TOP_VCORE.U_TOP_CORE.U_TOP_CPU"
  let rf := "tb.U_CHIP.U_TOP_VCORE.U_TOP_CORE.U_TOP_CPU.U_CPU.U_RF"
  { clk := clkParent ++ ".clk_cpu"
    rstN := cpu ++ ".rst_cpu_n"
    instRetired := cpu ++ ".inst_retired"
    instruction := cpu ++ ".instruction_r[31:0]"
    pc := cpu ++ ".pc_exe_r[21:0]"
    rfWeQual := rf ++ ".rf_write_enable_qual"
    rfWeLsu := rf ++ ".rf_write_enable_lsu"
    rdAddr := rf ++ ".rd_addr[4:0]"
    rdWdata := rf ++ ".rd_wdata[31:0]"
    rdWdataLsu := rf ++ ".rd_wdata_lsu[31:0]" }

/-- Why the program ends early. -/
inductive TraceFailure
  /-- An error of the operating system or of a parser, with its context. -/
  | context (text cause : String)
  | vcd (error : VcdError)
  /-- `bail!`. -/
  | bail (message : String)
  | write (error : IoError)
  | panic
  deriving DecidableEq, Repr

/-- What is found at a signal path file: the answer of `File::open`, and what
its text says. -/
structure OverridesFile where
  path : String
  content : Except String (Except String PathOverrides)
  deriving DecidableEq, Repr

/-- `load_paths`. -/
def loadPaths (signalPath : Option OverridesFile) : Except TraceFailure SignalPaths :=
  let base := defaultPaths
  match signalPath with
  | none => .ok base
  | some file =>
    match file.content with
    | .error cause => .error (.context ("opening signal path json " ++ file.path) cause)
    | .ok (.error cause) => .error (.context ("parsing " ++ file.path) cause)
    | .ok (.ok overrides) =>
      .ok
        { clk := overrides.clk.getD base.clk
          rstN := overrides.rstN.getD base.rstN
          instRetired := overrides.instRetired.getD base.instRetired
          instruction := overrides.instruction.getD base.instruction
          pc := overrides.pc.getD base.pc
          rfWeQual := overrides.rfWeQual.getD base.rfWeQual
          rfWeLsu := overrides.rfWeLsu.getD base.rfWeLsu
          rdAddr := overrides.rdAddr.getD base.rdAddr
          rdWdata := overrides.rdWdata.getD base.rdWdata
          rdWdataLsu := overrides.rdWdataLsu.getD base.rdWdataLsu }

/-- `target_names`. -/
def SignalPaths.targetNames (paths : SignalPaths) : List String :=
  [paths.clk, paths.rstN, paths.instRetired, paths.instruction, paths.pc, paths.rfWeQual,
    paths.rfWeLsu, paths.rdAddr, paths.rdWdata, paths.rdWdataLsu]

/-! ## A cycle -/

/-- `value_to_bool`. -/
def valueToBool : ChangeValue → Option Bool
  | .integer i => some (i != 0)
  | .text "0" => some false
  | .text "1" => some true
  | .text _ => none
  | .float _ => none

/-- `value_to_u64`. -/
def valueToU64 : ChangeValue → Option Nat
  | .integer i => some (i % 2 ^ 64)
  | .text t =>
    match trim t.toList with
    | '0' :: 'x' :: hex | '0' :: 'X' :: hex => fromStrRadix (2 ^ 64) 16 hex
    | s => fromStrRadix (2 ^ 64) 10 s
  | .float _ => none

/-- What a part of the program does to the output file: it writes a line, or it
ends the program. -/
inductive TraceOp
  | line (text : String)
  | stop (why : TraceFailure)
  deriving DecidableEq, Repr

/-- `{:02}`. -/
def paddedDecimal (width n : Nat) : String :=
  let digits := Nat.toDigits 10 n
  String.ofList (List.replicate (width - digits.length) '0' ++ digits)

/-- The line of a register write. The value is turned into text even when there
is no address. -/
def registerOps (state : NameMap ChangeValue) (addrPath dataPath : String) : List TraceOp :=
  match (state addrPath).bind valueToU64, (state dataPath).map valueToHexString with
  | _, some none => [.stop .panic]
  | some addr, some (some (some dataHex)) =>
    [.line ("x" ++ paddedDecimal 2 addr ++ " <= " ++ dataHex)]
  | _, _ => []

/-- `process_cycle`. -/
def processCycle (paths : SignalPaths) (state : NameMap ChangeValue) : List TraceOp :=
  let isSet (path : String) : Bool := ((state path).bind valueToBool).getD false
  if ¬ isSet paths.rstN then []
  else
    let retired :=
      if isSet paths.instRetired then
        match (state paths.pc).bind valueToU64, (state paths.instruction).bind valueToU64 with
        | some pc, some instr =>
          [TraceOp.line ("PC : 0x" ++ lowerHex 8 pc ++ " I : 0x" ++ lowerHex 8 instr ++ " ")]
        | _, _ => []
      else []
    let written :=
      if isSet paths.rfWeQual then registerOps state paths.rdAddr paths.rdWdata
      else if isSet paths.rfWeLsu then registerOps state paths.rdAddr paths.rdWdataLsu
      else []
    retired ++ written

/-! ## The loop -/

/-- How the program ends early: the lines in the output file, what follows them
there without an end of line, and why. -/
structure Stopped where
  out : List String
  fragment : List UInt8
  why : TraceFailure
  deriving DecidableEq, Repr

/-- A `writeln!` that fails, and the bytes of the line that it has written. -/
structure WriteFailure where
  taken : Nat
  error : IoError
  deriving DecidableEq, Repr

/-- The operations on the output file. `disk` tells how the write of each line
ends. -/
def perform (disk : Nat → Option WriteFailure) (ops : List TraceOp) (out : List String) :
    Except Stopped (List String) :=
  ops.foldlM (fun out op =>
    match op with
    | .line text =>
      match disk out.length with
      | none => .ok (out ++ [text])
      | some failure =>
        .error ⟨out, (encodeUtf8 text.toList).take failure.taken, .write failure.error⟩
    | .stop why => .error ⟨out, [], why⟩) out

/-- The variables that `process_buffer` borrows. -/
@[ext] structure Trace where
  state : NameMap ChangeValue
  prevClk : Option Bool
  started : Bool
  out : List String

/-- The variables at the start. -/
def Trace.init : Trace := ⟨fun _ => none, none, false, []⟩

/-- A drained event. -/
def Trace.update (paths : SignalPaths) (t : Trace) (evt : TimeValue) : Trace :=
  { t with
    prevClk := if evt.signal = paths.clk then valueToBool evt.value else t.prevClk
    state := Function.update t.state evt.signal (some evt.value) }

/-- `process_buffer`. -/
def processBuffer (paths : SignalPaths) (disk : Nat → Option WriteFailure) (buffer : List TimeValue)
    (t : Trace) : Except Stopped Trace := do
  let rising := buffer.any fun evt =>
    evt.signal = paths.clk ∧ t.prevClk = some false ∧ valueToBool evt.value = some true
  let out ← if rising ∧ t.started then perform disk (processCycle paths t.state) t.out
    else pure t.out
  let t := { t with out := out, started := t.started || rising }
  return buffer.foldl (Trace.update paths) t

/-- The variables of the loop; `acc` are those that `process_buffer` borrows. -/
abbrev TraceLoop := State Nat Trace TimeValue

/-- A round of the loop. -/
def traceRound (paths : SignalPaths) (disk : Nat → Option WriteFailure) (s : TraceLoop)
    (evtRes : Except VcdError TimeValue) : Except Stopped TraceLoop :=
  match evtRes with
  | .error error => .error ⟨s.acc.out, [], .vcd error⟩
  | .ok evt =>
    let current := s.current.getD evt.time
    if evt.time ≠ current then do
      let acc ← processBuffer paths disk s.buffer s.acc
      return ⟨some evt.time, acc, [evt]⟩
    else .ok ⟨some current, s.acc, s.buffer ++ [evt]⟩

/-- What follows the loop: the lines of the trace. -/
def traceRest (paths : SignalPaths) (disk : Nat → Option WriteFailure) (s : TraceLoop) :
    Except Stopped (List String) := do
  let t ← if s.buffer ≠ [] then processBuffer paths disk s.buffer s.acc else pure s.acc
  if t.started then perform disk (processCycle paths t.state) t.out else pure t.out

/-- The loop and what follows it. -/
def traceLoop (paths : SignalPaths) (disk : Nat → Option WriteFailure) (iter : TimeValueIter) :
    Except Stopped (List String) := do
  let ended ← iterate TimeValueIter.nextItem TimeValueIter.size TimeValueIter.nextItem_shrinks
    (fun s evtRes => (traceRound paths disk s evtRes).map (true, ·)) ⟨none, .init, []⟩ iter
  traceRest paths disk ended.2.1

/-! ## The program -/

/-- What the program is started on, and what the system answers it. -/
structure TraceInput where
  signalPath : Option OverridesFile
  /-- `read_compact_header`. -/
  header : Except VcdError SignalCatalog
  /-- What a parser delivers from the body offset, once the file is opened. -/
  body : Except VcdError (List ParseResult)
  output : String
  create : Except String Unit
  disk : Nat → Option WriteFailure

/-- How the program ends: the lines of the output file, if it was created, the
beginning of a line that follows them, and the failure, if any. -/
structure TraceEnd where
  file : Option (List String)
  fragment : List UInt8
  failure : Option TraceFailure
  deriving DecidableEq, Repr

/-- `main` up to its loop. -/
def openTrace (input : TraceInput) : Except TraceFailure (SignalPaths × TimeValueIter) := do
  let paths ← loadPaths input.signalPath
  let catalog ← input.header.mapError .vcd
  let (_, index) ← catalog.intoCompatibilityParts.mapError .vcd
  let (targetMap, missing) := buildTargetMap index paths.targetNames
  if missing ≠ [] then
    throw (.bail ("signals not found in VCD: " ++ ", ".intercalate missing))
  let body ← input.body.mapError .vcd
  input.create.mapError (.context ("creating " ++ input.output))
  return (paths, .new body targetMap ⟨none, none⟩)

/-- The end of the loop as the end of the program. -/
def TraceEnd.ofLoop : Except Stopped (List String) → TraceEnd
  | .ok out => ⟨some out, [], none⟩
  | .error stopped => ⟨some stopped.out, stopped.fragment, some stopped.why⟩

/-- `main`. -/
def traceMain (input : TraceInput) : TraceEnd :=
  match openTrace input with
  | .error why => ⟨none, [], some why⟩
  | .ok (paths, iter) => .ofLoop (traceLoop paths input.disk iter)

end VcdTools.Cli
