import VcdTools.Command
import VcdTools.Query.Context

/-! # The selected change stream

`query/stream.rs`: the requested names resolve to identifiers, and the body is
decoded for these identifiers only. A stream reads its context many times; here
every read gives the same answer, as it does while nobody cancels and no
deadline passes. -/
namespace VcdTools.Query
open VcdTools.Lib

/-- `COMMAND_CHECK_INTERVAL`. -/
def commandCheckInterval : Nat := 4096

structure TargetBinding where
  requestIndex : Nat
  name : String
  size : Nat
  deriving DecidableEq, Repr

structure TargetSelection where
  byId : Groups IdCode TargetBinding
  requestCount : Nat
  deriving Repr

/-- An opened waveform as a query sees it: its catalog, the commands a new body
parser delivers, and the answer of `OpenedBodyReader::validate_complete`. -/
structure OpenedVcd where
  catalog : SignalCatalog
  bodyParser : Except VcdError (List ParseResult)
  validateComplete : Except VcdError Unit

/-- `OpenedVcd::signal`. -/
def OpenedVcd.signal (opened : OpenedVcd) (name : String) : Option SignalMeta :=
  (opened.catalog.keyByName name).bind opened.catalog.signal

/-- The loop of `TargetSelection::resolve`. -/
def resolveLoop (opened : OpenedVcd) (context : QueryContext) (byId : Groups IdCode TargetBinding)
    (missing : List String) : List (String × Nat) →
    Except QueryError (Groups IdCode TargetBinding × List String)
  | [] => .ok (byId, missing)
  | (name, requestIndex) :: targets => do
    context.check
    match opened.signal name with
    | some signal =>
      let binding := ⟨requestIndex, signal.fullName, signal.size⟩
      resolveLoop opened context (byId.push signal.idCode binding) missing targets
    | none => resolveLoop opened context byId (missing ++ [name]) targets

/-- `TargetSelection::resolve`. -/
def TargetSelection.resolve (opened : OpenedVcd) (targets : List String)
    (context : QueryContext) : Except QueryError TargetSelection := do
  context.checkSignalCount targets.length
  let (byId, missing) ← resolveLoop opened context [] [] targets.zipIdx
  if missing ≠ [] then
    throw (QueryError.fromVcd (.missingSignals (", ".intercalate missing)))
  return ⟨byId, targets.length⟩

/-- `TargetSelection::contains`. -/
def TargetSelection.contains (selection : TargetSelection) (id : IdCode) : Bool :=
  (selection.byId.get id).isSome

/-- `TargetSelection::bindings`. -/
def TargetSelection.bindings (selection : TargetSelection) (id : IdCode) : List TargetBinding :=
  selection.byId.getD id

structure SelectedChange where
  idCode : IdCode
  time : Nat
  value : ChangeValue
  deriving DecidableEq, Repr

structure SelectedChangeStream where
  parser : List ParseResult
  validateComplete : Except VcdError Unit
  selection : TargetSelection
  window : TimeWindow
  context : QueryContext
  currentTime : Nat
  commandCount : Nat
  finished : Bool

/-- `OpenedVcd::selected_change_stream`. -/
def OpenedVcd.selectedChangeStream (opened : OpenedVcd) (targets : List String)
    (window : TimeWindow) (context : QueryContext) : Except QueryError SelectedChangeStream := do
  context.check
  let selection ← TargetSelection.resolve opened targets context
  context.check
  let parser ← opened.bodyParser.mapError QueryError.fromVcd
  return {
    parser := parser
    validateComplete := opened.validateComplete
    selection := selection
    window := window
    context := context
    currentTime := 0
    commandCount := 0
    finished := false }

namespace SelectedChangeStream

/-- `SelectedChangeStream::increment_command_count`. -/
def incrementCommandCount (stream : SelectedChangeStream) : SelectedChangeStream :=
  { stream with commandCount := saturatingAdd stream.commandCount 1 }

/-- `SelectedChangeStream::check_command_limit`. -/
def checkCommandLimit (stream : SelectedChangeStream) : Except QueryError Unit :=
  match stream.context.limits.maxCommands with
  | some limit =>
    if stream.commandCount > limit then .error (.limitExceeded .commands limit stream.commandCount)
    else .ok ()
  | none => .ok ()

/-- `SelectedChangeStream::check_periodic_context`. -/
def checkPeriodicContext (stream : SelectedChangeStream) : Except QueryError Unit :=
  if stream.commandCount % commandCheckInterval = 0 then stream.context.check else .ok ()

/-- `SelectedChangeStream::check_timestamp_context`. -/
def checkTimestampContext (stream : SelectedChangeStream) : Except QueryError Unit :=
  stream.context.check

/-- The checks of `SelectedChangeStream::finish_success`. -/
def checkComplete (stream : SelectedChangeStream) : Except QueryError Unit := do
  stream.context.check
  stream.validateComplete.mapError QueryError.fromVcd
  stream.context.check

/-- `SelectedChangeStream::fail`. -/
def fail (stream : SelectedChangeStream) (error : QueryError) :
    Option (Except QueryError SelectedChange) × SelectedChangeStream :=
  (some (.error error), { stream with finished := true })

/-- `finish_success`, and the answer of `next` around it. -/
def finishSuccess (stream : SelectedChangeStream) :
    Option (Except QueryError SelectedChange) × SelectedChangeStream :=
  match stream.checkComplete with
  | .ok () => (none, { stream with finished := true })
  | .error error => stream.fail error

/-- `SelectedChangeStream::convert_selected`. -/
def convertSelected (stream : SelectedChangeStream) : Command → Option SelectedChange
  | .changeScalar id value =>
    some ⟨id, stream.currentTime, .text (String.singleton value.toChar)⟩
  | .changeVector id vector => some ⟨id, stream.currentTime, vectorToChangeValueSelected vector⟩
  | .changeReal id value => some ⟨id, stream.currentTime, .float value⟩
  | .changeString id value => some ⟨id, stream.currentTime, .text value⟩
  | _ => none

/-- The checks `next` makes on a parse result before it looks at the command:
the context first, where a check of it is due, then the command limit. -/
def checkResult (stream : SelectedChangeStream) (result : ParseResult) : Except QueryError Command := do
  stream.checkPeriodicContext
  match result with
  | .ok (.timestamp _) => stream.checkTimestampContext
  | _ => pure ()
  stream.checkCommandLimit
  match result with
  | .ok command => return command
  | .error error => throw (.vcd (.io error))

/-- Whether `time` is past the end of the window. -/
def pastEnd (window : TimeWindow) (time : Nat) : Bool :=
  window.end_.any fun end_ => time > end_

/-- The loop of `SelectedChangeStream::next` over what the parser still
delivers. -/
def nextLoop (stream : SelectedChangeStream) :
    List ParseResult → Option (Except QueryError SelectedChange) × SelectedChangeStream
  | [] => { stream with parser := [] }.finishSuccess
  | result :: rest =>
    let stream := incrementCommandCount { stream with parser := rest }
    match stream.checkResult result with
    | .error error => stream.fail error
    | .ok (.timestamp time) =>
      let stream := { stream with currentTime := time }
      if pastEnd stream.window time then stream.finishSuccess else nextLoop stream rest
    | .ok command =>
      match command.changedId with
      | none => nextLoop stream rest
      | some id =>
        if stream.selection.contains id ∧ stream.window.contains stream.currentTime then
          match stream.context.check with
          | .error error => stream.fail error
          | .ok () =>
            match stream.convertSelected command with
            | some change => (some (.ok change), stream)
            | none => nextLoop stream rest
        else nextLoop stream rest

/-- `SelectedChangeStream::next`. -/
def next (stream : SelectedChangeStream) :
    Option (Except QueryError SelectedChange) × SelectedChangeStream :=
  if stream.finished then (none, stream) else nextLoop stream stream.parser

end SelectedChangeStream
end VcdTools.Query
