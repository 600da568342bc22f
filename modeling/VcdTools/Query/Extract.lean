import VcdTools.Query.Stream

/-! # Extraction

`query/extract.rs`: `OpenedTimeValueIter` expands a selected change to one row
for each binding of its identifier, and charges each row before it delivers
it. -/
namespace VcdTools.Query

/-- The UTF-8 length of a string. -/
def utf8Length (s : String) : Nat := s.utf8ByteSize

/-- `logical_event_bytes`. -/
def logicalEventBytes (signal : String) (value : ChangeValue) : Nat :=
  let valueBytes := match value with
    | .integer _ => 16
    | .float _ => 8
    | .text text => utf8Length text
  saturatingAdd (saturatingAdd (utf8Length signal) 8) valueBytes

structure PendingEvent where
  name : String
  value : ChangeValue
  time : Nat
  deriving DecidableEq, Repr

structure OpenedTimeValueIter where
  stream : SelectedChangeStream
  context : QueryContext
  pending : List PendingEvent
  rows : Nat
  logicalBytes : Nat
  terminated : Bool

/-- `OpenedVcd::extract`. -/
def OpenedVcd.extract (opened : OpenedVcd) (targets : List String) (window : TimeWindow)
    (context : QueryContext) : Except QueryError OpenedTimeValueIter := do
  let stream ← opened.selectedChangeStream targets window context
  return {
    stream := stream
    context := context
    pending := []
    rows := 0
    logicalBytes := 0
    terminated := false }

namespace OpenedTimeValueIter

/-- `OpenedTimeValueIter::rows_emitted`. -/
def rowsEmitted (iter : OpenedTimeValueIter) : Nat := iter.rows

/-- `OpenedTimeValueIter::logical_bytes_emitted`. -/
def logicalBytesEmitted (iter : OpenedTimeValueIter) : Nat := iter.logicalBytes

/-- `OpenedTimeValueIter::commands_processed`. -/
def commandsProcessed (iter : OpenedTimeValueIter) : Nat := iter.stream.commandCount

/-- `OpenedTimeValueIter::queue_change`. -/
def queueChange (iter : OpenedTimeValueIter) (change : SelectedChange) : OpenedTimeValueIter :=
  let bindings := iter.stream.selection.bindings change.idCode
  { iter with
    pending := iter.pending ++ bindings.map fun binding =>
      ⟨binding.name, change.value, change.time⟩ }

/-- A counter against its limit. -/
def checkLimit (kind : QueryLimitKind) (limit : Option Nat) (actual : Nat) :
    Except QueryError Unit :=
  match limit with
  | some limit => if actual > limit then .error (.limitExceeded kind limit actual) else .ok ()
  | none => .ok ()

/-- The checks of `emit_pending`: the context, the rows and then the bytes. The
counters they give are kept when all of them pass. -/
def chargeRow (iter : OpenedTimeValueIter) (event : PendingEvent) :
    Except QueryError (Nat × Nat) := do
  iter.context.check
  let nextRows := saturatingAdd iter.rows 1
  checkLimit .rows iter.context.limits.maxRows nextRows
  let eventBytes := logicalEventBytes event.name event.value
  let nextBytes := saturatingAdd iter.logicalBytes eventBytes
  checkLimit .resultBytes iter.context.limits.maxResultBytes nextBytes
  return (nextRows, nextBytes)

/-- `OpenedTimeValueIter::emit_pending`. -/
def emitPending (iter : OpenedTimeValueIter) :
    Option (Except QueryError TimeValue) × OpenedTimeValueIter :=
  match iter.pending with
  | [] => (none, iter)
  | event :: pending =>
    match iter.chargeRow event with
    | .error error => (some (.error error), { iter with terminated := true, pending := [] })
    | .ok (rows, logicalBytes) =>
      (some (.ok ⟨event.name, event.time, event.value⟩),
        { iter with pending := pending, rows := rows, logicalBytes := logicalBytes })

/-- `OpenedTimeValueIter::next`. -/
def next (iter : OpenedTimeValueIter) :
    Option (Except QueryError TimeValue) × OpenedTimeValueIter :=
  if iter.terminated then (none, iter)
  else
    match iter.emitPending with
    | (some event, iter) => (some event, iter)
    | (none, iter) =>
      match iter.stream.next with
      | (none, stream) => (none, { iter with stream := stream })
      | (some (.ok change), stream) => ({ iter with stream := stream }.queueChange change).emitPending
      | (some (.error error), stream) =>
        (some (.error error), { iter with stream := stream, terminated := true })

end OpenedTimeValueIter
end VcdTools.Query
