import VcdTools.Lib.Utf8
import VcdTools.Server.Connection

/-! # The bytes on the socket

The writer thread of `serve_connection_with_shutdown` in bytes: each call of
`write` takes as many bytes of the line as the socket has room for, and the
thread looks at the flag before the next call. The connection around it is the
one of frames. -/
namespace VcdTools.Server
open VcdTools.Lib

/-- A frame as the line that the channel carries. -/
def ResponseFrame.line (frame : ResponseFrame) : List UInt8 :=
  encodeUtf8 (frame.toJson.render ++ ['\n'])

/-- What a call of `write` answers. -/
inductive WriteResult
  | ok (count : Nat)
  /-- `WouldBlock` or `TimedOut`. -/
  | again
  | failed
  deriving DecidableEq, Repr

/-- `offset` is how much of its line the writer has written. `socket` is what
`write` has taken in all; `pushed` is a ghost: the frames that have come into
the channel. -/
structure Wire where
  connection : Connection
  offset : Nat
  socket : List UInt8
  pushed : List OutputFrame

def Wire.init (env : ConnectionEnv) : Wire where
  connection := .init env
  offset := 0
  socket := []
  pushed := []

inductive WireAction
  /-- A step of anybody but the writer. -/
  | other (action : ConnectionAction)
  /-- `output_rx.recv()`. -/
  | recv
  /-- The condition of the writer's loop. -/
  | check
  | write (result : WriteResult)

/-- The steps of the writer. -/
def ConnectionAction.isWriter : ConnectionAction → Bool
  | .recv | .check | .wrote _ | .writeFails => true
  | _ => false

namespace Wire
variable (env : ConnectionEnv) (w : Wire)

/-- A step that leaves the writer as it is; what it puts into the channel is
behind what was there. -/
def other (action : ConnectionAction) : Option Wire :=
  if action.isWriter then none
  else (w.connection.step env action).map fun connection =>
    { w with
      connection
      pushed := w.pushed ++ connection.output.drop w.connection.output.length }

def recv : Option Wire :=
  (w.connection.step env .recv).map fun connection => { w with connection, offset := 0 }

def check : Option Wire :=
  (w.connection.step env .check).map fun connection => { w with connection }

/-- `writer.write(&bytes[offset..])` takes `count` bytes. -/
def wrote (count : Nat) (bytes : List UInt8) : Option Wire :=
  (w.connection.step env (.wrote (decide (w.offset + count = bytes.length)))).map fun connection =>
    { w with
      connection
      offset := w.offset + count
      socket := w.socket ++ (bytes.drop w.offset).take count }

def write (result : WriteResult) : Option Wire :=
  match w.connection.writer, result with
  | .writing frame, .ok count =>
    if count = 0 then
      (w.connection.step env .writeFails).map fun connection => { w with connection }
    else if w.offset + count ≤ frame.frame.line.length then w.wrote env count frame.frame.line
    else none
  | .writing _, .again =>
    (w.connection.step env (.wrote false)).map fun connection => { w with connection }
  | .writing _, .failed =>
    (w.connection.step env .writeFails).map fun connection => { w with connection }
  | _, _ => none

def step : WireAction → Option Wire
  | .other action => w.other env action
  | .recv => w.recv env
  | .check => w.check env
  | .write result => w.write env result

end Wire
end VcdTools.Server
