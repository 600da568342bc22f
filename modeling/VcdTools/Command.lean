import VcdTools.Catalog

/-! # Body commands and their values

The commands of the `vcd` crate that the crate tells apart, and the two value
decoders (`lib.rs` and `query/stream.rs`). The parser itself is not part of
this repository: a body is any list of parse results. -/
namespace VcdTools

/-- `vcd::Value`. -/
inductive Value
  | v0 | v1 | x | z
  deriving DecidableEq, Repr

/-- `impl Display for Value`. -/
def Value.toChar : Value → Char
  | .v0 => '0'
  | .v1 => '1'
  | .x => 'x'
  | .z => 'z'

/-- `vcd::Vector`, first bit first. -/
abbrev Vector4 := List Value

/-- `impl Display for Vector`. -/
def vectorToString (vector : Vector4) : String := String.ofList (vector.map Value.toChar)

/-- `vcd::Command`; `other` is a command that changes neither time nor values
(comments, simulation keywords, declarations). -/
inductive Command
  | timestamp (time : Nat)
  | changeScalar (id : IdCode) (value : Value)
  | changeVector (id : IdCode) (vector : Vector4)
  | changeReal (id : IdCode) (value : F64)
  | changeString (id : IdCode) (value : String)
  | other (text : String)
  deriving DecidableEq, Repr

/-- `matches!(value, Value::V0 | Value::V1)`. -/
def Value.isKnown : Value → Bool
  | .v0 | .v1 => true
  | .x | .z => false

/-- One round of the decoders' loop: a `u128` shift and or. -/
def shiftIn (acc : Nat) (value : Value) : Nat :=
  (acc <<< 1) % 2 ^ 128 ||| (match value with | .v1 => 1 | _ => 0)

/-- `vector_to_change_value` of `lib.rs`. -/
def vectorToChangeValue (vec : Vector4) : ChangeValue :=
  if vec.all Value.isKnown ∧ vec.length ≤ 128 then .integer (vec.foldl shiftIn 0)
  else .text (vectorToString vec)

/-- `vector_to_change_value_selected` of `query/stream.rs`. -/
def vectorToChangeValueSelected (vector : Vector4) : ChangeValue :=
  if vector.all Value.isKnown ∧ vector.length ≤ 128 then .integer (vector.foldl shiftIn 0)
  else .text (vectorToString vector)

/-- `command_to_change_value` of `lib.rs`. -/
def commandToChangeValue : Command → Option (IdCode × ChangeValue)
  | .changeScalar id value => some (id, .text (String.singleton value.toChar))
  | .changeVector id vec => some (id, vectorToChangeValue vec)
  | .changeReal id value => some (id, .float value)
  | .changeString id value => some (id, .text value)
  | _ => none

/-- The identifier of a change command. -/
def Command.changedId : Command → Option IdCode
  | .changeScalar id _ | .changeVector id _ | .changeReal id _ | .changeString id _ => some id
  | _ => none

/-- What the body parser delivers: commands, and the `io::Error`s of a body
that cannot be read or parsed. -/
abbrev ParseResult := Except IoError Command

end VcdTools
