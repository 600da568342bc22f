import Mathlib.Data.String.Basic
import VcdTools.Data
import VcdTools.Lib.Fields
import VcdTools.Server.Protocol

/-! # Strict JSON

`parse_strict_json` drives the JSON deserializer itself, so that it can refuse
an object that names a key twice. The deserializer is a parameter: it reads a
line as the events it hands to its visitor, some of which may be its own
errors. -/
namespace VcdTools.Server.Requests
open VcdTools.Lib

/-- A JSON number as `serde_json` keeps it: not negative, negative, or a float. -/
inductive Number
  | posInt (value : UInt64)
  | negInt (value : Int)
  | float (value : F64)
  deriving DecidableEq, Repr

def Number.asU64 : Number → Option UInt64
  | .posInt n => some n
  | _ => none

/-- A value that has been read; the fields of an object in the order of their keys. -/
inductive JsonValue
  | null
  | bool (value : Bool)
  | number (value : Number)
  | string (value : String)
  | array (values : List JsonValue)
  | object (fields : List (String × JsonValue))

/-- The events of the deserializer, in text order, as a tree. `fault` and the
`stop` of an unfinished sequence or map are errors of its own. -/
inductive Events
  | null
  | bool (value : Bool)
  | number (value : Number)
  | string (value : String)
  | seq (items : List Events) (stop : Option String)
  | map (entries : List (String × Events)) (stop : Option String)
  | fault (error : String)

/-- What `serde_json` is relied on for: the events of a text and the error of
`end`, the display of an error that the visitor raised, and the text of a tree. -/
structure SerdeJson where
  events : String → Events × Option String
  display : String → String → String
  print : Events → String

/-- `visit_i64`, `visit_u64` and `visit_f64`. -/
def visitNumber : Number → Except (String ⊕ String) JsonValue
  | .float value =>
    if value.isFinite then .ok (.number (.float value))
    else .error (.inr "non-finite JSON number")
  | value => .ok (.number value)

mutual
/-- `StrictValueVisitor`. -/
def strictValue : Events → Except (String ⊕ String) JsonValue
  | .null => .ok .null
  | .bool value => .ok (.bool value)
  | .number value => visitNumber value
  | .string value => .ok (.string value)
  | .seq items stop => do
    let values ← strictItems items
    match stop with
    | some error => .error (.inl error)
    | none => .ok (.array values)
  | .map entries stop => do
    let values ← strictEntries [] [] entries
    match stop with
    | some error => .error (.inl error)
    | none => .ok (.object values)
  | .fault error => .error (.inl error)

def strictItems : List Events → Except (String ⊕ String) (List JsonValue)
  | [] => .ok []
  | item :: items => do
    let value ← strictValue item
    let values ← strictItems items
    .ok (value :: values)

/-- The loop of `visit_map`: the keys seen and the values read so far. -/
def strictEntries (seen : List String) (values : List (String × JsonValue)) :
    List (String × Events) → Except (String ⊕ String) (List (String × JsonValue))
  | [] => .ok values
  | (key, entry) :: entries =>
    if key ∈ seen then .error (.inr ("duplicate object key " ++ key))
    else do
      let value ← strictValue entry
      strictEntries (key :: seen) (Fields.insert key value values) entries
end

variable (serde : SerdeJson)

/-- An error of the deserializer is shown as it is, one of the visitor with
the position it was raised at. -/
def displayError (line : String) : String ⊕ String → String
  | .inl error => error
  | .inr error => serde.display line error

def parseStrictJson (input : String) : Except ProtocolError JsonValue :=
  match strictValue (serde.events input).1 with
  | .error error => .error (.badRequest ("invalid JSON: " ++ displayError serde input error))
  | .ok value =>
    match (serde.events input).2 with
    | some error => .error (.badRequest ("invalid JSON: " ++ error))
    | none => .ok value

end VcdTools.Server.Requests
