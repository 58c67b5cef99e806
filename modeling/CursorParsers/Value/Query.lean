import CursorParsers.Position
import CursorParsers.Value.Digest

/-!
# Queries

The questions that can be put to a value, as data. Most are answered for every value, some only for
values of certain kinds, and values cannot be changed. Another value that a question is about may
have come to a fault in building; whether that is noticed depends on the question.

## Main definitions

* `Value.unwrap`, `Value.unwrapErr`, `Value.unwrapOr`: the content of an outcome or optional value
* `Value.field?`: a part of a value, by name
* `Query`: the questions
* `Value.answer`: the answer to one question
* `Value.collect`: the elements of the set of some values
-/

namespace CursorParsers

namespace Value

/-! ### Outcomes and optional values -/

/-- The content of a success or of an optional value. -/
def unwrap : Value → Except Fault Value
  | .ok v => .ok v
  | .some v => .ok v
  | .err e => .error (.unwrappedErr e)
  | .nothing => .error .unwrappedNothing
  | _ => .error .wrongKind

/-- The error of a failure. -/
def unwrapErr : Value → Except Fault Value
  | .err e => .ok e
  | .ok v => .error (.unwrappedOk v)
  | _ => .error .wrongKind

/-- The content of a success or of an optional value, with a default for the rest. -/
def unwrapOr (v default : Value) : Except Fault Value :=
  match v with
  | .ok v => .ok v
  | .some v => .ok v
  | .err _ => .ok default
  | .nothing => .ok default
  | _ => .error .wrongKind

/-- Whether an outcome is a success. -/
def isOk : Value → Except Fault Bool
  | .ok _ => .ok true
  | .err _ => .ok false
  | _ => .error .wrongKind

/-- Whether an optional value is there. -/
def isSome : Value → Except Fault Bool
  | .some _ => .ok true
  | .nothing => .ok false
  | _ => .error .wrongKind

/-! ### Parts -/

/-- The entries of a union. -/
def entries? : Value → Option (List Value)
  | .union vs => Option.some vs
  | _ => none

/-- A part of a value, by name. -/
def field? (v : Value) (name : String) : Option Value :=
  match v, name with
  | .ok v, "value" => Option.some v
  | .some v, "value" => Option.some v
  | .nothing, "value" => Option.some .null
  | .err e, "error" => Option.some e
  | .union vs, "values" => Option.some (.tuple vs)
  | .stream s, "text" => Option.some (.text s.text)
  | .stream s, "length" => Option.some (.int s.length)
  | .range b, "min" => Option.some (.number b.min)
  | .range b, "max" => Option.some (.number b.max)
  | _, _ => none

end Value

/-! ### Questions and answers -/

/-- A question to a value. -/
inductive Query where
  | isOk
  | isErr
  | isSome
  | isNone
  | unwrap
  | unwrapErr
  | unwrapOr (default : Except Fault Value)
  | get (position : Value)
  | unpack
  | parts
  | length
  | repr
  | display
  | truth
  | equalTo (other : Except Fault Value)
  | unequalTo (other : Except Fault Value)
  | equalFrom (other : Except Fault Value)
  | sameDigest (other : Except Fault Value)
  | field (name : String)
  | assign (name : String) (value : Except Fault Value)
  | delete (name : String)

namespace Value

/-- The digest of a value, or a fault for one that cannot be in a set. -/
def digest (v : Value) : Except Fault Digest := orWrongKind v.digest?

/-- The answer of a value to a question. The digests are compared one after the other, so a
value without one is noticed before the other value is looked at. -/
def answer [Repertoire] (v : Value) : Query → Except Fault Value
  | .isOk => v.isOk.map .bool
  | .isErr => v.isOk.map fun b => .bool !b
  | .isSome => v.isSome.map .bool
  | .isNone => v.isSome.map fun b => .bool !b
  | .unwrap => v.unwrap
  | .unwrapErr => v.unwrapErr
  | .unwrapOr default => default.bind v.unwrapOr
  | .get position => (v.entryAt? position).map ofOption
  | .unpack => (orWrongKind v.entries?).map .tuple
  | .parts => (orWrongKind v.parts?).map .list
  | .length => (orWrongKind v.length?).map fun n => .int n
  | .repr => .ok (.text v.repr)
  | .display => .ok (.text v.display)
  | .truth => .ok (.bool v.isTrue)
  | .equalTo other => other.map fun w => .bool (v.equals w)
  | .unequalTo other => other.map fun w => .bool !v.equals w
  | .equalFrom other => other.map fun w => .bool (w.equals v)
  | .sameDigest other => do return .bool ((← v.digest).agrees (← (← other).digest))
  | .field name => orWrongKind (v.field? name)
  | .assign name value => value.bind fun _ => .error (.assigned name)
  | .delete name => .error (.deleted name)

/-- The elements of the set of some values. The values come one after another, and the first
that has come to a fault or cannot be in a set is the fault of the whole. -/
def collect (vs : List (Except Fault Value)) : Except Fault (List Value) := do
  let ws ← vs.mapM fun v => do
    let w ← v
    let _ ← w.digest
    return w
  return distinct ws

end Value

end CursorParsers
