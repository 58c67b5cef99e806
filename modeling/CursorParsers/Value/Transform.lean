import CursorParsers.Text.Integer
import CursorParsers.Value.Arithmetic

/-!
# Transformations of values

Functions that are applied to captured values. Some are defined on values of certain kinds only, and
applying them to another value is a fault.

## Main definitions

* `Transform`: a function on values that may end in a fault
* `Transform.toInteger`: the integer that a value denotes
-/

namespace CursorParsers

/-- A function on captured values, which may end in a fault. -/
abbrev Transform := Value → Except Fault Value

namespace Transform

/-- The function that ends in no fault. -/
def total (f : Value → Value) : Transform := fun v => .ok (f v)

/-- The integer that a value denotes: a text is read, and any other value has to count as a
number, which loses its fraction. -/
def toInteger : Transform
  | .text s =>
    match Text.readInteger? s with
    | some n => .ok (.int n)
    | none => .error (.notAnInteger s)
  | v => v.truncate.map .int

/-- A list of one value. -/
def single : Transform := total fun v => .list [v]

end Transform

end CursorParsers
