import CursorParsers.Value.Basic

/-!
# Equality of values

Values of one kind are equal when their parts are. Across kinds, numbers and truth values are equal
when they count the same, and the two unit values are equal to each other.

## Main definitions

* `Value.equals`: whether two values are equal
-/

namespace CursorParsers.Value

/-- Whether a value is one of the unit values. -/
def isUnit : Value → Bool
  | .absent | .null => true
  | _ => false

/-- Whether a value counts as a given number. -/
def countsAs (n : Number) (v : Value) : Bool := v.number?.any n.same

mutual

/-- Whether two values are equal. -/
def equals : Value → Value → Bool
  | .absent, w => w.isUnit
  | .null, w => w.isUnit
  | .nothing, w => match w with
    | .nothing => true
    | _ => false
  | .bool b, w => w.countsAs (.int (if b then 1 else 0))
  | .number n, w => w.countsAs n
  | .text s, w => match w with
    | .text t => s = t
    | _ => false
  | .list vs, w => match w with
    | .list ws => equalsEach vs ws
    | _ => false
  | .tuple vs, w => match w with
    | .tuple ws => equalsEach vs ws
    | _ => false
  | .union vs, w => match w with
    | .union ws => equalsEach vs ws
    | _ => false
  | .ok v, w => match w with
    | .ok w => equals v w
    | _ => false
  | .err v, w => match w with
    | .err w => equals v w
    | _ => false
  | .some v, w => match w with
    | .some w => equals v w
    | _ => false
  | .stream s, w => match w with
    | .stream t => s = t
    | _ => false
  | .range a, w => match w with
    | .range b => a.min.same b.min && a.max.same b.max
    | _ => false

/-- Whether two sequences have equally many entries, equal place by place. -/
def equalsEach : List Value → List Value → Bool
  | [], [] => true
  | v :: vs, w :: ws => equals v w && equalsEach vs ws
  | _, _ => false

end

end CursorParsers.Value
