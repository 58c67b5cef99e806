import CursorParsers.Fault

/-!
# Arithmetic on values

Numbers and truth values can be added, subtracted and compared, truth values counting as one and
zero. Every other value is of the wrong kind for that.

## Main definitions

* `Value.toNumber`: the number that a value counts as, or a fault
* `Value.plus`, `Value.minus`: sum and difference
* `Value.less`, `Value.lessEq`: the comparisons
* `Value.truncate`: the integer part

## Main results

* `Value.plus_int`, `Value.minus_int`, `Value.less_int`, `Value.lessEq_int`: on integers they are
  the operations on integers
-/

namespace CursorParsers.Value

/-- What an operation gives that not every kind of value has. -/
def orWrongKind {α : Type} : Option α → Except Fault α
  | Option.some a => .ok a
  | none => .error .wrongKind

/-- The number that a value counts as. -/
def toNumber (v : Value) : Except Fault Number := orWrongKind v.number?

/-- What an operation gives unless an integer is too large for it. -/
def orTooLarge : Option Number → Except Fault Number
  | Option.some n => .ok n
  | none => .error .tooLarge

/-- A value moved by an integer. -/
def plus (v : Value) (n : Int) : Except Fault Value := do
  let sum ← orTooLarge ((← v.toNumber).add? (.int n))
  return .number sum

/-- The distance of two values. -/
def minus (v w : Value) : Except Fault Number := do
  orTooLarge ((← v.toNumber).sub? (← w.toNumber))

/-- Whether a value is less than another. -/
def less (v w : Value) : Except Fault Bool := return (← v.toNumber).less (← w.toNumber)

/-- Whether a value is less than another or equal to it. -/
def lessEq (v w : Value) : Except Fault Bool := return (← v.toNumber).lessEq (← w.toNumber)

/-- The number that a value counts as, without its fraction. -/
def truncate (v : Value) : Except Fault Int := do
  match ← v.toNumber with
  | .int n => return n
  | .float x =>
    match x.truncate? with
    | Option.some n => return n
    | none => .error (.notFinite x)

/-! ### Integers -/

@[simp] theorem toNumber_int (n : Int) : (int n).toNumber = .ok (.int n) := rfl

@[simp] theorem plus_int (m n : Int) : (int m).plus n = .ok (int (m + n)) := rfl

@[simp] theorem minus_int (m n : Int) : (int m).minus (int n) = .ok (.int (m - n)) := rfl

@[simp] theorem less_int (m n : Int) : (int m).less (int n) = .ok (decide (m < n)) := by
  simp [less, bind, Except.bind, pure, Except.pure]

@[simp] theorem lessEq_int (m n : Int) : (int m).lessEq (int n) = .ok (decide (m ≤ n)) := by
  simp [lessEq, bind, Except.bind, pure, Except.pure]

@[simp] theorem truncate_int (n : Int) : (int n).truncate = .ok n := rfl

end CursorParsers.Value
