import CursorParsers.Number.Floating

/-!
# Numbers

A number is an integer of any size or a floating-point number. Numbers of either kind are compared
by their exact values; not-a-number has no value, so every comparison with it fails. Sums of
integers are exact; a floating-point summand makes the sum a floating-point number.

Integers have any size, and so have their texts: writing a number never fails, however many digits
it takes.

## Main definitions

* `Number`: an integer or a floating-point number
* `Number.value?`: the exact value
* `Number.less`, `Number.lessEq`, `Number.same`: the three comparisons
* `Number.add?`, `Number.sub?`: sum and difference
* `Number.text`: a number as text
-/

namespace CursorParsers

/-- An integer or a floating-point number. -/
inductive Number where
  | int (n : Int)
  | float (x : Floating)
  deriving DecidableEq

namespace Number

/-- The exact value of a number, if it has one. -/
def value? : Number → Option Extended
  | .int n => some (.ofInt n)
  | .float x => x.value?

/-- The positive infinity, as a bound that nothing reaches. -/
def infinity : Number := .float (.infinite false)

/-- A comparison of the exact values, which fails when one of the numbers has none. -/
def compareWith (test : Extended → Extended → Bool) (m n : Number) : Bool :=
  match m.value?, n.value? with
  | some x, some y => test x y
  | _, _ => false

/-- Whether the first number is less than the second. -/
def less : Number → Number → Bool := compareWith fun x y => x < y

/-- Whether the first number is less than the second or equal to it. -/
def lessEq : Number → Number → Bool := compareWith fun x y => !(y < x)

/-- Whether two numbers have the same value. -/
def same : Number → Number → Bool := compareWith fun x y => x = y

/-- A finite value rounded down. -/
def floor? (n : Number) : Option Int := n.value?.bind Extended.floor?

/-- A number as a floating-point number, unless it is an integer that is too large. -/
def toFloating? : Number → Option Floating
  | .int n => Floating.ofInt? n
  | .float x => some x

/-- The number with the opposite sign. -/
def neg : Number → Number
  | .int n => .int (-n)
  | .float x => .float x.neg

/-- The sum of two numbers, unless one is an integer that is too large to be added to a
floating-point number. -/
def add? : Number → Number → Option Number
  | .int m, .int n => some (.int (m + n))
  | x, y => do
    let a ← x.toFloating?
    let b ← y.toFloating?
    return .float (a.add b)

/-- The difference of two numbers, with the same exception. -/
def sub? (x y : Number) : Option Number := add? x y.neg

/-- A number as text. -/
def text : Number → String
  | .int n => toString n
  | .float x => x.text

@[simp] theorem value?_int (n : Int) : (int n).value? = some (.ofInt n) := rfl

@[simp] theorem less_int (m n : Int) : less (.int m) (.int n) = decide (m < n) := by
  simp [less, compareWith, Extended.ofInt_lt_ofInt]

@[simp] theorem lessEq_int (m n : Int) : lessEq (.int m) (.int n) = decide (m ≤ n) := by
  have h : (n < m) = ¬ m ≤ n := propext Int.not_le.symm
  simp only [lessEq, compareWith, value?_int, Extended.ofInt_lt_ofInt, h, decide_not, Bool.not_not]

end Number

end CursorParsers
