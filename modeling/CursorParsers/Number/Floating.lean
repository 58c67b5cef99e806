import CursorParsers.Number.Shortest

/-!
# Floating-point numbers

A binary64 number is kept in its **shortest decimal form**: the fewest digits that read back to it.
The digits are what is written, and the number they are nearest to is what is compared and
calculated with. Sums are exact rational numbers, rounded once; no machine floats take part.

## Main definitions

* `Floating`: not-a-number, an infinity, or a signed decimal
* `Floating.value?`: the exact number that a floating-point number stands for
* `Floating.text`, `Floating.ofText?`: writing and reading
* `Floating.ofRat`, `Floating.ofInt?`: the nearest floating-point number
* `Floating.neg`, `Floating.add`: the arithmetic
* `Floating.truncate?`: the integer part
-/

namespace CursorParsers

/-- A floating-point number in its shortest decimal form. Zero has a sign. -/
inductive Floating where
  | nan
  | infinite (negative : Bool)
  | finite (negative : Bool) (magnitude : Decimal)
  deriving DecidableEq

namespace Floating

/-- The negative of an extended number, if asked for. -/
def signed (negative : Bool) : Extended → Extended
  | .finite q => .finite (if negative then -q else q)
  | .posInf => if negative then .negInf else .posInf
  | .negInf => if negative then .posInf else .negInf

/-- The exact number a floating-point number stands for; not-a-number stands for none. -/
def value? : Floating → Option Extended
  | .nan => none
  | .infinite negative => some (signed negative .posInf)
  | .finite negative d => some (signed negative (nearestBinary64 d.toRat))

/-- The text of a floating-point number. -/
def text : Floating → String
  | .nan => "nan"
  | .infinite negative => if negative then "-inf" else "inf"
  | .finite negative d =>
    String.ofList (if negative then '-' :: d.text else d.text)

/-- The floating-point number that a text denotes. -/
def ofText? (s : String) : Option Floating :=
  match s.toList with
  | ['n', 'a', 'n'] => some .nan
  | ['i', 'n', 'f'] => some (.infinite false)
  | ['-', 'i', 'n', 'f'] => some (.infinite true)
  | '-' :: cs => (Decimal.ofText? cs).map (.finite true)
  | cs => (Decimal.ofText? cs).map (.finite false)

/-! ### Arithmetic -/

/-- Whether a number has a minus sign, zero included. -/
def isNegative : Floating → Bool
  | .nan => false
  | .infinite negative => negative
  | .finite negative _ => negative

/-- The floating-point number nearest to a rational number. Zero has no sign of its own, so it
gets the given one. -/
def ofRat (negativeZero : Bool) (q : Rat) : Floating :=
  let negative := if q = 0 then negativeZero else q < 0
  match nearestBinary64 (if q < 0 then -q else q) with
  | .finite r => .finite negative (Decimal.shortest r)
  | _ => .infinite negative

/-- The floating-point number nearest to an integer, unless the integer is too large for a
finite one. -/
def ofInt? (n : Int) : Option Floating :=
  match ofRat false n with
  | .infinite _ => none
  | x => some x

/-- The number with the opposite sign. -/
def neg : Floating → Floating
  | .nan => .nan
  | .infinite negative => .infinite !negative
  | .finite negative d => .finite (!negative) d

/-- The sum, rounded to the nearest. Opposite infinities have none, and a sum of zero is
negative only where both summands are. -/
def add (x y : Floating) : Floating :=
  match x.value?, y.value? with
  | some (.finite p), some (.finite q) => ofRat (x.isNegative && y.isNegative) (p + q)
  | some (.finite _), some _ => y
  | some _, some (.finite _) => x
  | some a, some b => if a = b then x else .nan
  | _, _ => .nan

/-- A finite number without its fraction, rounded toward zero. -/
def truncate? (x : Floating) : Option Int :=
  match x.value? with
  | some (.finite q) => some (if q < 0 then -(-q).floor else q.floor)
  | _ => none

end Floating

end CursorParsers
