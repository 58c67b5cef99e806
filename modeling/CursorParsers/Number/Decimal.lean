/-!
# Decimal numbers

A decimal is a natural number times a power of ten, kept in the one form that has no superfluous
zeros. It is written positionally or in scientific notation, whichever its size calls for.

## Main definitions

* `Decimal`: digits and exponent, in canonical form
* `Decimal.normalize`: the canonical form of any digits and exponent
* `Decimal.text`, `Decimal.ofText?`: writing and reading

## Main results

* `Decimal.normalize_digits_exponent`: a decimal is its own canonical form
-/

namespace CursorParsers

/-- The number `digits * 10 ^ exponent`. The digits do not end in a zero, and zero itself has
exponent zero, so every number has one decimal form. -/
structure Decimal where
  digits : Nat
  exponent : Int
  canonical : (digits = 0 → exponent = 0) ∧ (digits ≠ 0 → digits % 10 ≠ 0)
  deriving DecidableEq

namespace Decimal

/-- The decimal form of `digits * 10 ^ exponent`: zeros at the end move into the exponent. -/
def normalize (digits : Nat) (exponent : Int) : Decimal :=
  if h : digits = 0 then ⟨0, 0, by simp⟩
  else if h' : digits % 10 = 0 then normalize (digits / 10) (exponent + 1)
  else ⟨digits, exponent, fun e => absurd e h, fun _ => h'⟩
termination_by digits

/-- A decimal **is its own** canonical form. -/
@[simp] theorem normalize_digits_exponent (d : Decimal) : normalize d.digits d.exponent = d := by
  rcases d with ⟨n, e, h⟩
  by_cases hn : n = 0
  · have he : e = 0 := h.1 hn
    subst hn he
    simp [normalize]
  · have hr : n % 10 ≠ 0 := h.2 hn
    simp [normalize, hn, hr]

/-- The exact rational number that a decimal denotes. -/
def toRat (d : Decimal) : Rat := d.digits * (10 : Rat) ^ d.exponent

/-- Where the decimal point stands, counted from the first digit. -/
def point (d : Decimal) : Int := (Nat.toDigits 10 d.digits).length + d.exponent

/-! ### Writing -/

/-- Digits with the point at a fixed place, and at least one digit on either side of it. -/
def positional (digits : List Char) (point : Int) : List Char :=
  if point ≤ 0 then '0' :: '.' :: (List.replicate (-point).toNat '0' ++ digits)
  else
    let whole := digits.take point.toNat
    let fraction := digits.drop point.toNat
    whole ++ List.replicate (point.toNat - digits.length) '0' ++
      '.' :: (if fraction.isEmpty then ['0'] else fraction)

/-- One digit before the point, no point after a single digit, and an exponent that has a sign and
at least two digits. -/
def scientific (digits : List Char) (exponent : Int) : List Char :=
  let power := Nat.toDigits 10 exponent.natAbs
  digits.take 1 ++ (if digits.length ≤ 1 then [] else '.' :: digits.drop 1) ++
    'e' :: (if exponent < 0 then '-' else '+') ::
      (List.replicate (2 - power.length) '0' ++ power)

/-- A decimal as text: positional from `10 ^ (-4)` up to, but not including, `10 ^ 16`, and
scientific elsewhere. -/
def text (d : Decimal) : List Char :=
  let digits := Nat.toDigits 10 d.digits
  if -4 < d.point ∧ d.point ≤ 16 then positional digits d.point
  else scientific digits (d.point - 1)

/-! ### Reading -/

/-- The number that a nonempty list of decimal digits denotes. -/
def readNatural? (ds : List Char) : Option Nat :=
  if ds.isEmpty || !ds.all Char.isDigit then none else some (Nat.ofDigitChars 10 ds 0)

/-- An exponent after the letter `e`: an optional sign and at least one digit. -/
def readExponent? : List Char → Option Int
  | [] => some 0
  | 'e' :: '-' :: ds => (readNatural? ds).map fun n => -(n : Int)
  | 'e' :: '+' :: ds => (readNatural? ds).map Int.ofNat
  | 'e' :: ds => (readNatural? ds).map Int.ofNat
  | _ => none

/-- A decimal from digits with an optional fraction and an optional exponent. -/
def ofText? (cs : List Char) : Option Decimal := do
  let whole := cs.takeWhile Char.isDigit
  let (fraction, rest) := match cs.dropWhile Char.isDigit with
    | '.' :: more => (more.takeWhile Char.isDigit, more.dropWhile Char.isDigit)
    | more => ([], more)
  let exponent ← readExponent? rest
  if whole.isEmpty then none
  else
    some (normalize (Nat.ofDigitChars 10 (whole ++ fraction) 0)
      (exponent - fraction.length))

end Decimal

end CursorParsers
