import CursorParsers.Number.Decimal
import CursorParsers.Number.Nearest

/-!
# Shortest decimals

The decimal with the fewest digits that reads back to a binary64 number, and of several such
decimals the one nearest to it. Seventeen digits are always enough.

## Main definitions

* `floorLog10`: the decimal order of magnitude
* `Decimal.candidates`: the decimals of a given number of digits around a rational number
* `Decimal.shortest`: the shortest decimal that reads back
-/

namespace CursorParsers

/-- The largest `k` with `10 ^ k ≤ q`, for a positive `q`. -/
def floorLog10 (q : Rat) : Int :=
  let k : Int := (Nat.toDigits 10 q.num.natAbs).length - (Nat.toDigits 10 q.den).length
  if (10 : Rat) ^ k ≤ q then k else k - 1

namespace Decimal

/-- The decimals of `n` digits on either side of a rational number, the nearest one first. -/
def candidates (q : Rat) (n : Nat) : List Decimal :=
  let exponent := floorLog10 q + 1 - n
  let scaled := q / (10 : Rat) ^ exponent
  [roundHalfEven scaled, scaled.floor, scaled.floor + 1].map fun m => normalize m.toNat exponent

/-- Whether the binary64 number nearest to a decimal is the given one. -/
def readsBack (q : Rat) (d : Decimal) : Bool := nearestBinary64 d.toRat = .finite q

/-- The first decimal that reads back, trying up to `n` digits from one on. -/
def shortestWithin? (q : Rat) (n : Nat) : Option Decimal :=
  (List.range n).findSome? fun i => (candidates q (i + 1)).find? (readsBack q)

/-- The shortest decimal that reads back to a binary64 number that is not negative. -/
def shortest (q : Rat) : Decimal :=
  (shortestWithin? q 17).getD (normalize (q * (10 : Rat) ^ (17 : Nat)).floor.toNat (-17))

end Decimal

end CursorParsers
