import CursorParsers.Number.Extended

/-!
# Rounding to binary64

The binary64 number nearest to a rational number: 53 binary digits, ties to even, and infinity above
the largest finite one.

## Main definitions

* `roundHalfEven`: the nearest integer
* `floorLog2`: the binary order of magnitude
* `nearestBinary64`: the nearest binary64 number
-/

namespace CursorParsers

/-- The nearest integer; of two equally near ones the even one. -/
def roundHalfEven (q : Rat) : Int :=
  let low := q.floor
  let rest := q - low
  if rest < 1 / 2 ∨ (rest = 1 / 2 ∧ low % 2 = 0) then low else low + 1

/-- The largest `k` with `2 ^ k ≤ q`, for a positive `q`. -/
def floorLog2 (q : Rat) : Int :=
  let k : Int := q.num.natAbs.log2 - q.den.log2
  if (2 : Rat) ^ k ≤ q then k else k - 1

/-- The binary64 number nearest to a rational number that is not negative: 53 binary digits,
none below `2 ^ (-1074)`, and infinity from `2 ^ 1024` on. -/
def nearestBinary64 (q : Rat) : Extended :=
  if q = 0 then .finite 0
  else
    let unit : Rat := 2 ^ max (floorLog2 q - 52) (-1074)
    let rounded := roundHalfEven (q / unit) * unit
    if rounded < (2 : Rat) ^ (1024 : Int) then .finite rounded else .posInf

end CursorParsers
