/-!
# Extended rational numbers

The rational numbers together with a least and a greatest element. Integers and floating-point
numbers both take their values here, so that one exact order compares them.

## Main definitions

* `Extended`: minus infinity, a rational number, or plus infinity
* `Extended.lt`: the strict order, as a test
* `Extended.floor?`: the integer part of a finite number

## Main results

* `Extended.lt_trans`, `Extended.lt_trichotomy`: the order is transitive and total
-/

namespace CursorParsers

/-- A rational number, or one of the two infinities. -/
inductive Extended where
  | negInf
  | finite (q : Rat)
  | posInf
  deriving DecidableEq

namespace Extended

/-- An integer as an extended number. -/
def ofInt (n : Int) : Extended := .finite n

/-- The strict order: minus infinity is below everything else, plus infinity above. -/
def lt : Extended → Extended → Bool
  | .negInf, .negInf => false
  | .negInf, _ => true
  | .finite p, .finite q => p < q
  | .finite _, .posInf => true
  | _, _ => false

instance : LT Extended := ⟨fun x y => x.lt y = true⟩

instance (x y : Extended) : Decidable (x < y) := inferInstanceAs (Decidable (x.lt y = true))

theorem finite_lt_finite {p q : Rat} : Extended.finite p < .finite q ↔ p < q := by
  simp [LT.lt, lt]

theorem ofInt_lt_ofInt {m n : Int} : ofInt m < ofInt n ↔ m < n := by
  rw [ofInt, ofInt, finite_lt_finite, Rat.intCast_lt_intCast]

theorem lt_trans {x y z : Extended} (hxy : x < y) (hyz : y < z) : x < z := by
  cases x <;> cases y <;> cases z <;> simp_all [LT.lt, lt]
  case finite.finite.finite p q r =>
    refine Rat.not_le.mp fun hrp => ?_
    exact Rat.not_lt.mpr (Rat.le_trans hrp (Rat.le_of_lt hxy)) hyz

theorem lt_trichotomy (x y : Extended) : x < y ∨ x = y ∨ y < x := by
  cases x <;> cases y <;> simp [LT.lt, lt]
  case finite.finite p q =>
    by_cases h : p < q
    · exact .inl h
    · refine .inr ?_
      by_cases e : p = q
      · exact .inl e
      · exact .inr (Rat.lt_of_le_of_ne (Rat.not_lt.mp h) (Ne.symm e))

/-- The integer part of a finite number, rounded down; the infinities have none. -/
def floor? : Extended → Option Int
  | .finite q => some q.floor
  | _ => none

end Extended

end CursorParsers
