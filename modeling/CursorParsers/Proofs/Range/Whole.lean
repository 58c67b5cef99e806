import CursorParsers.Range
import Mathlib.Data.ENat.Basic

/-!
# Ranges with whole bounds

Where characters are counted, a range is mostly given by whole numbers: a minimum, and a maximum
that may be missing. Any minimum below the maximum makes such a range, and nothing else about
numbers has to be known of it.

## Main definitions

* `Number.bound`: a whole number as a bound, or the bound that nothing reaches
* `Range.whole`: the range between two whole numbers

## Main results

* `Range.build_whole`: building from these bounds gives that range
* `Number.bound_less_eq_false_iff`: which numbers of characters a whole maximum does not exclude
-/

namespace CursorParsers

namespace Number

/-- A whole number as a bound. The bound above all of them is the positive infinity. -/
def bound : ℕ∞ → Number
  | ⊤ => .infinity
  | (n : ℕ) => .int n

@[simp] theorem bound_top : bound ⊤ = .infinity := rfl

@[simp] theorem bound_natCast (n : ℕ) : bound n = .int n := rfl

theorem isSome_value?_bound (M : ℕ∞) : (bound M).value?.isSome := by
  cases M with
  | top => rfl
  | coe n => rfl

theorem value?_bound_ne_posInf {M : ℕ∞} (hM : M ≠ ⊤) : (bound M).value? ≠ some .posInf := by
  cases M with
  | top => exact absurd rfl hM
  | coe n => exact fun h => by cases Option.some.inj h

/-- A whole maximum **does not exclude** the numbers of characters up to it. -/
theorem bound_less_eq_false_iff {M : ℕ∞} {n : ℕ} :
    (bound M).less (.int n) = false ↔ (n : ℕ∞) ≤ M := by
  cases M with
  | top => exact iff_of_true rfl le_top
  | coe k =>
    rw [bound_natCast, less_int, decide_eq_false_iff_not, ENat.natCast_le_natCast]
    omega

theorem bound_less_iff {M : ℕ∞} {n : ℕ} : (bound M).less (.int n) ↔ M < n := by
  rw [← not_le, ← bound_less_eq_false_iff, Bool.not_eq_false]

end Number

namespace Range

variable {m : ℕ} {M : ℕ∞}

/-- The range between two whole numbers, of which the second may be missing. -/
def whole (m : ℕ) (M : ℕ∞) (h : m < M) : Range where
  min := .int m
  max := .bound M
  min_not_negative := by
    rw [Number.less_int, decide_eq_false_iff_not]
    omega
  max_not_lessEq := by
    cases M with
    | top => rfl
    | coe n =>
      have hlt : m < n := ENat.natCast_lt_natCast.mp h
      rw [Number.bound_natCast, Number.lessEq_int, decide_eq_false_iff_not]
      omega

@[simp] theorem min_whole (h : m < M) : (whole m M h).min = .int m := rfl

@[simp] theorem max_whole (h : m < M) : (whole m M h).max = .bound M := rfl

theorem build_whole (h : m < M) : build (.int m) (.bound M) = .ok (whole m M h) :=
  build_eq_ok_iff.mpr ⟨rfl, rfl⟩

end Range

end CursorParsers
