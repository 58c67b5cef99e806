import Mathlib.Data.ENat.Basic
import Mathlib.Data.Rat.Floor
import CursorParsers.Number.Basic

/-!
# Limits

As an upper bound, a number of either kind allows a number of characters below it, which may be
without limit.

## Main definitions

* `Number.limit`: how many natural numbers are below a number
* `Number.IsWhole`: an integer or the positive infinity
* `takeUpTo`: the first elements of a list, up to a number that may be without limit

## Main results

* `Number.less_iff_lt_limit`: a natural number is below a number if it is below its limit
* `takeUpTo_append`: a list that is cut short is cut at the limit
-/

namespace CursorParsers

namespace Number

/-- How many natural numbers are below a number. Nothing is below not-a-number. -/
def limit (n : Number) : ℕ∞ :=
  match n.value? with
  | some (.finite q) => (⌈q⌉₊ : ℕ∞)
  | some .posInf => ⊤
  | _ => 0

@[simp] theorem limit_int (n : Int) : (int n).limit = (n.toNat : ℕ∞) := by
  simp [limit, Extended.ofInt, Nat.ceil_intCast]

@[simp] theorem limit_infinity : infinity.limit = ⊤ := rfl

/-- A natural number is **below** a number if it is below its limit. -/
theorem less_iff_lt_limit {k : ℕ} {n : Number} : (int k).less n ↔ (k : ℕ∞) < n.limit := by
  unfold less compareWith limit
  rw [value?_int]
  cases h : n.value? with
  | none => simp
  | some x =>
    cases x with
    | negInf =>
      have hlt : ¬ Extended.ofInt k < .negInf := Bool.false_ne_true
      simp [hlt]
    | posInf =>
      have hlt : Extended.ofInt k < .posInf := rfl
      simp [hlt]
    | finite q =>
      simp only [Extended.ofInt, Extended.finite_lt_finite, decide_eq_true_eq]
      rw [ENat.natCast_lt_natCast, Nat.lt_ceil]
      norm_cast

/-- An integer or the positive infinity. -/
def IsWhole (n : Number) : Prop := (∃ m, n = .int m) ∨ n = infinity

end Number

/-- The first elements of a list, up to a number of them. -/
def takeUpTo {α : Type} (reach : ℕ∞) (xs : List α) : List α :=
  if reach = ⊤ then xs else xs.take reach.toNat

variable {α : Type}

@[simp] theorem takeUpTo_top (xs : List α) : takeUpTo ⊤ xs = xs := if_pos rfl

@[simp] theorem takeUpTo_natCast (n : ℕ) (xs : List α) : takeUpTo n xs = xs.take n := by
  rw [takeUpTo, if_neg (ENat.natCast_ne_top n), ENat.toNat_natCast]

theorem takeUpTo_eq_self {reach : ℕ∞} {xs : List α} (h : (xs.length : ℕ∞) ≤ reach) :
    takeUpTo reach xs = xs := by
  cases reach with
  | top => exact takeUpTo_top xs
  | coe n =>
    rw [takeUpTo_natCast]
    exact List.take_of_length_le (ENat.natCast_le_natCast.mp h)

/-- A list is cut **at the limit**, unless it is shorter. -/
theorem takeUpTo_append (reach : ℕ∞) (xs : List α) :
    ∃ ys, takeUpTo reach xs ++ ys = xs ∧ ((takeUpTo reach xs).length : ℕ∞) ≤ reach ∧
      (ys = [] ∨ ((takeUpTo reach xs).length : ℕ∞) = reach) := by
  cases reach with
  | top => exact ⟨[], by simp, le_top, .inl rfl⟩
  | coe n =>
    refine ⟨xs.drop n, by simp, ?_, ?_⟩
    · rw [takeUpTo_natCast, ENat.natCast_le_natCast]
      exact List.length_take_le n xs
    · rcases Nat.lt_or_ge n xs.length with h | h
      · right
        rw [takeUpTo_natCast, List.length_take_of_le (Nat.le_of_lt h)]
      · exact .inl (List.drop_eq_nil_of_le h)

end CursorParsers
