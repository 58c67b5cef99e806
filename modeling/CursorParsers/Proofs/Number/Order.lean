import CursorParsers.Range

/-!
# The order of numbers

Numbers that have a value are ordered by it, and not to be less is then the same as being greater or
equal. Not-a-number is not less than anything either, so it has to be excluded.

## Main results

* `Number.lessEq_iff_less_eq_false`: less or equal is not greater
* `Number.less_of_lt_of_less_eq_false`, `Number.less_eq_false_of_le`, `Number.less_of_le_of_less`:
  integers below one that a bound does not exclude, or that is less than a number
* `Range.zero_within_max`: a maximum is not negative
-/

namespace CursorParsers

namespace Number

/-- For numbers that have a value, **less or equal** is not greater. -/
theorem lessEq_iff_less_eq_false {m n : Number} (hm : m.value?.isSome) (hn : n.value?.isSome) :
    m.lessEq n ↔ n.less m = false := by
  rcases Option.isSome_iff_exists.mp hm with ⟨x, hx⟩
  rcases Option.isSome_iff_exists.mp hn with ⟨y, hy⟩
  simp [lessEq, less, compareWith, hx, hy]

theorem int_lessEq_iff {m : Int} {n : Number} (hn : n.value?.isSome) :
    (int m).lessEq n ↔ n.less (.int m) = false := lessEq_iff_less_eq_false rfl hn

/-- An integer less than one that a bound **does not exclude** is less than the bound. -/
theorem less_of_lt_of_less_eq_false {max : Number} (hmax : max.value?.isSome) {m n : Int}
    (hlt : m < n) (hn : max.less (.int n) = false) : (int m).less max := by
  rcases Option.isSome_iff_exists.mp hmax with ⟨x, hx⟩
  simp only [less, compareWith, hx, value?_int, decide_eq_false_iff_not, decide_eq_true_eq]
    at hn ⊢
  have hmn : Extended.ofInt m < .ofInt n := Extended.ofInt_lt_ofInt.mpr hlt
  rcases Extended.lt_trichotomy (.ofInt n) x with h | h | h
  · exact Extended.lt_trans hmn h
  · exact h ▸ hmn
  · exact absurd h hn

/-- An integer up to one that a bound **does not exclude** is not excluded either. -/
theorem less_eq_false_of_le {max : Number} {m n : Int} (hle : m ≤ n)
    (hn : max.less (.int n) = false) : max.less (.int m) = false := by
  rcases Int.lt_or_eq_of_le hle with hlt | rfl
  · unfold less compareWith at hn ⊢
    cases hx : max.value? with
    | none => rfl
    | some x =>
      simp only [hx, value?_int, decide_eq_false_iff_not] at hn ⊢
      exact fun h => hn (Extended.lt_trans h (Extended.ofInt_lt_ofInt.mpr hlt))
  · exact hn

theorem value?_ne_negInf {max : Number} {n : Int} (hn : max.less (.int n) = false) :
    max.value? ≠ some .negInf := by
  intro hx
  simp [less, compareWith, hx, Extended.ofInt, LT.lt, Extended.lt] at hn

end Number

/-- The **maximum** of a range does not exclude zero. -/
theorem Range.zero_within_max (b : Range) (hmin : b.min.value?.isSome) :
    b.max.less (.int 0) = false := by
  have hneg := b.min_not_negative
  have hle := b.max_not_lessEq
  rcases Option.isSome_iff_exists.mp hmin with ⟨x, hx⟩
  unfold Number.less Number.lessEq Number.compareWith at *
  cases hy : b.max.value? with
  | none => rfl
  | some y =>
    simp only [hx, hy, Number.value?_int, decide_eq_false_iff_not, Bool.not_eq_false',
      decide_eq_true_eq] at hneg hle ⊢
    exact fun h => hneg (Extended.lt_trans hle h)

end CursorParsers
