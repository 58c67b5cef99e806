import CursorParsers.Number.Basic

/-!
# Ranges

A range bounds a repetition, in characters consumed. Both bounds are numbers of either kind. Bounds
that the order excludes cannot be put into a range; not-a-number is excluded by no comparison, so it
can be either bound.

## Main definitions

* `Range`: bounds that are not excluded
* `Range.Invalid`: which exclusion a pair of bounds meets
* `Range.build`: a range from its bounds, or the first exclusion

## Main results

* `Range.build_eq_ok_iff`: building gives the range that has the bounds
-/

namespace CursorParsers

/-- Bounds of a repetition: the least number of characters is not negative, and the greatest is
not equal to it or less. -/
structure Range where
  min : Number
  max : Number
  min_not_negative : min.less (.int 0) = false
  max_not_lessEq : max.lessEq min = false
  deriving DecidableEq

namespace Range

/-- Why a pair of bounds makes no range. -/
inductive Invalid where
  | negativeMinimum (min : Number)
  | maximumTooSmall (min max : Number)
  deriving DecidableEq

/-- The reason as text. -/
def Invalid.message : Invalid → String
  | .negativeMinimum min => "Range minimum must be non-negative, got " ++ min.text
  | .maximumTooSmall min max =>
    "Range maximum (" ++ max.text ++ ") must be greater than minimum (" ++ min.text ++ ")"

/-- The range with these bounds. A negative minimum is noticed before a maximum that is too
small. -/
def build (min max : Number) : Except Invalid Range :=
  if h : min.less (.int 0) then .error (.negativeMinimum min)
  else if h' : max.lessEq min then .error (.maximumTooSmall min max)
  else .ok ⟨min, max, by simpa using h, by simpa using h'⟩

theorem build_eq_ok_iff {min max : Number} {b : Range} :
    build min max = .ok b ↔ b.min = min ∧ b.max = max := by
  unfold build
  constructor
  · intro h
    split at h
    · cases h
    · split at h
      · cases h
      · cases h
        exact ⟨rfl, rfl⟩
  · rintro ⟨rfl, rfl⟩
    rw [dif_neg (by simp [b.min_not_negative]), dif_neg (by simp [b.max_not_lessEq])]

/-- The range with no upper bound. -/
def atLeast (min : Number) : Except Invalid Range := build min .infinity

end Range

end CursorParsers
