import CursorParsers.Proofs.Primitive.Streak
import CursorParsers.Proofs.Repetition.Usage

/-!
# Repetitions of matches of one width

Where every match consumes the same number of characters, a repetition takes as many of them as
there are in a row, or as many as fit within the maximum. Bounds count characters, so a maximum that
is no multiple of the width is not reached.

## Main definitions

* `fitting`: how many pieces of a width fit within a maximum

## Main results

* `Parser.exists_successive_of_strides`: successive matches of one width
* `Primitive.exists_uses_of_width`: the matches that a repetition of such a primitive uses
* `Primitive.range_of_width`: its answer in closed form
-/

namespace CursorParsers

/-- How many of some pieces of a width fit within a maximum. -/
def fitting (w k : ℕ) : ℕ∞ → ℕ
  | ⊤ => k
  | (M : ℕ) => min k (M / w)

section Fitting

variable {w k : ℕ} {M : ℕ∞}

theorem fitting_top (w k : ℕ) : fitting w k ⊤ = k := rfl

theorem fitting_natCast (w k n : ℕ) : fitting w k n = min k (n / w) := rfl

theorem fitting_le (w k : ℕ) (M : ℕ∞) : fitting w k M ≤ k := by
  cases M with
  | top => exact le_rfl
  | coe n => exact min_le_left k (n / w)

theorem mul_fitting_le (w k : ℕ) (M : ℕ∞) : ((w * fitting w k M : ℕ) : ℕ∞) ≤ M := by
  cases M with
  | top => exact le_top
  | coe n =>
    exact ENat.natCast_le_natCast.mpr
      ((Nat.mul_le_mul_left w (min_le_right k (n / w))).trans (Nat.mul_div_le n w))

theorem lt_mul_fitting_succ (hw : 0 < w) (h : fitting w k M < k) :
    M < ((w * (fitting w k M + 1) : ℕ) : ℕ∞) := by
  cases M with
  | top => exact absurd h (lt_irrefl k)
  | coe n =>
    have hdiv : fitting w k n = n / w := (min_lt_iff.mp h).elim (absurd · (lt_irrefl k)) fun hlt =>
      min_eq_right hlt.le
    rw [hdiv, ENat.natCast_lt_natCast]
    exact Nat.lt_mul_div_succ n hw

end Fitting

namespace Parser

variable {p : Parser} {s : Stream} {c : Int} {w n : ℕ}

/-- Matches **of one width**, each where the one before has ended. -/
theorem exists_successive_of_strides
    (h : ∀ i < n, ∃ v, p.Advances s (.int (c + (w * i : ℕ))) ⟨v, .int (c + (w * (i + 1) : ℕ))⟩) :
    ∃ ms, p.Successive s (.int c) ms (.int (c + (w * n : ℕ))) := by
  induction n with
  | zero =>
    rw [Nat.mul_zero, Nat.cast_zero, add_zero]
    exact ⟨[], .nil _⟩
  | succ n ih =>
    obtain ⟨ms, hms⟩ := ih fun i hi => h i (Nat.lt_succ_of_lt hi)
    obtain ⟨v, hv⟩ := h n (Nat.lt_succ_self n)
    exact ⟨_, hms.append (.cons hv (.nil _))⟩

end Parser

namespace Primitive

variable {p : Primitive} {s : Stream} {c d : Int} {w m : ℕ} {M : ℕ∞} {mt : Match}

theorem one_le_of_fits (hw : p.width? = some w) (hpos : 0 < w) (h : p.Fits (s.ahead d)) :
    1 ≤ d := by
  obtain ⟨v, k, hconsume⟩ := h
  obtain rfl := eq_width_of_consume hw hconsume
  by_contra hd
  rw [Stream.ahead_of_nonpos (by omega)] at hconsume
  exact absurd (consume_captures hconsume).1 (not_le.mpr hpos)

/-- Where a primitive with a width fits what is ahead, it advances by its width. -/
theorem exists_advances_of_fits (hw : p.width? = some w) (hpos : 0 < w) (h : p.Fits (s.ahead d)) :
    ∃ v, p.parser.Advances s (.int d) ⟨v, .int (d + w)⟩ := by
  have hd := one_le_of_fits hw hpos h
  obtain ⟨v, k, hconsume⟩ := h
  obtain rfl := eq_width_of_consume hw hconsume
  rw [Stream.ahead_of_le hd] at hconsume
  exact ⟨v, Parser.Answers.advances_of_matched
    (congrArg Run.outcome (run_of_consume_ok hd hconsume)) (by omega)⟩

/-- Where a primitive with a width advances, it fits what is ahead and advances by its width. -/
theorem fits_of_advances (hw : p.width? = some w) (h : p.parser.Advances s (.int d) mt) :
    0 < w ∧ p.Fits (s.ahead d) ∧ mt.next = .int (d + w) := by
  by_cases hd : 1 ≤ d
  · rw [Stream.ahead_of_le hd]
    cases hconsume : p.consume (s.rest d) with
    | error failure =>
      have hrun := congrArg Run.outcome (run_of_consume_error hd hconsume)
      exact absurd hrun h.outcome_ne_err
    | ok found =>
      obtain ⟨v, k⟩ := found
      obtain rfl := eq_width_of_consume hw hconsume
      have hrun := congrArg Run.outcome (run_of_consume_ok hd hconsume)
      obtain ⟨rfl, hlt⟩ := h.eq_of_matched hrun
      exact ⟨by omega, ⟨v, k, hconsume⟩, rfl⟩
  -- Below the first position nothing is matched but the empty literal, which stays there.
  · obtain ⟨failure, hread⟩ | ⟨v, hread, -⟩ := p.read_of_nonpos s (c := d) (by omega)
    · exact absurd (congrArg Run.outcome (run_parser_of_read hread)) h.outcome_ne_err
    · obtain ⟨-, hlt⟩ := h.eq_of_matched (congrArg Run.outcome (run_parser_of_read hread))
      exact absurd hlt (lt_irrefl d)

/-- Behind some matches of a streak, so many fewer are ahead. -/
theorem streak_ahead_add (hw : p.width? = some w) (hpos : 0 < w) {i : ℕ}
    (hi : i ≤ p.streak (s.ahead c)) :
    p.streak (s.ahead (c + (w * i : ℕ))) = p.streak (s.ahead c) - i := by
  rw [Stream.ahead_add, streak_drop hw hpos hi]
  rcases Nat.eq_zero_or_pos i with rfl | hi'
  · exact .inr (Nat.mul_zero w)
  · exact .inl (one_le_of_fits hw hpos ((fits_iff hw hpos).mpr (hi'.trans_le hi)))

/-- The matches that a repetition of a primitive with a width **uses**: as many as there are in a
row, or as many as fit within the maximum. -/
theorem exists_uses_of_width (hw : p.width? = some w) (M : ℕ∞) (s : Stream) (c : Int) :
    ∃ ms, p.parser.Uses s (.bound M) c ms (w * fitting w (p.streak (s.ahead c)) M) := by
  have hanswers := (p.keeps_captures fun _ => False).answers s
  have hmax := Number.isSome_value?_bound M
  rcases Nat.eq_zero_or_pos w with rfl | hpos
  · rw [Nat.zero_mul]
    refine ⟨[], ⟨?_, Number.bound_less_eq_false_iff.mpr bot_le, ?_⟩⟩
    · rw [Nat.cast_zero, add_zero]
      exact .nil _
    · refine (hanswers.probe_eq_none_iff hmax).mpr fun m d hm hd => ?_
      exact absurd (fits_of_advances hw hm).1 (lt_irrefl 0)
  generalize hn : fitting w (p.streak (s.ahead c)) M = n
  have hnk : n ≤ p.streak (s.ahead c) := hn ▸ fitting_le w _ M
  have hstrides (i : ℕ) (hi : i < n) :
      ∃ v, p.parser.Advances s (.int (c + (w * i : ℕ))) ⟨v, .int (c + (w * (i + 1) : ℕ))⟩ := by
    have hfits : p.Fits (s.ahead (c + (w * i : ℕ))) := by
      rw [fits_iff hw hpos, streak_ahead_add hw hpos (hi.le.trans hnk)]
      omega
    obtain ⟨v, hv⟩ := exists_advances_of_fits hw hpos hfits
    rw [add_assoc, ← Nat.cast_add, ← Nat.mul_succ] at hv
    exact ⟨v, hv⟩
  obtain ⟨ms, hms⟩ := Parser.exists_successive_of_strides hstrides
  refine ⟨ms, hms, Number.bound_less_eq_false_iff.mpr (hn ▸ mul_fitting_le w _ M), ?_⟩
  -- A match behind these is one of the streak still, and does not fit within the maximum.
  refine (hanswers.probe_eq_none_iff hmax).mpr fun m d hm hd => ?_
  obtain ⟨-, hfits, hnext⟩ := fits_of_advances hw hm
  rw [fits_iff hw hpos, streak_ahead_add hw hpos hnk] at hfits
  obtain rfl := Value.int_inj.mp (hd.symm.trans hnext)
  rw [add_assoc, add_sub_cancel_left, ← Nat.cast_add, ← Nat.mul_succ, Number.bound_less_iff, ← hn]
  exact lt_mul_fitting_succ hpos (by omega)

/-- **Repetitions of fixed width in closed form.**

A repetition of a primitive that reads one character, or of a literal, consumes as many pieces of
its width as it finds in a row: the longest run of accepted characters, or the copies of the literal
one behind another. If these are too many for the maximum, it consumes as many pieces as fit. Below
the first position and past the end nothing is found. What is consumed is captured, unless it is
less than the minimum. -/
theorem range_of_width [Repertoire] (hw : p.width? = some w) (hm : m < M) (s : Stream) (c : Int) :
    ((p.parser.range (.whole m M hm)).run s (.int c)).outcome =
      .ok (.repeated m c (w * fitting w (p.streak (s.ahead c)) M)
        (.ofList (s.slice c (c + (w * fitting w (p.streak (s.ahead c)) M : ℕ))))) := by
  obtain ⟨ms, h⟩ := exists_uses_of_width hw M s c
  exact (p.keeps_captures fun _ => False).outcome_whole_of_uses h hm

/-- Three copies of a literal in a row, of which a maximum of five characters lets two through. -/
theorem range_of_width_copies :
    (literal "ab").width? = some 2 ∧
      (((literal "ab").parser.range (.whole 1 (5 : ℕ) (by decide))).run (.ofText "xabababa")
        (.int 2)).outcome = .ok (.matched (.text "abab") (.int 6)) :=
  ⟨rfl, (range_of_width (p := literal "ab") rfl (by decide) (.ofText "xabababa") 2).trans rfl⟩

end Primitive

end CursorParsers
