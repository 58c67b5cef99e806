import CursorParsers.Proofs.Repetition.Strides

/-!
# Repetitions of bounded repetitions

A bounded repetition of a primitive that reads one character takes a run of accepted characters in
chunks, and an outer repetition takes these one after another. The chunks are of the greatest size
that the bound allows, until what is left of the run is less than that. What is left makes up a last
chunk, unless it is less than the inner minimum. A chunk that overshoots the outer maximum is
dropped as a whole, and is not cut to what would fit.

## Main definitions

* `chunked`: how much of a run is taken in chunks

## Main results

* `Primitive.outcome_chunk`: one chunk, from wherever it starts
* `Primitive.exists_uses_of_chunks`: the chunks that the outer repetition uses
* `Primitive.range_range_of_test`: what the two repetitions answer
-/

namespace CursorParsers

/-- How many characters of a run are taken in chunks of at most `b` and at least `a` characters,
within a maximum. If the whole run is within the maximum, only a last chunk can be missing that is
too small. -/
def chunked (a b run : ℕ) (M : ℕ∞) : ℕ :=
  if (run : ℕ∞) ≤ M then b * (run / b) + if a ≤ run % b then run % b else 0
  else b * (M.toNat / b)

section Chunked

variable {a b N run : ℕ}

theorem chunked_top (ha : a ≤ 1) (b run : ℕ) : chunked a b run ⊤ = run := by
  have hdiv : b * (run / b) + run % b = run := Nat.div_add_mod run b
  rw [chunked, if_pos le_top]
  split
  · exact hdiv
  · omega

/-- A run as long as the maximum is taken whole if its last chunk is not too small. -/
theorem chunked_self (h : a ≤ N % b) : chunked a b N N = N := by
  rw [chunked, if_pos le_rfl, if_pos h]
  exact Nat.div_add_mod N b

/-- If the maximum is no multiple of the size of the chunks, of a longer run less is taken. -/
theorem chunked_lt (h : N % b ≠ 0) (hlt : N < run) : chunked a b run N < N := by
  have hdiv : b * (N / b) + N % b = N := Nat.div_add_mod N b
  rw [chunked, if_neg (not_le.mpr (ENat.natCast_lt_natCast.mpr hlt)), ENat.toNat_natCast]
  omega

end Chunked

namespace Parser

variable {p : Parser} {s : Stream} {c d : Int} {a k : ℕ} {t : String} {mt : Match}

/-- A repetition that answers with some characters advances if they are neither none nor fewer
than the minimum. -/
theorem advances_iff_of_repeated (h : (p.run s (.int d)).outcome = .ok (.repeated a d k t)) :
    p.Advances s (.int d) mt ↔ a ≤ k ∧ 0 < k ∧ mt = ⟨.text t, .int (d + k)⟩ := by
  by_cases hk : k < a
  · rw [Reply.repeated, if_pos hk] at h
    exact iff_of_false (fun hm => hm.outcome_ne_err h) fun hm => absurd hm.1 (not_le.mpr hk)
  · rw [Reply.repeated, if_neg hk] at h
    constructor
    · intro hm
      obtain ⟨hmt, hlt⟩ := hm.eq_of_matched h
      exact ⟨not_lt.mp hk, by omega, hmt⟩
    · rintro ⟨-, hpos, rfl⟩
      exact Answers.advances_of_matched h (by omega)

theorem Keeps.range_captures [Repertoire] (hp : p.Keeps (fun _ => False) Captures) (b : Range) :
    (p.range b).Keeps (fun _ => False) Captures :=
  hp.range b fun _ _ _ _ path => .inr (by rw [path.captured_eq_slice])

end Parser

namespace Primitive

variable {p : Primitive} {test : Char → Bool} {s : Stream} {c d : Int} {a b j m n : ℕ} {M : ℕ∞}

/-- The repetition that takes one chunk. -/
def chunk [Repertoire] (p : Primitive) (hab : a < b) : Parser :=
  p.parser.range (.whole a b (ENat.natCast_lt_natCast.mpr hab))

/-- A chunk takes **what is left of the run**, up to its size. -/
theorem outcome_chunk [Repertoire] (hp : p.test? = some test) (hab : a < b) (s : Stream) (d : Int) :
    ∃ t, ((p.chunk hab).run s (.int d)).outcome =
      .ok (.repeated a d (min (p.streak (s.ahead d)) b) t) := by
  obtain ⟨ms, h⟩ := exists_uses_of_width (width?_of_test hp) b s d
  rw [fitting_natCast, Nat.div_one, Nat.one_mul] at h
  exact ⟨_, (p.keeps_captures fun _ => False).outcome_whole_of_uses h _⟩

theorem keeps_captures_chunk [Repertoire] (p : Primitive) (hab : a < b) :
    (p.chunk hab).Keeps (fun _ => False) Captures :=
  (p.keeps_captures _).range_captures _

/-- Within the run, so much less of it is left. -/
theorem streak_ahead (hp : p.test? = some test) (hj : j ≤ p.streak (s.ahead c)) :
    p.streak (s.ahead (c + j)) = p.streak (s.ahead c) - j := by
  have h := streak_ahead_add (width?_of_test hp) Nat.one_pos hj
  rwa [Nat.one_mul] at h

/-- Full chunks follow one another for as long as the run has room for them. -/
theorem exists_full_chunks [Repertoire] (hp : p.test? = some test) (hab : a < b)
    (hn : b * n ≤ p.streak (s.ahead c)) :
    ∃ ms, (p.chunk hab).Successive s (.int c) ms (.int (c + (b * n : ℕ))) := by
  refine Parser.exists_successive_of_strides fun i hi => ?_
  have hsucc : b * (i + 1) ≤ p.streak (s.ahead c) := (Nat.mul_le_mul_left b hi).trans hn
  rw [Nat.mul_succ] at hsucc ⊢
  obtain ⟨t, ht⟩ := outcome_chunk hp hab s (c + (b * i : ℕ))
  rw [streak_ahead hp (by omega), min_eq_right (by omega)] at ht
  rw [Nat.cast_add, ← add_assoc]
  exact ⟨_, (Parser.advances_iff_of_repeated ht).mpr ⟨hab.le, by omega, rfl⟩⟩

/-- Within the run the outer repetition stops if the next chunk is too small, or none, or
overshoots the maximum. -/
theorem probe_chunk_eq_none [Repertoire] (hp : p.test? = some test) (hab : a < b)
    (hj : j ≤ p.streak (s.ahead c))
    (h : a ≤ min (p.streak (s.ahead c) - j) b → 0 < min (p.streak (s.ahead c) - j) b →
      M < (j + min (p.streak (s.ahead c) - j) b : ℕ)) :
    ((p.chunk hab).probe s (.bound M) (.int c) (.int (c + j))).outcome = .ok none := by
  have hanswers := (p.keeps_captures_chunk hab).answers s
  refine (hanswers.probe_eq_none_iff (Number.isSome_value?_bound M)).mpr fun mt d hm hd => ?_
  obtain ⟨t, ht⟩ := outcome_chunk hp hab s (c + j)
  rw [streak_ahead hp hj] at ht
  obtain ⟨ha, hpos, rfl⟩ := (Parser.advances_iff_of_repeated ht).mp hm
  obtain rfl := Value.int_inj.mp hd
  rw [add_assoc, add_sub_cancel_left, ← Nat.cast_add, Number.bound_less_iff]
  exact h ha hpos

/-- A last chunk that is not too small takes what is left of the run. -/
theorem exists_last_chunk [Repertoire] (hp : p.test? = some test) (hab : a < b)
    (ha : a ≤ p.streak (s.ahead c) % b) :
    ∃ ms, (p.chunk hab).Successive s (.int c) ms (.int (c + p.streak (s.ahead c))) := by
  generalize hR : p.streak (s.ahead c) = R at ha
  have hdiv : b * (R / b) + R % b = R := Nat.div_add_mod R b
  have hmod : R % b < b := Nat.mod_lt R (by omega)
  obtain ⟨ms, hms⟩ := exists_full_chunks (s := s) (c := c) (n := R / b) hp hab (by omega)
  rcases Nat.eq_zero_or_pos (R % b) with hzero | hpos
  · rw [hzero, Nat.add_zero] at hdiv
    rw [hdiv] at hms
    exact ⟨ms, hms⟩
  · obtain ⟨t, ht⟩ := outcome_chunk hp hab s (c + (b * (R / b) : ℕ))
    rw [streak_ahead hp (by omega), hR, show min (R - b * (R / b)) b = R % b by omega] at ht
    have hlast := (Parser.advances_iff_of_repeated ht).mpr ⟨ha, hpos, rfl⟩
    rw [add_assoc, ← Nat.cast_add, hdiv] at hlast
    exact ⟨_, hms.append (.cons hlast (.nil _))⟩

/-- The chunks that the outer repetition **uses**: as many full ones as are within the maximum, and
the last one if all of the run is. -/
theorem exists_uses_of_chunks [Repertoire] (hp : p.test? = some test) (hab : a < b) (M : ℕ∞)
    (s : Stream) (c : Int) :
    ∃ ms, (p.chunk hab).Uses s (.bound M) c ms (chunked a b (p.streak (s.ahead c)) M) := by
  generalize hR : p.streak (s.ahead c) = R
  have hdiv : b * (R / b) + R % b = R := Nat.div_add_mod R b
  have hmod : R % b < b := Nat.mod_lt R (by omega)
  by_cases hM : (R : ℕ∞) ≤ M
  case pos =>
    rw [chunked, if_pos hM]
    have hwithin {j : ℕ} (hj : j ≤ R) : (Number.bound M).less (.int j) = false :=
      Number.bound_less_eq_false_iff.mpr ((ENat.natCast_le_natCast.mpr hj).trans hM)
    by_cases ha : a ≤ R % b
    · rw [if_pos ha, hdiv]
      obtain ⟨ms, hms⟩ := exists_last_chunk hp hab (hR.symm ▸ ha)
      rw [hR] at hms
      exact ⟨ms, hms, hwithin le_rfl, probe_chunk_eq_none hp hab hR.ge (by omega)⟩
    · rw [if_neg ha, Nat.add_zero]
      obtain ⟨ms, hms⟩ := exists_full_chunks (s := s) (c := c) (n := R / b) hp hab (by omega)
      exact ⟨ms, hms, hwithin (by omega), probe_chunk_eq_none hp hab (by omega) (by omega)⟩
  case neg =>
    rw [chunked, if_neg hM]
    lift M to ℕ using fun htop => hM (htop ▸ le_top)
    rw [ENat.toNat_natCast]
    have hMR : M < R := by simpa using hM
    have hle : b * (M / b) ≤ M := Nat.mul_div_le M b
    have hlt : M < b * (M / b) + b := Nat.lt_mul_div_succ M (by omega)
    obtain ⟨ms, hms⟩ := exists_full_chunks (s := s) (c := c) (n := M / b) hp hab (by omega)
    refine ⟨ms, hms, ?_, probe_chunk_eq_none hp hab (by omega) fun _ _ => ?_⟩
    · exact Number.bound_less_eq_false_iff.mpr (ENat.natCast_le_natCast.mpr hle)
    -- Both a full chunk and the rest of the run overshoot the maximum.
    · rw [ENat.natCast_lt_natCast]
      omega

/-- **Nested bounded repetition in closed form.**

The characters of a run are taken in chunks, from wherever it starts. Of a run within the outer
maximum only a last chunk that is less than the inner minimum is left. Of a longer run as many full
chunks are taken as fit. Below the first position and past the end the run is empty.

If chunks may be of any size and there is no outer maximum, the whole run is taken. But an outer
maximum that is no multiple of the size of a chunk takes less of a longer run than of the run that
just reaches it. -/
theorem range_range_of_test [Repertoire] (hp : p.test? = some test) (hab : a < b) (hm : m < M)
    (s : Stream) (c : Int) :
    (((p.parser.range (.whole a b (ENat.natCast_lt_natCast.mpr hab))).range (.whole m M hm)).run s
        (.int c)).outcome =
      .ok (.repeated m c (chunked a b (p.streak (s.ahead c)) M)
        (.ofList (s.slice c (c + (chunked a b (p.streak (s.ahead c)) M : ℕ))))) ∧
    (a ≤ 1 → ∀ run : ℕ, chunked a b run ⊤ = run) ∧
    ∀ N : ℕ, N % b ≠ 0 → a ≤ N % b →
      chunked a b N N = N ∧ ∀ run, N < run → chunked a b run N < N := by
  refine ⟨?_, fun ha => chunked_top ha b, fun N hN ha => ⟨chunked_self ha, fun _ => chunked_lt hN⟩⟩
  obtain ⟨ms, h⟩ := exists_uses_of_chunks hp hab M s c
  exact (p.keeps_captures_chunk hab).outcome_whole_of_uses h hm

/-- Chunks of at most two characters within a maximum of three: three characters are taken, but of
four characters only two. -/
theorem range_range_of_test_pairs :
    anyChar.test? = some (fun _ => true) ∧
      (((anyChar.parser.range (.whole 1 (2 : ℕ) (by decide))).range
        (.whole 0 (3 : ℕ) (by decide))).run (.ofText "abc") (.int 1)).outcome =
          .ok (.matched (.text "abc") (.int 4)) ∧
      (((anyChar.parser.range (.whole 1 (2 : ℕ) (by decide))).range
        (.whole 0 (3 : ℕ) (by decide))).run (.ofText "abcd") (.int 1)).outcome =
          .ok (.matched (.text "ab") (.int 3)) :=
  ⟨rfl, (range_range_of_test rfl (by decide) (by decide) (.ofText "abc") 1).1.trans rfl,
    (range_range_of_test rfl (by decide) (by decide) (.ofText "abcd") 1).1.trans rfl⟩

end Primitive

end CursorParsers
