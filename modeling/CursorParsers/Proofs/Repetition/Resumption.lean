import CursorParsers.Proofs.Repetition.Usage

/-!
# Interrupting a repetition and resuming it

A repetition up to a small maximum can stop for several reasons: a failure, a match that does not
advance, one that overshoots, or the maximum itself. A repetition up to a greater maximum uses the
same matches so far, and then does what a repetition does that starts there and is bounded by what
is left of the greater maximum. So nothing of the reason why the first one has stopped has to be
remembered, not even the match that it has dropped.

## Main definitions

* `Parser.Gathers`: what a repetition without minimum captures, and how much it consumes

## Main results

* `Parser.Uses.resume`: the matches of a repetition that is resumed
* `Parser.range_resumed`: splitting and resuming a repetition
-/

namespace CursorParsers

/-- What is left of a maximum excludes what the maximum itself does, counted from the start. -/
theorem Number.bound_sub_less {M : ℕ∞} {j : ℕ} (hj : j ≤ M) (i : ℕ) :
    (bound (M - j)).less (.int i) = (bound M).less (.int (j + i : ℕ)) := by
  cases M with
  | top => rfl
  | coe n =>
    have hjn : j ≤ n := ENat.natCast_le_natCast.mp hj
    rw [← ENat.natCast_sub, bound_natCast, bound_natCast, less_int, less_int]
    exact decide_eq_decide.mpr (by omega)

namespace Parser

variable {p : Parser} {s : Stream} {c : Int} {ms ms' : List Match} {k i j : ℕ} {M : ℕ∞}
  {t t' : String}

theorem captured_append [Repertoire] (ms ms' : List Match) :
    captured (ms ++ ms') = captured ms ++ captured ms' := by
  rw [captured, List.map_append, String.join_append]
  rfl

/-- A repetition that is **resumed**, with what is left of the maximum, uses the matches that one
uses behind the first. -/
theorem Uses.resume (hp : p.Answers s) (h : p.Successive s (.int c) ms (.int (c + j))) (hj : j ≤ M)
    (h' : p.Uses s (.bound (M - j)) (c + j) ms' i) :
    p.Uses s (.bound M) c (ms ++ ms') (j + i : ℕ) := by
  have hend : c + (j + i : ℕ) = c + j + i := by omega
  refine ⟨?_, ?_, ?_⟩
  · rw [hend]
    exact h.append h'.successive
  · rw [← Number.bound_sub_less hj]
    exact h'.within
  · rw [hend]
    refine (hp.probe_eq_none_iff (Number.isSome_value?_bound M)).mpr fun m n hm hn => ?_
    have hover := (hp.probe_eq_none_iff (Number.isSome_value?_bound (M - j))).mp h'.stops m n hm hn
    -- The match ends behind the second start, at a distance that is greater by `j` from the first.
    obtain ⟨n', hn', hlt⟩ := hp.exists_int hm
    obtain rfl := Value.int_inj.mp (hn.symm.trans hn')
    obtain ⟨l, rfl⟩ : ∃ l : ℕ, n = c + j + l := ⟨(n - (c + j)).toNat, by omega⟩
    rw [add_sub_cancel_left, Number.bound_sub_less hj] at hover
    rwa [show c + j + l - c = (j + l : ℕ) by omega]

/-- What a repetition without minimum captures within a maximum, and how many characters it
consumes. Nothing is captured where nothing is left of the maximum. -/
def Gathers [Repertoire] (p : Parser) (s : Stream) (M : ℕ∞) (c : Int) (captured : String)
    (k : ℕ) : Prop :=
  (M = 0 → captured = "" ∧ k = 0) ∧
    ∀ h : 0 < M, p.Settles (.whole 0 M h) s c (.matched (.text captured) (.int (c + k)))

theorem Uses.gathers [Repertoire] (hp : p.Answers s) (h : p.Uses s (.bound M) c ms k) :
    p.Gathers s M c (captured ms) k := by
  constructor
  · rintro rfl
    have hk : k ≤ 0 := ENat.natCast_le_natCast.mp (Number.bound_less_eq_false_iff.mp h.within)
    have hlength := hp.add_length_le h.successive
    obtain rfl : ms = [] := List.eq_nil_of_length_eq_zero (by omega)
    exact ⟨rfl, Nat.le_zero.mp hk⟩
  · intro hpos
    have hsettles := h.settles hp (m := 0) hpos
    rwa [Reply.repeated_zero] at hsettles

theorem Gathers.eq_of_outcome [Repertoire] (hp : p.Answers s) (hM : M ≠ ⊤) (h : p.Gathers s M c t i)
    (hpos : 0 < M) (hrun : ((p.range (.whole 0 M hpos)).run s (.int c)).outcome =
      .ok (.matched (.text t') (.int (c + j)))) : t = t' ∧ i = j := by
  rw [(hp.settles_iff hM hpos).mp (h.2 hpos)] at hrun
  obtain ⟨htext, hposition⟩ := Reply.matched_inj (Except.ok.inj hrun)
  exact ⟨Value.text.inj htext, by have := Value.int_inj.mp hposition; omega⟩

/-- **Splitting and resuming a repetition.**

A repetition without minimum and up to `k` characters always matches, whatever its parser is. What a
repetition up to a greater maximum captures is what that one has captured, and behind it what a
repetition captures that starts where that one has ended, within what is left of the maximum. So a
greater maximum extends the match and what is captured. A minimum only decides whether the match is
a failure.

If there is no maximum, this supposes that the resumed repetition comes to an end. If there is one,
the answers are those that the repetition gives with its own number of rounds. -/
theorem range_resumed [Repertoire] (hp : p.Answers s) (c : Int) {k : ℕ} (hk : 1 ≤ k) :
    (∀ (m : ℕ) (M : ℕ∞) (hm : m < M) (d : Int) (r : Reply), M ≠ ⊤ →
      (p.Settles (.whole m M hm) s d r ↔
        ((p.range (.whole m M hm)).run s (.int d)).outcome = .ok r)) ∧
    ∃ v₁ j, j ≤ k ∧ p.Gathers s k c v₁ j ∧
      ∀ M : ℕ∞, k ≤ M → (M = ⊤ → ∃ r, p.Settles (.whole 0 ⊤ ENat.top_pos) s (c + j) r) →
        ∃ v₂ i, p.Gathers s (M - j) (c + j) v₂ i ∧ p.Gathers s M c (v₁ ++ v₂) (j + i) ∧
          ∀ (m : ℕ) (hm : m < M),
            p.Settles (.whole m M hm) s c (.repeated m c (j + i) (v₁ ++ v₂)) := by
  refine ⟨fun m M hm d r hM => hp.settles_iff hM hm, ?_⟩
  obtain ⟨ms₁, j, h₁⟩ := hp.exists_uses (ENat.natCast_ne_top k) (Nat.cast_pos.mpr hk) c
  have hjk : (j : ℕ∞) ≤ k := Number.bound_less_eq_false_iff.mp h₁.within
  refine ⟨captured ms₁, j, ENat.natCast_le_natCast.mp hjk, h₁.gathers hp, fun M hkM hend => ?_⟩
  have hjM : (j : ℕ∞) ≤ M := hjk.trans hkM
  obtain ⟨ms₂, i, h₂⟩ : ∃ ms i, p.Uses s (.bound (M - j)) (c + j) ms i := by
    by_cases hM : M = ⊤
    · obtain ⟨r, hr⟩ := hend hM
      rw [hM, ENat.top_sub_natCast]
      exact hr.exists_uses hp
    · rcases eq_zero_or_pos (M - j) with hzero | hpos
      · rw [hzero]
        exact ⟨[], 0, .nil p s (c + j)⟩
      · exact hp.exists_uses (ENat.sub_ne_top_iff.mpr (.inl hM)) hpos (c + j)
  have h := Uses.resume hp h₁.successive hjM h₂
  refine ⟨captured ms₂, i, h₂.gathers hp, ?_⟩
  rw [← captured_append]
  exact ⟨h.gathers hp, fun m hm => h.settles hp hm⟩

/-- The parser that moves by the length of the text: up to three characters it is used once, since a
second match would overshoot. Resumed with what is left of five, it is used once more. -/
theorem range_resumed_whole :
    whole.Answers (.ofText "ab") ∧ whole.Gathers (.ofText "ab") (3 : ℕ) 1 "ab" 2 ∧
      whole.Gathers (.ofText "ab") (3 : ℕ) 3 "ab" 2 ∧
      whole.Gathers (.ofText "ab") (5 : ℕ) 1 "abab" 4 := by
  have hanswers : whole.Answers (.ofText "ab") := fun c => .inr ⟨_, _, run_whole (.int c)⟩
  have honce (c : Int) (hc : c = 1 ∨ c = 3) :
      ((whole.range (.whole 0 (3 : ℕ) (by decide))).run (.ofText "ab") (.int c)).outcome =
        .ok (.matched (.text "ab") (.int (c + (2 : ℕ)))) := by
    rcases hc with rfl | rfl <;> rfl
  obtain ⟨-, v₁, j, -, hfirst, hresumed⟩ := range_resumed hanswers 1 (k := 3) (by decide)
  obtain ⟨rfl, rfl⟩ := hfirst.eq_of_outcome hanswers (ENat.natCast_ne_top 3) _ (honce 1 (.inl rfl))
  obtain ⟨v₂, i, hsecond, hboth, -⟩ := hresumed (5 : ℕ) (by decide) fun h =>
    absurd h (ENat.natCast_ne_top 5)
  obtain ⟨rfl, rfl⟩ := hsecond.eq_of_outcome hanswers (ENat.natCast_ne_top 3) _ (honce 3 (.inr rfl))
  exact ⟨hanswers, hfirst, hsecond, hboth⟩

end Parser

end CursorParsers
