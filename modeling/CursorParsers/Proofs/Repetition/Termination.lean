import CursorParsers.Parser.Scripted
import CursorParsers.Proofs.Chain.Progress
import CursorParsers.Proofs.Number.Limit
import CursorParsers.Proofs.Repetition.Advancing
import CursorParsers.Proofs.Repetition.Invocations

/-!
# Termination of repetitions

Two things bring a repetition to an end. A chain does not leave the text, so no more of its matches
can advance than there are characters left. A parse function that is given from outside need not
keep to the text, but each match that is used consumes at least one character, so a finite maximum
allows only so many. With neither, a repetition goes on as long as matches advance.

## Main definitions

* `Parser.withRounds`: a parser whose repetitions are given a number of rounds

## Main results

* `Parser.Keeps.invocations_le`, `Parser.Returns.invocations_le`: how many times a repetition runs
  its parser
* `Parser.repetition_finishes`: when a repetition finishes, and after how many invocations
-/

namespace CursorParsers.Parser

variable {p : Parser} {s : Stream} {max : Number} {start position : Value} {m : Match}

/-! ### Parsers that do not leave the text -/

/-- Every invocation but the last **takes a character** of those that are left. -/
theorem Keeps.invocations_le [Repertoire] {E : Fault → Prop} {Q : Condition} (hp : p.Keeps E Q)
    (b : Range) (s : Stream) (c : Int) : p.invocations b s (.int c) ≤ s.remaining c + 1 := by
  rw [invocations_eq]
  refine length_records_advances_le (I := fun n v => ∃ d, v = .int d ∧ s.remaining d + 1 ≤ n)
    ?_ ⟨c, rfl, le_rfl⟩ _
  rintro n _ ⟨d, rfl, hn⟩
  have hone := length_records_probe_tallied_le p s b.max (.int c) (.int d)
  refine ⟨by omega, fun m hm => ?_⟩
  have hprobe : (p.tallied.probe s b.max (.int c) (.int d)).Ensures E _ :=
    probe_ensures b.max (hp.tallied.ensures s d)
  have hends := hprobe.ends
  rw [hm] at hends
  obtain ⟨v, e, rfl, hq, hlt⟩ := hends m rfl
  have hleft := hq.1.remaining_lt hlt
  exact ⟨s.remaining e + 1, ⟨e, rfl, le_rfl⟩, by omega⟩

/-! ### A finite maximum -/

theorem le_floor_of_less_eq_false {q : ℚ} (hmax : max.value? = some (.finite q)) {d : ℕ}
    (h : max.less (.int d) = false) : (d : Int) ≤ q.floor := by
  simp only [Number.less, Number.compareWith, hmax, Number.value?_int, Extended.ofInt,
    Extended.finite_lt_finite, decide_eq_false_iff_not, not_lt] at h
  exact Rat.le_floor_iff.mpr h

/-- With a finite maximum, as many rounds as characters that it allows suffice. -/
theorem Returns.advances_finishes (hp : p.Returns) {i : Int} (hi : start.CountsAs i) {q : ℚ}
    (hmax : max.value? = some (.finite q)) {d k : ℕ} (hd : position.CountsAs (i + d))
    (hk : q.floor ≤ d + k) : (p.advances s max start k position).Finishes := by
  induction k generalizing position d with
  | zero =>
    refine (hp.probe_finishes hd).bind fun found hfound => ?_
    cases found with
    | none => exact .pure []
    | some m =>
      obtain ⟨d', hlt, -, -, hless⟩ := hp.distance_of_probe hi hd hfound
      have hle := le_floor_of_less_eq_false hmax hless
      omega
  | succ k ih =>
    refine (hp.probe_finishes hd).bind fun found hfound => ?_
    cases found with
    | none => exact .pure []
    | some m =>
      obtain ⟨d', hlt, hd', -, -⟩ := hp.distance_of_probe hi hd hfound
      exact (ih hd' (by push_cast at hk; omega)).map _

theorem Returns.range_finishes [Repertoire] (hp : p.Returns) {b : Range} {c : Int} {q : ℚ}
    (hmax : b.max.value? = some (.finite q)) : ((p.range b).run s (.int c)).Finishes := by
  have hallowed : q.floor ≤ (0 : ℕ) + p.allowance b s (.int c) := by
    simp only [allowance, Number.floor?, hmax, Option.bind_some, Extended.floor?, Option.elim_some]
    omega
  have hstart : (Value.int c).CountsAs (c + (0 : ℕ)) := (Int.add_zero c).symm ▸ .int c
  exact (hp.advances_finishes (.int c) hmax hstart hallowed).bind fun ms _ => .ofExcept _

theorem Returns.tallied (hp : p.Returns) : p.tallied.Returns := ⟨hp.finishes, hp.counts⟩

/-- With a finite maximum, each invocation takes a character from **what the maximum allows**. -/
theorem Returns.invocations_le [Repertoire] (hp : p.Returns) {b : Range} {c : Int} {q : ℚ}
    (hmax : b.max.value? = some (.finite q)) : p.invocations b s (.int c) ≤ ⌈q⌉₊ := by
  have hlimit : b.max.limit = (⌈q⌉₊ : ℕ∞) := by rw [Number.limit, hmax]
  rw [invocations_eq]
  -- The budget at a distance from the start is what lies between the distance and the maximum.
  refine length_records_advances_le (I := fun n v => ∃ d : ℕ, v.CountsAs (c + d) ∧ ⌈q⌉₊ ≤ d + n)
    ?_ ⟨0, (Int.add_zero c).symm ▸ .int c, (Nat.zero_add _).ge⟩ _
  rintro n v ⟨d, hd, hn⟩
  have hone := length_records_probe_tallied_le p s b.max (.int c) v
  by_cases hless : (Number.int d).less b.max
  · have hd' : d < ⌈q⌉₊ := by
      rw [Number.less_iff_lt_limit, hlimit, ENat.natCast_lt_natCast] at hless
      exact hless
    refine ⟨by omega, fun m hm => ?_⟩
    obtain ⟨e, hde, he, -, -⟩ := hp.tallied.distance_of_probe (.int c) hd hm
    exact ⟨n - 1, ⟨e, he, by omega⟩, by omega⟩
  · have hminus : v.minus (.int c) = .ok (.int d) := by
      rw [hd.minus (.int c)]
      congr 2
      omega
    rw [probe_of_minus_not_less hminus (Bool.eq_false_iff.mpr hless)]
    exact ⟨Nat.zero_le n, fun m hm => by cases hm⟩

/-! ### An infinite maximum -/

/-- Without a maximum, a probe finds every match that advances. -/
theorem Returns.probe_eq_some_iff_advances (hp : p.Returns) (hmax : max.value? = some .posInf)
    {i j : Int} (hi : start.CountsAs i) (hj : position.CountsAs j) :
    (p.probe s max start position).outcome = .ok (some m) ↔ p.Advances s position m := by
  rw [probe_eq_some_iff]
  refine ⟨fun h => h.2.1, fun h => ?_⟩
  obtain ⟨n, hn, -⟩ := hp.exists_countsAs hj h
  have hbelow : ∀ x : Int, (Number.int x).less max ∧ max.less (.int x) = false := by
    intro x
    simp only [Number.less, Number.compareWith, hmax, Number.value?_int]
    exact ⟨rfl, rfl⟩
  exact ⟨⟨_, hj.minus hi, (hbelow _).1⟩, h, _, hn.minus hi, (hbelow _).2⟩

/-- Without a maximum, a repetition that finishes has come, by successive matches, to a position
from which no match advances. -/
theorem Returns.exists_successive (hp : p.Returns) (hmax : max.value? = some .posInf) {i j : Int}
    (hi : start.CountsAs i) (hj : position.CountsAs j) {k : ℕ}
    (hk : (p.advances s max start k position).Finishes) :
    ∃ ms d, p.Successive s position ms d ∧ ∀ m, ¬ p.Advances s d m := by
  induction k generalizing position j with
  | zero =>
    refine ⟨[], position, .nil position, fun m hm => hk ?_⟩
    exact advances_zero_of_probe_some ((hp.probe_eq_some_iff_advances hmax hi hj).mpr hm)
  | succ k ih =>
    by_cases h : ∃ m, p.Advances s position m
    · obtain ⟨m, hm⟩ := h
      obtain ⟨n, hn, -⟩ := hp.exists_countsAs hj hm
      have hprobe := (hp.probe_eq_some_iff_advances hmax hi hj).mpr hm
      have hrest : (p.advances s max start k m.next).Finishes := by
        intro hu
        rw [advances_succ_of_probe_some hprobe, Run.Finishes, Run.outcome_bind_of_ok hprobe,
          Run.outcome_map, hu] at hk
        exact hk rfl
      obtain ⟨ms, d, hms, hlast⟩ := ih hn hrest
      exact ⟨m :: ms, d, .cons hm hms, hlast⟩
    · exact ⟨[], position, .nil position, not_exists.mp h⟩

/-- Without a maximum, successive matches to a position from which no match advances bring a
repetition to an end. -/
theorem Returns.exists_advances_finishes (hp : p.Returns) (hmax : max.value? = some .posInf)
    {i j : Int} (hi : start.CountsAs i) (hj : position.CountsAs j) {ms : List Match} {d : Value}
    (hms : p.Successive s position ms d) (hlast : ∀ m, ¬ p.Advances s d m) :
    ∃ k, (p.advances s max start k position).Finishes := by
  induction hms generalizing j with
  | nil c =>
    refine ⟨0, (hp.probe_finishes hj).bind fun found hfound => ?_⟩
    cases found with
    | none => exact .pure []
    | some m => exact absurd ((hp.probe_eq_some_iff_advances hmax hi hj).mp hfound) (hlast m)
  | cons hm _ ih =>
    obtain ⟨n, hn, -⟩ := hp.exists_countsAs hj hm
    obtain ⟨k, hk⟩ := ih hn hlast
    refine ⟨k + 1, ?_⟩
    rw [advances_succ_of_probe_some ((hp.probe_eq_some_iff_advances hmax hi hj).mpr hm)]
    exact (hp.probe_finishes hj).bind fun _ _ => hk.map _

/-- The parser whose repetitions are given a number of rounds. -/
def withRounds (p : Parser) (k : ℕ) : Parser := { p with rounds := fun _ _ => k }

theorem advances_withRounds (p : Parser) (s : Stream) (max : Number) (start position : Value)
    (k n : ℕ) :
    (p.withRounds k).advances s max start n position = p.advances s max start n position := by
  induction n generalizing position with
  | zero => rfl
  | succ n ih => simp only [advances, ih]; rfl

theorem run_range_withRounds [Repertoire] {b : Range} (hmax : b.max.value? = some .posInf) (k : ℕ) :
    ((p.withRounds k).range b).run s start =
      p.advances s b.max start k start >>= fun ms => Run.ofExcept (conclude b.min start ms) := by
  have hallowance : (p.withRounds k).allowance b s start = k := by
    simp only [allowance, Number.floor?, hmax, Option.bind_some, Extended.floor?, Option.elim_none]
    exact Nat.zero_add k
  show (p.withRounds k).advances s b.max start
    ((p.withRounds k).allowance b s start) start >>= _ = _
  rw [hallowance, advances_withRounds]

/-- **Termination of repetitions.**

A repetition of a chain finishes at every integer position and whatever its bounds are, and runs the
chain once more than there are characters left at most.

A repetition of any parse function that returns finishes if its maximum is finite, and runs the
function as many times as whole characters are needed to reach the maximum at most. With an infinite
maximum, it finishes with some number of rounds if and only if the function, after finitely many
successive matches, comes to a position where it does not match or does not advance. -/
theorem repetition_finishes [Repertoire] :
    (∀ (chain : Chain) (b : Range) (s : Stream) (c : Int),
      (chain.parser.run s (.int c)).Finishes ∧ ((chain.parser.range b).run s (.int c)).Finishes ∧
        chain.parser.invocations b s (.int c) ≤ (s.length + 1 - c).toNat + 1) ∧
    ∀ p : Parser, p.Returns → ∀ (b : Range) (s : Stream) (c : Int),
      (∀ q : ℚ, b.max.value? = some (.finite q) →
        ((p.range b).run s (.int c)).Finishes ∧ p.invocations b s (.int c) ≤ ⌈q⌉₊) ∧
      (b.max.value? = some .posInf →
        ((∃ k, (((p.withRounds k).range b).run s (.int c)).Finishes) ↔
          ∃ ms d, p.Successive s (.int c) ms d ∧ ∀ m, ¬ p.Advances s d m)) := by
  refine ⟨fun chain b s c => ⟨?_, ?_, ?_⟩,
    fun p hp b s c => ⟨fun q hq => ⟨?_, ?_⟩, fun hinf => ?_⟩⟩
  · exact (chain.keeps_within.ensures s c).outcome_ne_unfinished
  · have hrange := chain.keeps_within.range b fun _ _ _ _ _ => trivial
    exact (hrange.ensures s c).outcome_ne_unfinished
  · exact chain.keeps_within.invocations_le b s c
  · exact hp.range_finishes hq
  · exact hp.invocations_le hq
  · constructor
    · rintro ⟨k, hk⟩
      refine hp.exists_successive hinf (.int c) (.int c) (k := k) fun hu => hk ?_
      rw [run_range_withRounds hinf, Run.bind_of_error hu]
    · rintro ⟨ms, d, hms, hlast⟩
      obtain ⟨k, hk⟩ := hp.exists_advances_finishes hinf (.int c) (.int c) hms hlast
      refine ⟨k, ?_⟩
      -- What the matches make up is found without rounds.
      rw [run_range_withRounds hinf]
      exact hk.bind fun _ _ => .ofExcept _

/-! ### A parser that advances without end -/

theorem run_whole {i : Int} (hi : position.CountsAs i) :
    (whole.run s position).outcome = .ok (.matched (.text s.text) (.int (i + s.length))) := by
  have hplus : position.plus s.length = .ok (.int (i + s.length)) := by
    rw [Value.plus, hi.toNumber]
    rfl
  simp only [whole, hplus, bind, Except.bind]
  rfl

theorem returns_whole : whole.Returns where
  finishes {s c i} hi h := by
    rw [run_whole hi] at h
    cases h
  counts {s c payload v n i x} hi h hsplit hx := by
    rw [run_whole hi] at h
    obtain rfl := Reply.ok.inj (Except.ok.inj h)
    obtain ⟨-, rfl⟩ := Prod.mk.inj (Except.ok.inj hsplit)
    exact ⟨_, (Option.some.inj hx).symm⟩

theorem advances_whole {i : Int} (hi : position.CountsAs i) (hs : 0 < s.length) :
    whole.Advances s position ⟨.text s.text, .int (i + s.length)⟩ := by
  refine ⟨_, run_whole hi, rfl, ?_⟩
  rw [(Value.CountsAs.int _).lessEq hi, decide_eq_false (by omega)]

/-- The parser that moves by the length of the text: within a maximum, it is run a bounded number of
times, and without one, its repetition finishes with no number of rounds. -/
theorem repetition_finishes_whole :
    whole.invocations ⟨.int 0, .int 5, rfl, rfl⟩ (.ofText "ab")
      (.int 1) ≤ 5 ∧
    ¬ ∃ k, (((whole.withRounds k).range
      ⟨.int 0, .infinity, rfl, rfl⟩).run (.ofText "ab")
        (.int 1)).Finishes := by
  constructor
  · have hle := ((repetition_finishes.2 whole returns_whole
      ⟨.int 0, .int 5, rfl, rfl⟩ (.ofText "ab") 1).1 5 rfl).2
    rwa [show ⌈(5 : ℚ)⌉₊ = 5 from Nat.ceil_natCast 5] at hle
  · rw [(repetition_finishes.2 whole returns_whole _ _ _).2 rfl]
    rintro ⟨ms, d, hms, hlast⟩
    obtain ⟨i, hi⟩ := returns_whole.exists_countsAs_of_successive hms (.int 1)
    exact hlast _ (advances_whole hi (by decide))

end CursorParsers.Parser
