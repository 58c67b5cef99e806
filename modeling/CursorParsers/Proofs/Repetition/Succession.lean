import CursorParsers.Proofs.Number.Order
import CursorParsers.Proofs.Repetition.Course
import CursorParsers.Proofs.Repetition.Termination

/-!
# Repetitions and successive matches

A repetition uses successive matches of its parser for as long as they end within the maximum. What
it answers is therefore said by any successive matches that end within the maximum and cannot be
continued so, whatever the parser does elsewhere.

The parser may be any parse function that answers at integer positions with integer positions. It
may match without advancing, go backwards or far ahead, and capture values of any kind.

## Main definitions

* `Parser.Matches`: a match at a position, whether it advances or not
* `Parser.Answers`: a parse function that answers with integers at integers

## Main results

* `Parser.Successive.exists_rest`: of two successions from one position, one continues the other
* `Parser.Answers.probe_eq_none_iff`: where a repetition does not go on
* `Parser.Answers.repeats`: successive matches within the maximum are the course of a repetition
* `Parser.Answers.outcome_range`: what a repetition answers, by its successive matches
-/

namespace CursorParsers

theorem Reply.matched_inj {v v' n n' : Value} (h : Reply.matched v n = .matched v' n') :
    v = v' ∧ n = n' := by
  simpa [Reply.matched, Value.pair] using h

namespace Parser

variable {p : Parser} {s : Stream} {max : Number} {x : Value} {m m' : Match} {ms ms' : List Match}

/-! ### Matches -/

/-- A parser matches at a position. The match need not advance. -/
def Matches (p : Parser) (s : Stream) (x : Value) (m : Match) : Prop :=
  ∃ payload, (p.run s x).outcome = .ok (.ok payload) ∧ payload.split = .ok (m.value, m.next)

theorem Advances.matches (h : p.Advances s x m) : p.Matches s x m := by
  obtain ⟨payload, hr, hsplit, -⟩ := h
  exact ⟨payload, hr, hsplit⟩

theorem Matches.unique (h : p.Matches s x m) (h' : p.Matches s x m') : m = m' := by
  obtain ⟨payload, hr, hsplit⟩ := h
  obtain ⟨payload', hr', hsplit'⟩ := h'
  rw [hr] at hr'
  obtain rfl := Reply.ok.inj (Except.ok.inj hr')
  rw [hsplit] at hsplit'
  obtain ⟨hv, hn⟩ := Prod.mk.inj (Except.ok.inj hsplit')
  exact congrArg₂ Match.mk hv hn

theorem Matches.of_matched {v n : Value} (h : (p.run s x).outcome = .ok (.matched v n)) :
    p.Matches s x ⟨v, n⟩ := ⟨_, h, rfl⟩

theorem Advances.unique (h : p.Advances s x m) (h' : p.Advances s x m') : m = m' :=
  h.matches.unique h'.matches

theorem Advances.outcome_ne_err {position e : Value} (h : p.Advances s position m) :
    (p.run s position).outcome ≠ .ok (.err e) := by
  rcases h with ⟨payload, hr, -⟩
  rw [hr]
  exact fun he => by cases Except.ok.inj he

theorem Advances.eq_of_matched {c n : Int} {v : Value} (h : p.Advances s (.int c) m)
    (hv : (p.run s (.int c)).outcome = .ok (.matched v (.int n))) :
    m = ⟨v, .int n⟩ ∧ c < n := by
  obtain rfl := h.matches.unique (.of_matched hv)
  obtain ⟨-, -, -, hle⟩ := h
  rw [Value.lessEq_int] at hle
  exact ⟨rfl, not_le.mp (of_decide_eq_false (Except.ok.inj hle))⟩

/-! ### Successive matches -/

namespace Successive

variable {x y z : Value}

theorem append (h : p.Successive s x ms y) (h' : p.Successive s y ms' z) :
    p.Successive s x (ms ++ ms') z := by
  induction h with
  | nil c => exact h'
  | cons hm _ ih => exact .cons hm (ih h')

theorem finish_eq (h : p.Successive s x ms y) : finish x ms = y := by
  induction h with
  | nil c => rfl
  | cons _ _ ih => rw [finish_cons, ih]

end Successive

/-! ### Integer answers -/

/-- A parse function that answers at every integer position: with a failure of any kind, or with
a match that names an integer as the next position. -/
def Answers (p : Parser) (s : Stream) : Prop :=
  ∀ c : Int, (∃ e, (p.run s (.int c)).outcome = .ok (.err e)) ∨
    ∃ v n, (p.run s (.int c)).outcome = .ok (.matched v (.int n))

namespace Answers

variable {start c d : Int}

theorem exists_int (hp : p.Answers s) (h : p.Advances s (.int c) m) :
    ∃ n, m.next = .int n ∧ c < n := by
  rcases hp c with ⟨e, he⟩ | ⟨v, n, hv⟩
  · exact absurd he h.outcome_ne_err
  · obtain ⟨rfl, hlt⟩ := h.eq_of_matched hv
    exact ⟨n, rfl, hlt⟩

theorem advances_of_matched {v : Value} {n : Int}
    (h : (p.run s (.int c)).outcome = .ok (.matched v (.int n))) (hlt : c < n) :
    p.Advances s (.int c) ⟨v, .int n⟩ := by
  refine ⟨_, h, rfl, ?_⟩
  rw [Value.lessEq_int, decide_eq_false (not_le.mpr hlt)]

theorem add_length_le (hp : p.Answers s) (h : p.Successive s (.int c) ms (.int d)) :
    c + ms.length ≤ d := by
  induction ms generalizing c with
  | nil =>
    cases h
    simp
  | cons m ms ih =>
    rcases h with _ | ⟨hm, hrest⟩
    rcases hp.exists_int hm with ⟨n, hn, hlt⟩
    have hle := ih (hn ▸ hrest)
    rw [List.length_cons]
    omega

/-- Where successive matches end is some number of characters ahead. -/
theorem exists_eq_add (hp : p.Answers s) {x : Value} (h : p.Successive s (.int c) ms x) :
    ∃ k : Nat, x = .int (c + k) := by
  induction ms generalizing c with
  | nil =>
    cases h
    exact ⟨0, by rw [Nat.cast_zero, add_zero]⟩
  | cons m ms ih =>
    rcases h with _ | ⟨hm, hrest⟩
    obtain ⟨n, hn, hlt⟩ := hp.exists_int hm
    obtain ⟨k, rfl⟩ := ih (hn ▸ hrest)
    exact ⟨(n + k - c).toNat, congrArg Value.int (by omega)⟩

theorem probe_outcome (hp : p.Answers s) (max : Number) (start c : Int) :
    ∃ found, (p.probe s max (.int start) (.int c)).outcome = .ok found := by
  by_cases hless : (Number.int (c - start)).less max
  · rcases hp c with ⟨e, he⟩ | ⟨v, n, hv⟩
    · rw [probe_of_err (Run.eq_of_outcome he) hless]
      exact ⟨_, rfl⟩
    · rw [probe_of_matched (Run.eq_of_outcome hv) hless]
      exact ⟨_, rfl⟩
  · rw [probe_of_not_less (Bool.eq_false_iff.mpr hless)]
    exact ⟨_, rfl⟩

/-- A probe finds any match that advances and ends within the maximum. -/
theorem probe_of_advances (hmax : max.value?.isSome) {n : Int} (h : p.Advances s (.int c) m)
    (hn : m.next = .int n) (hlt : c < n) (hwithin : max.less (.int (n - start)) = false) :
    (p.probe s max (.int start) (.int c)).outcome = .ok (some m) := by
  have hbelow : (Number.int (c - start)).less max :=
    Number.less_of_lt_of_less_eq_false hmax (Int.sub_lt_sub_right hlt start) hwithin
  exact probe_eq_some_iff.mpr
    ⟨⟨_, Value.minus_int c start, hbelow⟩, h, _, by rw [hn, Value.minus_int], hwithin⟩

/-- A probe finds **no match** if every match that advances overshoots the maximum. -/
theorem probe_eq_none_iff (hp : p.Answers s) (hmax : max.value?.isSome) :
    (p.probe s max (.int start) (.int c)).outcome = .ok none ↔
      ∀ m n, p.Advances s (.int c) m → m.next = .int n → max.less (.int (n - start)) := by
  constructor
  · intro hnone m n hm hn
    by_contra hwithin
    obtain ⟨n', hn', hlt⟩ := hp.exists_int hm
    obtain rfl := Value.int_inj.mp (hn.symm.trans hn')
    have hfound := probe_of_advances hmax hm hn hlt (Bool.eq_false_iff.mpr hwithin)
    rw [hnone] at hfound
    cases Except.ok.inj hfound
  · intro hover
    rcases hp.probe_outcome max start c with ⟨_ | m, hfound⟩
    · exact hfound
    · obtain ⟨-, hm, x, hx, hwithin⟩ := probe_eq_some_iff.mp hfound
      rcases hp.exists_int hm with ⟨n, hn, -⟩
      rw [hn, Value.minus_int] at hx
      obtain rfl := Except.ok.inj hx
      rw [hover m n hm hn] at hwithin
      cases hwithin

/-! ### The course of a repetition -/

/-- Successive matches that **end within the maximum**, and that no probe continues, are the course
of a repetition. -/
theorem repeats (hp : p.Answers s) (hmax : max.value?.isSome)
    (h : p.Successive s (.int c) ms (.int d)) (hwithin : max.less (.int (d - start)) = false)
    (hstop : (p.probe s max (.int start) (.int d)).outcome = .ok none) :
    ∃ rs, p.Repeats s max (.int start) (.int c) ms rs := by
  induction ms generalizing c with
  | nil =>
    cases h
    exact ⟨_, .stop (Run.eq_of_outcome hstop)⟩
  | cons m ms ih =>
    rcases h with _ | ⟨hm, hrest⟩
    rcases hp.exists_int hm with ⟨n, hn, hlt⟩
    rw [hn] at hrest
    -- What lies before the last position is within the maximum as well.
    have hnd : n ≤ d := by
      have hle := hp.add_length_le hrest
      omega
    have hprobe : (p.probe s max (.int start) (.int c)).outcome = .ok (some m) :=
      probe_of_advances hmax hm hn hlt
        (Number.less_eq_false_of_le (Int.sub_le_sub_right hnd start) hwithin)
    rcases ih hrest with ⟨rs, hrs⟩
    exact ⟨_, .more (Run.eq_of_outcome hprobe) (hn ▸ hrs)⟩

/-- A finite maximum bounds the number of matches that end within it. -/
theorem length_le_floor (hp : p.Answers s) {q : ℚ} (hmax : max.value? = some (.finite q))
    (h : p.Successive s (.int c) ms (.int d)) (hwithin : max.less (.int (d - c)) = false) :
    ms.length ≤ q.floor.toNat := by
  have hlength := hp.add_length_le h
  have hdist : ((d - c).toNat : Int) = d - c := Int.toNat_of_nonneg (by omega)
  have hfloor := le_floor_of_less_eq_false hmax (hdist.symm ▸ hwithin)
  omega

/-- A repetition is allowed as many matches as end within the maximum. Only if there is no
maximum, this rests on the parser's own bound. -/
theorem length_le_allowance (hp : p.Answers s) {b : Range} (hmax : b.max.value?.isSome)
    (h : p.Successive s (.int c) ms (.int d)) (hwithin : b.max.less (.int (d - c)) = false)
    (hrounds : b.max.value? = some .posInf → ms.length ≤ p.rounds s (.int c)) :
    ms.length ≤ p.allowance b s (.int c) := by
  rcases Option.isSome_iff_exists.mp hmax with ⟨_ | q | _, hx⟩
  · exact absurd hx (Number.value?_ne_negInf hwithin)
  · simp only [allowance, Number.floor?, hx, Option.bind_some, Extended.floor?, Option.elim_some]
    exact (hp.length_le_floor hx h hwithin).trans (Nat.le_add_right _ _)
  · simp only [allowance, Number.floor?, hx, Option.bind_some, Extended.floor?, Option.elim_none]
    exact (hrounds hx).trans (Nat.le_add_left _ _)

/-- **What a repetition answers**, by the successive matches that it uses. -/
theorem outcome_range [Repertoire] (hp : p.Answers s) {b : Range} (hmax : b.max.value?.isSome)
    (h : p.Successive s (.int c) ms (.int d)) (hwithin : b.max.less (.int (d - c)) = false)
    (hstop : (p.probe s b.max (.int c) (.int d)).outcome = .ok none)
    (hrounds : b.max.value? = some .posInf → ms.length ≤ p.rounds s (.int c)) :
    ((p.range b).run s (.int c)).outcome =
      .ok (if (Number.int (d - c)).less b.min then
        .err (.text (Failure.tooShort b.min (.int (d - c))).message)
      else .matched (.text (captured ms)) (.int d)) := by
  rcases hp.repeats hmax h hwithin hstop with ⟨rs, hrepeats⟩
  have hlength := hp.length_le_allowance hmax h hwithin hrounds
  rw [hrepeats.run_range_of_le hlength, Run.outcome_bind_of_ok rfl, conclude_int h.finish_eq]
  rfl

end Answers

/-- Matches at some positions, given with the captured values and the next positions, and fails
at all others. -/
def stepping (rows : List (Int × Value × Int)) : Parser :=
  tabulated (rows.map fun row => (.int row.1, .matched row.2.1 (.int row.2.2)))

theorem answers_stepping (rows : List (Int × Value × Int)) (s : Stream) :
    (stepping rows).Answers s := by
  intro c
  have hrun : ((stepping rows).run s (.int c)).outcome =
      .ok (((rows.map fun row => (Value.int row.1, Reply.matched row.2.1 (.int row.2.2))).find?
        fun row => row.1.equals (.int c)).elim (.err (.text "no row")) Prod.snd) := rfl
  rw [hrun, List.find?_map]
  cases rows.find? _ with
  | none => exact .inl ⟨_, rfl⟩
  | some row => exact .inr ⟨row.2.1, row.2.2, rfl⟩

end Parser

end CursorParsers
