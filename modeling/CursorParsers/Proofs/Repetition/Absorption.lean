import CursorParsers.Parser.Chain
import CursorParsers.Parser.Scripted
import CursorParsers.Proofs.Repetition.Usage

/-!
# Repeating a repetition without maximum

A repetition without maximum stops where its parser fails or does not advance. A second repetition
around it starts the first one again at that position, where it fails or does not advance either,
for whichever reason it stopped. So the second repetition uses one match at most. Which answer that
makes is settled by the number of characters that the successive matches consume, and by the two
minimums.

How many rounds a repetition is allowed is nothing the answer depends on, as long as they suffice.

## Main definitions

* `Parser.SettlesWithin`: the answer of a parser after several steps that has rounds enough
* `Parser.Idle`: a position where a parser fails or does not advance

## Main results

* `Parser.Answers.outcome_range_range`: the answer of a repetition of a repetition
* `Parser.range_absorbed`: a repetition without bounds is absorbed, inside and outside
-/

namespace CursorParsers

/-- The range without maximum, from a minimum on. -/
abbrev Range.unbounded (m : ℕ) : Range := .whole m ⊤ (ENat.natCast_lt_top m)

theorem Range.atLeast_int (m : ℕ) : Range.atLeast (.int m) = .ok (.unbounded m) :=
  Range.build_whole (ENat.natCast_lt_top m)

namespace Parser

variable {p q : Parser} {s : Stream} {c d : Int} {ms : List Match} {m k : ℕ} {t : String}
  {x : Value}

/-- A parser after several steps settles on an answer within a number of rounds if it gives this
answer whatever rounds it is allowed, as long as there are so many. -/
def SettlesWithin [Repertoire] (p : Parser) (n : ℕ) (steps : List Step) (s : Stream) (c : Int)
    (r : Reply) : Prop :=
  ∀ rounds : Stream → Value → ℕ, n ≤ rounds s (.int c) →
    ((({ p with rounds := rounds } : Parser).extend steps).run s (.int c)).outcome = .ok r

/-- A parser is idle at a position if it fails there, or matches without advancing. -/
def Idle (p : Parser) (s : Stream) (d : Int) : Prop :=
  (∃ e, (p.run s (.int d)).outcome = .ok (.err e)) ∨
    ∃ v n, (p.run s (.int d)).outcome = .ok (.matched v (.int n)) ∧ n ≤ d

theorem Answers.idle (hp : p.Answers s) (hlast : ∀ m, ¬ p.Advances s (.int d) m) : p.Idle s d := by
  rcases hp d with herr | ⟨v, n, hv⟩
  · exact .inl herr
  · exact .inr ⟨v, n, hv, not_lt.mp fun hlt => hlast _ (Answers.advances_of_matched hv hlt)⟩

/-! ### Repetitions without maximum -/

theorem Repeats.outcome_unbounded [Repertoire] {rs : List Record}
    (h : q.Repeats s (.bound ⊤) (.int c) (.int c) ms rs)
    (hend : finish (.int c) ms = .int (c + k)) (hrounds : ms.length ≤ q.rounds s (.int c)) :
    ((q.range (.unbounded m)).run s (.int c)).outcome = .ok (.repeated m c k (captured ms)) := by
  have hallowed : ms.length ≤ q.allowance (.unbounded m) s (.int c) :=
    hrounds.trans (Nat.le_add_left _ _)
  rw [h.run_range_of_le hallowed, Run.outcome_bind_of_ok rfl, conclude_int hend, ← conclusion_whole]
  rfl

theorem Idle.probe_eq_none (h : q.Idle s d) :
    (q.probe s (.bound ⊤) (.int c) (.int d)).outcome = .ok none := by
  rcases h with ⟨e, he⟩ | ⟨v, n, hv, hle⟩
  · rw [probe_of_err (Run.eq_of_outcome he) rfl]
  · rw [probe_of_matched (Run.eq_of_outcome hv) rfl,
      if_neg fun hlt => absurd hlt.1 (not_lt.mpr hle)]

theorem Idle.outcome_unbounded [Repertoire] (h : q.Idle s c) :
    ((q.range (.unbounded m)).run s (.int c)).outcome = .ok (.repeated m c 0 "") :=
  Repeats.outcome_unbounded (.stop (Run.eq_of_outcome h.probe_eq_none))
    (by rw [finish_nil, Nat.cast_zero, add_zero]) (Nat.zero_le _)

/-- Where a parser is idle, so is its repetition, whatever the minimum. -/
theorem Idle.range [Repertoire] (h : q.Idle s c) (m : ℕ) : (q.range (.unbounded m)).Idle s c := by
  have hrun := h.outcome_unbounded (m := m)
  rw [Reply.repeated] at hrun
  split at hrun
  next => exact .inl ⟨_, hrun⟩
  next => exact .inr ⟨_, _, hrun, by omega⟩

/-- Where a parser matches and is idle behind the match, its repetition uses that one only. -/
theorem Idle.outcome_unbounded_of_matched [Repertoire] (h : q.Idle s (c + k))
    (hmatched : (q.run s (.int c)).outcome = .ok (.matched (.text t) (.int (c + k)))) (hk : 0 < k)
    (hrounds : 1 ≤ q.rounds s (.int c)) :
    ((q.range (.unbounded m)).run s (.int c)).outcome = .ok (.repeated m c k t) := by
  have hprobe : (q.probe s (.bound ⊤) (.int c) (.int c)).outcome =
      .ok (some ⟨.text t, .int (c + k)⟩) := by
    rw [probe_of_matched (Run.eq_of_outcome hmatched) rfl, if_pos ⟨by omega, rfl⟩]
  have hcourse := Repeats.more (Run.eq_of_outcome hprobe)
    (.stop (Run.eq_of_outcome h.probe_eq_none))
  have hcaptured : captured [⟨.text t, .int (c + k)⟩] = t := by
    rw [captured_cons, Value.fragment_text]
    exact String.append_empty
  rw [hcourse.outcome_unbounded rfl hrounds, hcaptured]

/-- Without maximum, the matches used are all those that advance. -/
theorem Answers.outcome_unbounded [Repertoire] (hp : p.Answers s)
    (h : p.Successive s (.int c) ms (.int (c + k)))
    (hlast : ∀ m, ¬ p.Advances s (.int (c + k)) m) (hrounds : ms.length ≤ p.rounds s (.int c)) :
    ((p.range (.unbounded m)).run s (.int c)).outcome = .ok (.repeated m c k (captured ms)) := by
  obtain ⟨rs, hrepeats⟩ := hp.repeats (Number.isSome_value?_bound ⊤) h rfl
    (hp.idle hlast).probe_eq_none
  exact hrepeats.outcome_unbounded h.finish_eq hrounds

/-! ### A repetition of a repetition -/

/-- The **repetition of a repetition**, by the characters that the successive matches consume. If
they are too few for the inner minimum, nothing is consumed at all. -/
theorem Answers.outcome_range_range [Repertoire] (hp : p.Answers s)
    (h : p.Successive s (.int c) ms (.int (c + k))) (hlast : ∀ m, ¬ p.Advances s (.int (c + k)) m)
    (hrounds : ms.length ≤ p.rounds s (.int c)) (m m' : ℕ) :
    (((p.range (.unbounded m)).range (.unbounded m')).run s (.int c)).outcome =
      .ok (if k < m then .repeated m' c 0 "" else .repeated m' c k (captured ms)) := by
  have hinner := hp.outcome_unbounded (m := m) h hlast hrounds
  rw [Reply.repeated] at hinner
  split at hinner
  next hless =>
    have hidle : (p.range (.unbounded m)).Idle s c := .inl ⟨_, hinner⟩
    rw [hidle.outcome_unbounded, if_pos hless]
  next hless =>
    rw [if_neg hless]
    rcases Nat.eq_zero_or_pos k with rfl | hk
    -- Nothing is consumed, so there is no match: it would take a character.
    · have hlength := hp.add_length_le h
      obtain rfl : ms = [] := List.eq_nil_of_length_eq_zero (by omega)
      have hidle : (p.range (.unbounded m)).Idle s c := .inr ⟨_, _, hinner, by omega⟩
      exact hidle.outcome_unbounded
    -- The inner repetition is started once more where it has ended, and is idle there.
    · have hrounds' : 1 ≤ p.rounds s (.int c) := by
        refine le_trans (List.length_pos_iff.mpr ?_) hrounds
        rintro rfl
        have hend := Value.int_inj.mp h.finish_eq
        omega
      exact ((hp.idle hlast).range m).outcome_unbounded_of_matched hinner hk hrounds'

/-- **A repetition without bounds is absorbed.**

Around a repetition without maximum that accepts no characters as well, a repetition with a minimum
answers what it answers around the parser itself: the same text, the same position, the same error.
Inside one, it answers the same where it matches, and where it fails nothing is captured.

This supposes that the successive matches come to an end, for whichever reason. There may be any
number of rounds that suffices for these matches. -/
theorem range_absorbed [Repertoire] (hp : p.Answers s) (h : p.Successive s (.int c) ms x)
    (hlast : ∀ m, ¬ p.Advances s x m) (m : ℕ) :
    Range.atLeast (.int m) = .ok (.unbounded m) ∧
    ∃ r, p.SettlesWithin ms.length [.range (.unbounded m)] s c r ∧
      p.SettlesWithin ms.length [.range (.unbounded 0), .range (.unbounded m)] s c r ∧
      (∀ payload, r = .ok payload →
        p.SettlesWithin ms.length [.range (.unbounded m), .range (.unbounded 0)] s c r) ∧
      ∀ e, r = .err e →
        p.SettlesWithin ms.length [.range (.unbounded m), .range (.unbounded 0)] s c
          (.matched (.text "") (.int c)) := by
  obtain ⟨k, rfl⟩ := hp.exists_eq_add h
  have hanswer (rounds : Stream → Value → ℕ) :=
    Answers.outcome_range_range (p := { p with rounds := rounds }) hp (h.of_run_eq rfl) hlast
  refine ⟨Range.atLeast_int m, .repeated m c k (captured ms), fun rounds hle => ?_,
    fun rounds hle => ?_, fun payload hok rounds hle => ?_, fun e herr rounds hle => ?_⟩
  · exact Answers.outcome_unbounded (p := { p with rounds := rounds }) hp (h.of_run_eq rfl) hlast
      hle
  · exact (hanswer rounds hle 0 m).trans (by rw [if_neg (Nat.not_lt_zero k)])
  · have hless : ¬ k < m := fun hless => by
      rw [Reply.repeated, if_pos hless] at hok
      cases hok
    refine (hanswer rounds hle m 0).trans ?_
    rw [if_neg hless, Reply.repeated_zero, Reply.repeated, if_neg hless]
  · have hless : k < m := by
      by_contra hless
      rw [Reply.repeated, if_neg hless] at herr
      cases herr
    refine (hanswer rounds hle m 0).trans ?_
    rw [if_pos hless, Reply.repeated_zero, Nat.cast_zero, add_zero]

/-- Two matches that advance, one with the unit value and one with a number, and then one that does
not advance. -/
def uneven : Parser := stepping [(1, .null, 3), (3, .int 7, 4), (4, .text "x", 4)]

/-- The three characters that the **uneven** matches consume are enough for one minimum, and too few
for another. -/
theorem range_absorbed_uneven :
    (((uneven.range (.unbounded 0)).range (.unbounded 3)).run (.ofText "") (.int 1)).outcome =
        .ok (.matched (.text "7") (.int 4)) ∧
      (((uneven.range (.unbounded 0)).range (.unbounded 5)).run (.ofText "") (.int 1)).outcome =
        .ok (.err (.text "Expected at least 5 characters, matched 3")) ∧
      (((uneven.range (.unbounded 3)).range (.unbounded 0)).run (.ofText "") (.int 1)).outcome =
        .ok (.matched (.text "7") (.int 4)) ∧
      (((uneven.range (.unbounded 5)).range (.unbounded 0)).run (.ofText "") (.int 1)).outcome =
        .ok (.matched (.text "") (.int 1)) := by
  have hanswers : uneven.Answers (.ofText "") := answers_stepping _ _
  have h : uneven.Successive (.ofText "") (.int 1) [⟨.null, .int 3⟩, ⟨.int 7, .int 4⟩] (.int 4) :=
    .cons (Answers.advances_of_matched rfl (by decide))
      (.cons (Answers.advances_of_matched rfl (by decide)) (.nil _))
  have hlast (m : Match) : ¬ uneven.Advances (.ofText "") (.int 4) m := fun hm =>
    absurd (hm.eq_of_matched rfl).2 (lt_irrefl 4)
  have hrounds : 2 ≤ uneven.rounds (.ofText "") (.int 1) := by decide
  obtain ⟨-, r, hr, hinner, houter, -⟩ := range_absorbed hanswers h hlast 3
  obtain ⟨-, e, he, hinner', -, houter'⟩ := range_absorbed hanswers h hlast 5
  obtain rfl : r = .matched (.text "7") (.int 4) :=
    Except.ok.inj ((hr uneven.rounds hrounds).symm.trans rfl)
  obtain rfl : e = .err (.text "Expected at least 5 characters, matched 3") :=
    Except.ok.inj ((he uneven.rounds hrounds).symm.trans rfl)
  exact ⟨hinner uneven.rounds hrounds, hinner' uneven.rounds hrounds,
    houter _ rfl uneven.rounds hrounds, houter' _ rfl uneven.rounds hrounds⟩

end Parser

end CursorParsers
