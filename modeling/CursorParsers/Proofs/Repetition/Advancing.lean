import CursorParsers.Proofs.Repetition.Rounds
import CursorParsers.Proofs.Run.Postcondition

/-!
# Matches that advance

A repetition goes on from a match only if it advances. A parse function that is given from outside
may name any next position, also one behind the position where it was asked, or one far ahead. As
long as it names integers, what a repetition has consumed can be counted.

## Main definitions

* `Value.CountsAs`: a value that counts as an integer
* `Parser.Advances`, `Parser.Successive`: a match that advances, and several one after another
* `Parser.Returns`: a parse function that returns, and names integers as next positions

## Main results

* `Parser.probe_eq_some_iff`: which match a probe finds
* `Parser.Returns.distance_of_probe`: what a probe tells about the characters consumed
-/

namespace CursorParsers

/-! ### Positions that count as integers -/

/-- A value that counts as an integer. -/
def Value.CountsAs (v : Value) (n : Int) : Prop := v.number? = Option.some (.int n)

namespace Value.CountsAs

variable {v w : Value} {m n : Int}

theorem int (n : Int) : (Value.int n).CountsAs n := rfl

theorem toNumber (h : v.CountsAs n) : v.toNumber = .ok (.int n) := by
  rw [Value.toNumber, show v.number? = Option.some (.int n) from h]
  rfl

theorem minus (hv : v.CountsAs m) (hw : w.CountsAs n) : v.minus w = .ok (.int (m - n)) := by
  rw [Value.minus, hv.toNumber, hw.toNumber]
  rfl

theorem lessEq (hv : v.CountsAs m) (hw : w.CountsAs n) : v.lessEq w = .ok (decide (m ≤ n)) := by
  rw [Value.lessEq, hv.toNumber, hw.toNumber, ← Number.lessEq_int]
  rfl

end Value.CountsAs

namespace Parser

variable {p : Parser} {s : Stream} {max : Number} {start position : Value} {m m' : Match}

/-! ### Matches that advance -/

/-- A match of a parser that advances. -/
def Advances (p : Parser) (s : Stream) (position : Value) (m : Match) : Prop :=
  ∃ payload, (p.run s position).outcome = .ok (.ok payload) ∧
    payload.split = .ok (m.value, m.next) ∧ m.next.lessEq position = .ok false

/-- Successive matches, each of which advances from where the one before has ended. -/
inductive Successive (p : Parser) (s : Stream) : Value → List Match → Value → Prop
  | nil (c : Value) : Successive p s c [] c
  | cons {c d : Value} {m : Match} {ms : List Match} (h : p.Advances s c m)
      (rest : Successive p s m.next ms d) : Successive p s c (m :: ms) d

theorem accept_eq_some_iff : accept max start position m = .ok (some m') ↔
    m = m' ∧ m.next.lessEq position = .ok false ∧
      ∃ d, m.next.minus start = .ok d ∧ max.less d = false := by
  rw [accept]
  cases m.next.lessEq position with
  | error cause => simp [bind, Except.bind]
  | ok stays =>
    cases stays with
    | true => simp [bind, Except.bind, pure, Except.pure]
    | false =>
      cases m.next.minus start with
      | error cause => simp [bind, Except.bind]
      | ok d => cases hd : max.less d <;> simp [bind, Except.bind, pure, Except.pure, hd]

/-- A probe finds a match if it is **below the maximum**, the match advances, and it does not end
beyond the maximum. -/
theorem probe_eq_some_iff : (p.probe s max start position).outcome = .ok (some m) ↔
    (∃ d, position.minus start = .ok d ∧ d.less max) ∧ p.Advances s position m ∧
      ∃ d, m.next.minus start = .ok d ∧ max.less d = false := by
  constructor
  · intro h
    obtain ⟨consumed, hconsumed, h⟩ := Run.exists_of_outcome_bind h
    have hconsumed := Run.eq_ok_of_outcome_ofExcept hconsumed
    split at h
    next hless =>
      obtain ⟨r, hr, h⟩ := Run.exists_of_outcome_bind h
      cases r with
      | err e => cases h
      | ok payload =>
        have haccept := Run.eq_ok_of_outcome_ofExcept h
        cases hsplit : payload.split with
        | error cause => simp [hsplit, bind, Except.bind] at haccept
        | ok parts =>
          rw [hsplit] at haccept
          obtain ⟨rfl, hadvances, hmax⟩ := accept_eq_some_iff.mp haccept
          exact ⟨⟨consumed, hconsumed, hless⟩, ⟨payload, hr, hsplit, hadvances⟩, hmax⟩
    next => cases h
  · rintro ⟨⟨consumed, hconsumed, hless⟩, ⟨payload, hr, hsplit, hadvances⟩, hmax⟩
    have haccept : accept max start position ⟨m.value, m.next⟩ = .ok (some m) :=
      accept_eq_some_iff.mpr ⟨rfl, hadvances, hmax⟩
    rw [probe, hconsumed, Run.ofExcept_ok, pure_bind, if_pos hless, Run.outcome_bind_of_ok hr]
    simp only [hsplit, bind, Except.bind, haccept]
    rfl

/-! ### Parse functions from outside -/

/-- A parse function that returns from every integer position, whatever it answers there. A next
position that it names may lie anywhere; if it is a number at all, it counts as an integer. -/
structure Returns (p : Parser) : Prop where
  finishes {s : Stream} {c : Value} {i : Int} (hi : c.CountsAs i) : (p.run s c).Finishes
  counts {s : Stream} {c payload v n : Value} {i : Int} {x : Number} (hi : c.CountsAs i)
    (h : (p.run s c).outcome = .ok (.ok payload)) (hsplit : payload.split = .ok (v, n))
    (hx : n.number? = some x) : ∃ j, x = .int j

namespace Returns

theorem probe_finishes (hp : p.Returns) {i : Int} (hi : position.CountsAs i) :
    (p.probe s max start position).Finishes := by
  refine (Run.Finishes.ofExcept _).bind fun consumed _ => ?_
  split
  next =>
    refine (hp.finishes hi).bind fun r _ => ?_
    cases r with
    | ok payload => exact .ofExcept _
    | err e => exact .pure _
  next => exact .pure _

theorem exists_countsAs (hp : p.Returns) {i : Int} (hi : position.CountsAs i)
    (h : p.Advances s position m) : ∃ j, m.next.CountsAs j ∧ i < j := by
  obtain ⟨payload, hr, hsplit, hle⟩ := h
  cases hx : m.next.number? with
  | none => simp [Value.lessEq, Value.toNumber, Value.orWrongKind, hx, bind, Except.bind] at hle
  | some x =>
    obtain ⟨j, rfl⟩ := hp.counts hi hr hsplit hx
    have hj : m.next.CountsAs j := hx
    rw [hj.lessEq hi] at hle
    exact ⟨j, hj, by simpa using hle⟩

theorem exists_countsAs_of_successive (hp : p.Returns) {ms : List Match} {d : Value}
    (h : p.Successive s position ms d) {i : Int} (hi : position.CountsAs i) :
    ∃ j, d.CountsAs j := by
  induction h generalizing i with
  | nil c => exact ⟨i, hi⟩
  | cons hm _ ih =>
    obtain ⟨j, hj, -⟩ := hp.exists_countsAs hi hm
    exact ih hj

/-- What a probe **tells about distances**: where it finds a match, the maximum is not reached, and
the match ends further on and not beyond the maximum. -/
theorem distance_of_probe (hp : p.Returns) {i : Int} {d : Nat} (hi : start.CountsAs i)
    (hd : position.CountsAs (i + d))
    (h : (p.probe s max start position).outcome = .ok (some m)) :
    ∃ d' : Nat, d < d' ∧ m.next.CountsAs (i + d') ∧ (Number.int d).less max ∧
      max.less (.int d') = false := by
  obtain ⟨⟨e, he, hless⟩, hadvances, e', he', hmax⟩ := probe_eq_some_iff.mp h
  obtain ⟨j, hj, hlt⟩ := hp.exists_countsAs hd hadvances
  obtain ⟨d', rfl⟩ : ∃ d' : Nat, j = i + d' := ⟨(j - i).toNat, by omega⟩
  rw [hd.minus hi, show i + d - i = (d : Int) by omega] at he
  rw [hj.minus hi, show i + d' - i = (d' : Int) by omega] at he'
  obtain rfl := Except.ok.inj he
  obtain rfl := Except.ok.inj he'
  exact ⟨d', by omega, hj, hless, hmax⟩

end Returns

end Parser

end CursorParsers
