import CursorParsers.Proofs.Chain.Invariant
import CursorParsers.Proofs.Repetition.Rounds
import CursorParsers.Proofs.Run.Alike

/-!
# Invocations

How many times a repetition runs its parser is not part of its answer. It is seen from a parser that
gives the same answers, but leaves exactly one record each time it is run.

## Main definitions

* `Parser.below`: where a repetition runs its parser
* `Parser.tallied`: the parser that leaves a record for each time it is run
* `Parser.invocations`: how many times a repetition runs its parser

## Main results

* `Parser.records_probe`, `Parser.outcome_probe_congr`: what a probe shows of its parser
* `Parser.length_records_advances_le`: a budget for the records of a repetition
-/

namespace CursorParsers

namespace Run

variable {α β : Type}

theorem records_bind_of_forall {x : Run α} {f : α → Run β} (hf : ∀ a, (f a).records = []) :
    (x >>= f).records = x.records := by
  cases hx : x.outcome with
  | ok a => rw [records_bind_of_ok hx, hf, List.append_nil]
  | error e => rw [bind_of_error hx]

theorem records_ofExcept (x : Except Fault α) : (ofExcept x).records = [] := by
  cases x with
  | ok a => rfl
  | error cause => rfl

/-- The outcome of a composite run depends on the outcomes of its parts only. -/
theorem outcome_bind_congr {x y : Run α} {f g : α → Run β} (hxy : x.outcome = y.outcome)
    (hfg : ∀ a, (f a).outcome = (g a).outcome) : (x >>= f).outcome = (y >>= g).outcome := by
  rw [← alike_eq_iff] at hxy ⊢
  refine hxy.bind fun a b hab => ?_
  rw [hab, alike_eq_iff]
  exact hfg b

end Run

namespace Parser

variable {p q : Parser} {s : Stream} {max : Number} {start position : Value}

/-! ### Where a probe runs its parser -/

/-- Whether a repetition that has come to a position is below its maximum. -/
def below (max : Number) (start position : Value) : Bool :=
  match position.minus start with
  | .ok consumed => consumed.less max
  | .error _ => false

@[simp] theorem below_int (max : Number) (c d : Int) :
    below max (.int c) (.int d) = (Number.int (d - c)).less max := rfl

/-- What a repetition makes of an answer of its parser: a match to use, or none. -/
def consider (max : Number) (start position : Value) : Reply → Run (Option Match)
  | .ok payload => Run.ofExcept do
      let (v, n) ← payload.split
      accept max start position ⟨v, n⟩
  | .err _ => pure none

theorem probe_of_below (h : below max start position) :
    p.probe s max start position = p.run s position >>= consider max start position := by
  rw [below] at h
  split at h
  next consumed hconsumed =>
    rw [probe, hconsumed, Run.ofExcept_ok, pure_bind, if_pos h]
    rfl
  next => cases h

theorem probe_of_not_below (h : below max start position = false) :
    p.probe s max start position = Run.ofExcept (position.minus start) >>= fun _ => pure none := by
  rw [below] at h
  split at h
  next consumed hconsumed =>
    rw [probe, hconsumed, Run.ofExcept_ok, pure_bind, pure_bind, h]
    rfl
  next cause hcause =>
    rw [probe, hcause]
    rfl

theorem records_consider (r : Reply) : (consider max start position r).records = [] := by
  cases r with
  | ok payload => exact Run.records_ofExcept _
  | err e => rfl

/-- The **records** of a probe are those of the parser if it is below the maximum. -/
theorem records_probe : (p.probe s max start position).records =
    if below max start position then (p.run s position).records else [] := by
  split
  next h =>
    rw [probe_of_below h, Run.records_bind_of_forall records_consider]
  next h =>
    rw [probe_of_not_below (Bool.eq_false_iff.mpr h), Run.records_bind_of_forall fun _ => rfl,
      Run.records_ofExcept]

/-- The **outcome** of a probe is settled by that of the parser, and by that only below the
maximum. -/
theorem outcome_probe_congr
    (h : below max start position → (q.run s position).outcome = (p.run s position).outcome) :
    (q.probe s max start position).outcome = (p.probe s max start position).outcome := by
  by_cases hbelow : below max start position
  · rw [probe_of_below hbelow, probe_of_below hbelow]
    exact Run.outcome_bind_congr (h hbelow) fun _ => rfl
  · rw [probe_of_not_below (Bool.eq_false_iff.mpr hbelow),
      probe_of_not_below (Bool.eq_false_iff.mpr hbelow)]

/-! ### Tallying -/

/-- The parser that leaves one record each time it is run, and no other. -/
def tallied (p : Parser) : Parser where
  run s c := ⟨[.entered "" c], (p.run s c).outcome⟩
  rounds := p.rounds

/-- How many times a repetition runs its parser. -/
def invocations [Repertoire] (p : Parser) (b : Range) (s : Stream) (start : Value) : Nat :=
  ((p.tallied.range b).run s start).records.length

theorem Keeps.tallied [Repertoire] {E : Fault → Prop} {Q : Condition} (hp : p.Keeps E Q) :
    p.tallied.Keeps E Q where
  ensures s c := by
    refine ⟨fun r hr => ?_, (hp.ensures s c).ends⟩
    obtain rfl := List.mem_singleton.mp hr
    exact ⟨_, rfl⟩
  rounds := hp.rounds

/-! ### Counting -/

theorem length_records_probe_tallied_le (p : Parser) (s : Stream) (max : Number)
    (start position : Value) : (p.tallied.probe s max start position).records.length ≤ 1 := by
  rw [records_probe]
  split
  next => exact Nat.le_refl 1
  next => exact Nat.zero_le 1

/-- A **budget** for the records of a repetition: if every probe stays within it, and the next
position has a budget that is less by the records of the probe, then the repetition stays within. -/
theorem length_records_advances_le {I : Nat → Value → Prop}
    (hI : ∀ n c, I n c → (p.probe s max start c).records.length ≤ n ∧
      ∀ m, (p.probe s max start c).outcome = .ok (some m) →
        ∃ n', I n' m.next ∧ (p.probe s max start c).records.length + n' ≤ n)
    {n : Nat} (h : I n position) (k : Nat) :
    (p.advances s max start k position).records.length ≤ n := by
  induction k generalizing n position with
  | zero =>
    rw [advances, Run.records_bind_of_forall]
    · exact (hI n position h).1
    · rintro (_ | m)
      · rfl
      · rfl
  | succ k ih =>
    cases ho : (p.probe s max start position).outcome with
    | error e =>
      rw [advances_of_probe_error ho]
      exact (hI n position h).1
    | ok found =>
      cases found with
      | none =>
        rw [advances_of_probe_none ho]
        exact (hI n position h).1
      | some m =>
        obtain ⟨n', hn', hle⟩ := (hI n position h).2 m ho
        have hrest := ih hn'
        rw [advances_succ_of_probe_some ho, Run.records_bind_of_ok ho, List.length_append,
          Run.records_map]
        omega

theorem invocations_eq [Repertoire] (p : Parser) (b : Range) (s : Stream) (start : Value) :
    p.invocations b s start =
      (p.tallied.advances s b.max start (p.allowance b s start) start).records.length :=
  congrArg List.length (Run.records_bind_of_forall fun _ => Run.records_ofExcept _)

end Parser

end CursorParsers
