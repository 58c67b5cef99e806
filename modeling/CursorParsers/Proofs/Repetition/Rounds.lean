import CursorParsers.Parser.Repetition

/-!
# Rounds of a repetition

A repetition is given a number of rounds so that it is total. More rounds than it uses make no
difference, so what a repetition does is said by any number that suffices, and also without one:
by the course that its probes take.

## Main definitions

* `Parser.Repeats`: the course of a repetition

## Main results

* `Parser.advances_of_le`: a repetition that comes to an end does so with any more rounds
* `Parser.run_range_of_le`: a repetition may be given more rounds than it allows itself
* `Parser.Repeats.run_range`: a repetition with rounds enough takes its course
-/

namespace CursorParsers

namespace Run

variable {α β : Type} {x : Run α} {f g : α → Run β}

theorem bind_congr_of_ok {a : α} (hx : x.outcome = .ok a) (h : f a = g a) :
    x >>= f = x >>= g := by
  simp only [bind_def, Run.bind, hx, h]

theorem exists_of_outcome_bind {b : β} (h : (x >>= f).outcome = .ok b) :
    ∃ a, x.outcome = .ok a ∧ (f a).outcome = .ok b := by
  cases hx : x.outcome with
  | ok a => exact ⟨a, rfl, by rw [← outcome_bind_of_ok hx, h]⟩
  | error e =>
    rw [bind_of_error hx] at h
    cases h

theorem eq_ok_of_outcome_ofExcept {x : Except Fault α} {a : α}
    (h : (Run.ofExcept x).outcome = .ok a) : x = .ok a := by
  cases x with
  | ok a' => rw [← Except.ok.inj h]
  | error cause => cases h

end Run

namespace Parser

variable {p : Parser} {s : Stream} {max : Number} {start position : Value} {k k' : Nat}

theorem advances_of_probe_error {e : Interrupt}
    (h : (p.probe s max start position).outcome = .error e) (k : Nat) :
    p.advances s max start k position = ⟨(p.probe s max start position).records, .error e⟩ := by
  cases k with
  | zero => exact Run.bind_of_error h _
  | succ k => exact Run.bind_of_error h _

theorem advances_of_probe_none (h : (p.probe s max start position).outcome = .ok none) (k : Nat) :
    p.advances s max start k position = ⟨(p.probe s max start position).records, .ok []⟩ := by
  cases k with
  | zero => simp [advances, Run.bind_def, Run.bind, h]
  | succ k => simp [advances, Run.bind_def, Run.bind, h]

theorem advances_zero_of_probe_some {m : Match}
    (h : (p.probe s max start position).outcome = .ok (some m)) :
    (p.advances s max start 0 position).outcome = .error .unfinished := by
  rw [advances, Run.outcome_bind_of_ok h]
  rfl

theorem advances_succ_of_probe_some {m : Match}
    (h : (p.probe s max start position).outcome = .ok (some m)) (k : Nat) :
    p.advances s max start (k + 1) position =
      p.probe s max start position >>= fun _ =>
        (m :: ·) <$> p.advances s max start k m.next := by
  rw [advances]
  exact Run.bind_congr_of_ok h rfl

theorem advances_succ (h : (p.advances s max start k position).outcome ≠ .error .unfinished) :
    p.advances s max start (k + 1) position = p.advances s max start k position := by
  induction k generalizing position with
  | zero =>
    cases ho : (p.probe s max start position).outcome with
    | error e => rw [advances_of_probe_error ho, advances_of_probe_error ho]
    | ok found =>
      cases found with
      | none => rw [advances_of_probe_none ho, advances_of_probe_none ho]
      -- With a match found and no round left, the repetition has not come to an end.
      | some m => exact absurd (advances_zero_of_probe_some ho) h
  | succ k ih =>
    cases ho : (p.probe s max start position).outcome with
    | error e => rw [advances_of_probe_error ho, advances_of_probe_error ho]
    | ok found =>
      cases found with
      | none => rw [advances_of_probe_none ho, advances_of_probe_none ho]
      | some m =>
        rw [advances_succ_of_probe_some ho, advances_succ_of_probe_some ho]
        rw [advances_succ_of_probe_some ho, Run.outcome_bind_of_ok ho, Run.outcome_map] at h
        rw [ih fun hu => h (by rw [hu]; rfl)]

/-- **More rounds** than suffice make no difference. -/
theorem advances_of_le (h : (p.advances s max start k position).outcome ≠ .error .unfinished)
    (hk : k ≤ k') : p.advances s max start k' position = p.advances s max start k position := by
  induction hk with
  | refl => rfl
  | step _ ih => rw [advances_succ (by rwa [ih]), ih]

theorem run_range_of_le [Repertoire] {b : Range}
    (h : (p.advances s b.max start (p.allowance b s start) start).outcome ≠ .error .unfinished)
    (hk : p.allowance b s start ≤ k) :
    (p.range b).run s start =
      p.advances s b.max start k start >>= fun ms => Run.ofExcept (conclude b.min start ms) := by
  rw [advances_of_le h hk]
  rfl

/-! ### The course of a repetition -/

/-- The course of a repetition from a position on: the matches that it uses, and the records of
all its probes. The last of them finds no match to use. -/
inductive Repeats (p : Parser) (s : Stream) (max : Number) (start : Value) :
    Value → List Match → List Record → Prop
  | stop {c : Value} {rs : List Record} (h : p.probe s max start c = ⟨rs, .ok none⟩) :
      Repeats p s max start c [] rs
  | more {c : Value} {m : Match} {ms : List Match} {rs rs' : List Record}
      (h : p.probe s max start c = ⟨rs, .ok (some m)⟩)
      (rest : Repeats p s max start m.next ms rs') :
      Repeats p s max start c (m :: ms) (rs ++ rs')

namespace Repeats

variable {ms : List Match} {rs : List Record}

theorem advances_of_le (h : Repeats p s max start position ms rs) (hk : ms.length ≤ k) :
    p.advances s max start k position = ⟨rs, .ok ms⟩ := by
  induction h generalizing k with
  | stop h =>
    have ho := congrArg Run.outcome h
    rw [advances_of_probe_none ho, h]
  | more h _ ih =>
    cases k with
    | zero => simp at hk
    | succ k =>
      have ho := congrArg Run.outcome h
      rw [advances_succ_of_probe_some ho, h, ih (by simpa using hk)]
      rfl

theorem length_le (h : Repeats p s max start position ms rs)
    (hk : (p.advances s max start k position).outcome ≠ .error .unfinished) : ms.length ≤ k := by
  induction h generalizing k with
  | stop _ => exact Nat.zero_le k
  | more h _ ih =>
    have ho := congrArg Run.outcome h
    cases k with
    | zero => exact absurd (advances_zero_of_probe_some ho) hk
    | succ k =>
      rw [advances_succ_of_probe_some ho, Run.outcome_bind_of_ok ho, Run.outcome_map] at hk
      exact Nat.succ_le_succ (ih fun hu => hk (by rw [hu]; rfl))

/-- A repetition that comes to an end takes this course. -/
theorem advances_eq (h : Repeats p s max start position ms rs)
    (hk : (p.advances s max start k position).outcome ≠ .error .unfinished) :
    p.advances s max start k position = ⟨rs, .ok ms⟩ :=
  h.advances_of_le (h.length_le hk)

theorem run_range_of_le [Repertoire] {b : Range} (h : Repeats p s b.max start start ms rs)
    (hk : ms.length ≤ p.allowance b s start) :
    (p.range b).run s start =
      ⟨rs, .ok ms⟩ >>= fun ms => Run.ofExcept (conclude b.min start ms) := by
  rw [← h.advances_of_le hk]
  rfl

theorem run_range [Repertoire] {b : Range} (h : Repeats p s b.max start start ms rs)
    (hk : (p.advances s b.max start (p.allowance b s start) start).outcome ≠
      .error .unfinished) :
    (p.range b).run s start =
      ⟨rs, .ok ms⟩ >>= fun ms => Run.ofExcept (conclude b.min start ms) :=
  h.run_range_of_le (h.length_le hk)

end Repeats

end Parser

end CursorParsers
