import Mathlib.Data.List.Forall2
import CursorParsers.Parser.Repetition
import CursorParsers.Proofs.Run.Alike

/-!
# Repetitions in lockstep

Two repetitions whose probes come out alike, as long as their positions are in relation, use
matches that correspond one by one. What they captured and where they end then corresponds too.

## Main results

* `Parser.advances_alike`: repetitions whose probes come out alike
* `Parser.finish_rel`, `Parser.captured_eq_of_forall₂`: what matches that correspond make up
-/

namespace CursorParsers.Parser

variable {p q : Parser} {s t : Stream} {max max' : Number} {start start' c d : Value}
  {I : Value → Value → Prop} {R : Match → Match → Prop}

/-- Two repetitions run **in lockstep** if from positions in relation their probes come out alike
and lead to positions in relation. -/
theorem advances_alike
    (hprobe : ∀ c d, I c d → (p.probe s max start c).Alike
      (Option.Rel fun m m' => R m m' ∧ I m.next m'.next) (q.probe t max' start' d))
    (h : I c d) (k : Nat) :
    (p.advances s max start k c).Alike (List.Forall₂ fun m m' => R m m' ∧ I m.next m'.next)
      (q.advances t max' start' k d) := by
  induction k generalizing c d with
  | zero =>
    refine (hprobe c d h).bind fun found found' hr => ?_
    cases hr with
    | none => exact .pure .nil
    -- A match for which no round is left leaves both runs unfinished.
    | some _ => exact .of_error rfl rfl
  | succ k ih =>
    refine (hprobe c d h).bind fun found found' hr => ?_
    cases hr with
    | none => exact .pure .nil
    | some hm => exact (ih hm.2).map fun _ _ hms => .cons hm hms

theorem finish_rel {ms ms' : List Match} (h : I c d)
    (hms : List.Forall₂ (fun m m' => I m.next m'.next) ms ms') :
    I (finish c ms) (finish d ms') := by
  induction hms generalizing c d with
  | nil => exact h
  | cons hm _ ih =>
    rw [finish_cons, finish_cons]
    exact ih hm

theorem captured_eq_of_forall₂ [Repertoire] {ms ms' : List Match}
    (hms : List.Forall₂ (fun m m' => m.value = m'.value) ms ms') : captured ms = captured ms' := by
  induction hms with
  | nil => rfl
  | cons hm _ ih => rw [captured_cons, captured_cons, hm, ih]

end CursorParsers.Parser
