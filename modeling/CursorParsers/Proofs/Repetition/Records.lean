import CursorParsers.Proofs.Chain.Invariant
import CursorParsers.Proofs.Run.Leaving

/-!
# What a repetition leaves

A repetition leaves no records of its own. Its records are those of the probes one after another,
so whatever passes from two sequences of records to the one that joins them passes from the parser
to its repetition, also if a fault interrupts one of the probes.

## Main results

* `Parser.Keeps.range_leaves`: the records of a repetition
-/

namespace CursorParsers.Parser

variable [Repertoire] {p : Parser} {s : Stream} {E : Fault → Prop} {Q : Condition} {N : List Record → Prop}
  {B : Fault → List Record → Prop} {start position : Int}

/-- The records of a probe are those of the parser, or none. -/
theorem Keeps.probe_leaves (hp : p.Keeps E Q) (max : Number) (hnil : N [])
    (h : (p.run s (.int position)).Leaves N B) :
    (p.probe s max (.int start) (.int position)).Leaves N B := by
  rw [probe, Value.minus_int, Run.ofExcept_ok, pure_bind]
  split
  next =>
    refine h.bind_of_pure fun r hr => ?_
    have hends := (hp.ensures s position).ends
    rw [hr] at hends
    rcases hends with message | @⟨v, n, hq⟩
    · exact ⟨none, rfl⟩
    -- Whether the match is used is decided between integers, without a fault.
    · exact ⟨_, congrArg Run.ofExcept (accept_int max start position n v)⟩
  next => exact .pure hnil

theorem Keeps.advances_leaves (hp : p.Keeps E Q) (max : Number) (hnil : N [])
    (happend : ∀ rs rs', N rs → N rs' → N (rs ++ rs'))
    (hcut : ∀ cause rs rs', N rs → B cause rs' → B cause (rs ++ rs'))
    (h : ∀ c : Int, (p.run s (.int c)).Leaves N B) (k : Nat) :
    (p.advances s max (.int start) k (.int position)).Leaves N B := by
  induction k generalizing position with
  | zero =>
    refine (hp.probe_leaves max hnil (h position)).bind (fun found _ => ?_) happend
      (fun _ _ hb => hb) hcut
    rcases found with _ | m
    · exact .pure hnil
    · exact .of_unfinished rfl
  | succ k ih =>
    refine (hp.probe_leaves max hnil (h position)).bind (fun found hfound => ?_) happend
      (fun _ _ hb => hb) hcut
    rcases found with _ | m
    · exact .pure hnil
    · have hprobe : (p.probe s max (.int start) (.int position)).Ensures E _ :=
        probe_ensures max (hp.ensures s position)
      have hends := hprobe.ends
      rw [hfound] at hends
      obtain ⟨v, n, rfl, -, -⟩ := hends m rfl
      exact ih.map _

/-- The records of a **repetition** meet a condition that holds of no records, and of two sequences
one after another if it holds of both. -/
theorem Keeps.range_leaves (hp : p.Keeps E Q) (b : Range) (hnil : N [])
    (happend : ∀ rs rs', N rs → N rs' → N (rs ++ rs'))
    (hcut : ∀ cause rs rs', N rs → B cause rs' → B cause (rs ++ rs'))
    (h : ∀ c : Int, (p.run s (.int c)).Leaves N B) (c : Int) :
    ((p.range b).run s (.int c)).Leaves N B := by
  refine (hp.advances_leaves b.max hnil happend hcut h _).bind_of_pure fun ms hms => ?_
  have hends := (hp.advances b s c).ends
  rw [hms] at hends
  obtain ⟨stop, path⟩ := hends
  exact ⟨_, by rw [conclude_int path.finish_eq, Run.ofExcept_ok]⟩

end CursorParsers.Parser
