import CursorParsers.Proofs.Chain.Invariant
import CursorParsers.Proofs.Repetition.Rounds
import CursorParsers.Proofs.Run.Alike

/-!
# What a repetition consumes

The matches of a repetition that comes to an end are those of its course, and a parser has only one
course from a position. So it is settled how many characters a repetition consumes, and on that
number alone depends whether it fails.

## Main definitions

* `Parser.Consumes`: how many characters the course of a repetition consumes

## Main results

* `Parser.Consumes.unique`: no repetition consumes two numbers of characters
* `Parser.Keeps.run_range_cases`: the answer of a repetition, by what it consumes
-/

namespace CursorParsers

namespace Parser

variable {p : Parser} {s : Stream} {max : Number} {start position : Value} {ms ms' : List Match}
  {rs rs' : List Record}

/-- The matches of a repetition that comes to an end are those of its course. -/
theorem exists_repeats_of_advances {k : Nat}
    (h : (p.advances s max start k position).outcome = .ok ms) :
    ∃ rs, p.Repeats s max start position ms rs := by
  induction k generalizing position ms with
  | zero =>
    obtain ⟨found, hprobe, hfound⟩ := Run.exists_of_outcome_bind h
    cases found with
    | none =>
      obtain rfl := Except.ok.inj hfound
      exact ⟨_, .stop (Run.eq_of_outcome hprobe)⟩
    | some m => cases hfound
  | succ k ih =>
    obtain ⟨found, hprobe, hfound⟩ := Run.exists_of_outcome_bind h
    cases found with
    | none =>
      obtain rfl := Except.ok.inj hfound
      exact ⟨_, .stop (Run.eq_of_outcome hprobe)⟩
    | some m =>
      dsimp only at hfound
      rw [← bind_pure_comp] at hfound
      obtain ⟨rest, hrest, hms⟩ := Run.exists_of_outcome_bind hfound
      obtain rfl := Except.ok.inj hms
      obtain ⟨rs, hrs⟩ := ih hrest
      exact ⟨_, .more (Run.eq_of_outcome hprobe) hrs⟩

/-- A parser has **one course** from a position. -/
theorem Repeats.unique (h : p.Repeats s max start position ms rs)
    (h' : p.Repeats s max start position ms' rs') : ms = ms' := by
  -- Both are what the repetition does with rounds enough for either.
  have hle := h.advances_of_le (Nat.le_max_left ms.length ms'.length)
  rw [h'.advances_of_le (Nat.le_max_right ms.length ms'.length)] at hle
  exact (Except.ok.inj (congrArg Run.outcome hle)).symm

/-- A repetition from a position consumes `k` characters if its course ends there. -/
def Consumes (p : Parser) (b : Range) (s : Stream) (c : Int) (k : Nat) : Prop :=
  ∃ ms rs, p.Repeats s b.max (.int c) (.int c) ms rs ∧ finish (.int c) ms = .int (c + k)

theorem Consumes.unique {b : Range} {c : Int} {k k' : Nat} (h : p.Consumes b s c k)
    (h' : p.Consumes b s c k') : k = k' := by
  obtain ⟨ms, rs, hms, hend⟩ := h
  obtain ⟨ms', rs', hms', hend'⟩ := h'
  have hdist : Value.int (c + k) = .int (c + k') := by rw [← hend, ← hend', hms.unique hms']
  have hpos := Value.int_inj.mp hdist
  omega

/-- A repetition that has an answer consumes some number of characters, and **fails** if that is
less than the minimum. -/
theorem Keeps.run_range_cases [Repertoire] {E : Fault → Prop} {Q : Condition} (hp : p.Keeps E Q)
    {b : Range} {c : Int} {r : Reply} (h : ((p.range b).run s (.int c)).outcome = .ok r) :
    ∃ k : Nat, p.Consumes b s c k ∧
      ((Number.int k).less b.min = true ∧
          r = .err (.text (Failure.tooShort b.min (.int k)).message) ∨
        (Number.int k).less b.min = false ∧ ∃ v, r = .matched v (.int (c + k))) := by
  obtain ⟨ms, hms, hconclude⟩ := Run.exists_of_outcome_bind h
  obtain ⟨rs, hcourse⟩ := exists_repeats_of_advances hms
  -- The matches lead on, so they end at or behind the position where the repetition starts.
  have hends := (hp.advances b s c).ends
  rw [hms] at hends
  obtain ⟨stop, path⟩ := hends
  have hle : c ≤ stop := (path.moves fun _ _ _ hq => hq.1).le
  obtain ⟨k, rfl⟩ : ∃ k : Nat, stop = c + k := ⟨(stop - c).toNat, by omega⟩
  refine ⟨k, ⟨ms, rs, hcourse, path.finish_eq⟩, ?_⟩
  rw [conclude_int path.finish_eq, Run.ofExcept_ok, Run.outcome_pure, show c + k - c = k by omega]
    at hconclude
  have hr := Except.ok.inj hconclude
  by_cases hless : (Number.int k).less b.min
  · rw [if_pos hless] at hr
    exact .inl ⟨hless, hr.symm⟩
  · rw [if_neg hless] at hr
    exact .inr ⟨Bool.eq_false_iff.mpr hless, _, hr.symm⟩

end Parser

end CursorParsers
