import CursorParsers.Proofs.Chain.Invariant

/-!
# Progress of chains

A chain at an integer position comes to an end, whatever its bounds are. Nothing but a
transformation of its own can make it end in a fault. It answers with a text as error, or with a
captured value and an integer as the next position, and that position is the same one or lies
further on within the text.

## Main definitions

* `Chain.Raises`: the faults that the transformations of a chain end in

## Main results

* `Chain.keeps_within`: a chain does not leave the text
* `Chain.progress`: what a chain answers at an integer position
-/

namespace CursorParsers.Chain

/-- A fault that a transformation of the chain ends in. -/
def Raises (chain : Chain) (cause : Fault) : Prop :=
  ∃ f v, .map f ∈ chain.steps ∧ f v = .error cause

/-- A chain **does not leave the text**, and only its transformations end in a fault. -/
theorem keeps_within [Repertoire] (chain : Chain) :
    chain.parser.Keeps chain.Raises fun _ _ _ _ => True := by
  have hbase := (chain.base.keeps_captures chain.Raises).mono fun _ _ _ _ _ => trivial
  refine hbase.extend fun step hstep => ?_
  cases step with
  | optional => exact fun _ _ => trivial
  | discard => exact fun _ _ _ _ _ => trivial
  | range b => exact fun _ _ _ _ _ => trivial
  | label t => trivial
  | trace name => trivial
  | map f => exact ⟨fun v cause hf => ⟨f, v, hstep, hf⟩, fun _ _ _ _ _ _ _ => trivial⟩

/-- **Progress and shape.** At any integer position, also below the first or past the last, a chain
either ends in a fault of one of its transformations, or fails with a text, or matches and ends at
the same position or further on, one past the last character at most. Its log can be written. -/
theorem progress [Repertoire] (chain : Chain) (s : Stream) (c : Int) :
    ((∃ f v cause, .map f ∈ chain.steps ∧ f v = .error cause ∧
          (chain.parser.run s (.int c)).outcome = .error (.fault cause)) ∨
        (∃ message, (chain.parser.run s (.int c)).outcome = .ok (.err (.text message))) ∨
        ∃ v n, (chain.parser.run s (.int c)).outcome = .ok (.matched v (.int n)) ∧
          (n = c ∨ 1 ≤ c ∧ c < n ∧ n ≤ s.length + 1)) ∧
      ∀ threshold, (chain.parser.run s (.int c)).heard threshold = chain.parser.run s (.int c) := by
  have hkeeps := chain.keeps_within.ensures s c
  refine ⟨?_, hkeeps.heard⟩
  have hends := hkeeps.ends
  cases ho : (chain.parser.run s (.int c)).outcome with
  | error e =>
    rw [ho] at hends
    cases e with
    | fault cause =>
      obtain ⟨f, v, hmem, hf⟩ := hends
      exact .inl ⟨f, v, cause, hmem, hf, rfl⟩
    -- A repetition among the steps has had rounds enough.
    | unfinished => exact hends.elim
  | ok r =>
    rw [ho] at hends
    cases hends with
    | err message => exact .inr (.inl ⟨message, rfl⟩)
    | @matched v n h => exact .inr (.inr ⟨v, n, rfl, h.1⟩)

end CursorParsers.Chain
