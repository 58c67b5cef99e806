import CursorParsers.Parser.Repetition
import CursorParsers.Proofs.Run.Postcondition
import CursorParsers.Proofs.Stream.Rest

/-!
# Paths of a repetition

The matches that a repetition uses lead from its start to its end, each from where the one before
has ended. What each of them keeps to is the invariant of the repetition, and since no match leaves
the text, as many rounds as there are characters left suffice.

## Main definitions

* `Reply.Meets`: an answer that is a failure with a text, or a match under a condition
* `Path`: matches that lead from a position to another

## Main results

* `Parser.advances_ensures`: a repetition follows a path, and comes to an end
-/

namespace CursorParsers

/-- An answer that is a failure with a text, or a match that ends at an integer position and
meets a condition. -/
inductive Reply.Meets (Q : Value → Int → Prop) : Reply → Prop
  | err (message : String) : Meets Q (.err (.text message))
  | matched {v : Value} {n : Int} (h : Q v n) : Meets Q (.matched v (.int n))

theorem Reply.Meets.mono {Q Q' : Value → Int → Prop} {r : Reply} (h : r.Meets Q)
    (hQ : ∀ v n, Q v n → Q' v n) : r.Meets Q' := by
  cases h with
  | err message => exact .err message
  | matched h => exact .matched (hQ _ _ h)

/-- Matches that lead from a position to another: each advances, and meets a condition on where
it starts, what it captures and where it ends. -/
inductive Path (Q : Int → Value → Int → Prop) : Int → List Match → Int → Prop
  | nil (c : Int) : Path Q c [] c
  | cons {c n d : Int} {v : Value} {ms : List Match} (h : Q c v n) (hcn : c < n)
      (rest : Path Q n ms d) : Path Q c (⟨v, .int n⟩ :: ms) d

namespace Path

variable {Q : Int → Value → Int → Prop} {c d : Int} {ms : List Match}

theorem finish_eq (h : Path Q c ms d) : Parser.finish (.int c) ms = .int d := by
  induction h with
  | nil c => rfl
  | cons _ _ _ ih => rw [Parser.finish_cons, ih]

theorem moves {s : Stream} (h : Path Q c ms d) (hQ : ∀ c v n, Q c v n → s.Moves c n) :
    s.Moves c d := by
  induction h with
  | nil c => exact .refl s c
  | cons h _ _ ih => exact (hQ _ _ _ h).trans ih

end Path

namespace Parser

variable {p : Parser} {s : Stream} {E : Fault → Prop} {Q : Int → Value → Int → Prop}
  {start position : Int}

/-- A probe finds nothing, or a match of the parser that advances. -/
theorem probe_ensures [Repertoire] (max : Number)
    (hp : (p.run s (.int position)).Ensures E (Reply.Meets (Q position))) :
    (p.probe s max (.int start) (.int position)).Ensures E fun found =>
      ∀ m ∈ found, ∃ v n, m = ⟨v, .int n⟩ ∧ Q position v n ∧ position < n := by
  rw [probe, Value.minus_int, Run.ofExcept_ok, pure_bind]
  split
  next =>
    refine hp.bind fun r hr => ?_
    cases hr with
    | err message => exact .pure (by simp)
    | @matched v n h =>
      refine .ofExcept (fun found hf => ?_) (fun cause hf => ?_)
      · rw [Value.split_pair] at hf
        simp only [bind, Except.bind, accept_int] at hf
        obtain rfl := Except.ok.inj hf
        intro m hm
        split at hm
        next hn =>
          obtain rfl := Option.some.inj hm
          exact ⟨v, n, rfl, h, hn.1⟩
        next => simp at hm
      · rw [Value.split_pair] at hf
        simp [bind, Except.bind, accept_int] at hf
  next => exact .pure (by simp)

/-- A repetition of a parser whose matches do not leave the text **follows a path**. It comes to
an end within as many rounds as there are characters left. -/
theorem advances_ensures [Repertoire] (max : Number)
    (hp : ∀ c, (p.run s (.int c)).Ensures E (Reply.Meets (Q c)))
    (hQ : ∀ c v n, Q c v n → s.Moves c n) {k : Nat} (hk : s.remaining position ≤ k) :
    (p.advances s max (.int start) k (.int position)).Ensures E fun ms =>
      ∃ stop, Path Q position ms stop := by
  induction k generalizing position with
  | zero =>
    refine (probe_ensures max (hp position)).bind fun found hf => ?_
    cases found with
    | none => exact .pure ⟨position, .nil position⟩
    | some m =>
      -- Where no character is left, no match can advance.
      obtain ⟨v, n, -, h, hn⟩ := hf m rfl
      have := (hQ position v n h).remaining_lt hn
      omega
  | succ k ih =>
    refine (probe_ensures max (hp position)).bind fun found hf => ?_
    cases found with
    | none => exact .pure ⟨position, .nil position⟩
    | some m =>
      obtain ⟨v, n, rfl, h, hn⟩ := hf m rfl
      have hlt := (hQ position v n h).remaining_lt hn
      have hleft : s.remaining n ≤ k := by omega
      refine (ih hleft).map ?_
      rintro ms ⟨stop, path⟩
      exact ⟨stop, .cons h hn path⟩

end Parser

end CursorParsers
