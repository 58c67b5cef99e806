import CursorParsers.Log

/-!
# Nested logs

Traced parsers that run inside one another leave records that nest like brackets: what the inner
ones leave lies between the record of entering the outer one and the record of its outcome. Names
need not be different, so it is by its depth that a record belongs to a parser, and a log is nested
with respect to the names from the outermost to the innermost.

A log that is cut short is nested up to some records of entering that nothing closes. These are the
parsers that were entered and not yet left, again from the outermost on.

## Main definitions

* `Record.Closes`: the record of an outcome
* `Nested`: a log in which every parser that was entered has been left
* `Unclosed`: a log in which some parsers have not been left

## Main results

* `Nested.append`: nested logs one after another
* `Unclosed.append_left`: what has been left before
* `Unclosed.exists_nested`: a log that is cut short is the front of a nested one
-/

namespace CursorParsers

/-- The record of an outcome of a traced parser that was entered at a position: a match that
ends there or further on, or a failure at the same position. -/
inductive Record.Closes (name : String) (c : Int) : Record → Prop
  | matched (v : Value) {n : Int} (h : c ≤ n) : Closes name c (.matched name v (.int n))
  | failed (e : Value) : Closes name c (.failed name (.int c) e)

/-- A nested log of traced parsers with these names, the outermost first: one invocation of the
outermost parser after another, and between the two records of each a nested log of the others. -/
inductive Nested : List String → List Record → Prop
  | nil (names : List String) : Nested names []
  | invocation {name : String} {names : List String} {c : Int} {inner rest : List Record}
      {out : Record} (hinner : Nested names inner) (hout : out.Closes name c)
      (hrest : Nested (name :: names) rest) :
      Nested (name :: names) (.entered name (.int c) :: (inner ++ out :: rest))

/-- A log that is cut short: the parsers with the names in `opened` have been entered, each
inside the one before, and not been left. Up to each of these records, and after the last, the log
is nested. -/
inductive Unclosed : List String → List String → List Record → Prop
  | closed {inner : List String} {rs : List Record} (h : Nested inner rs) : Unclosed [] inner rs
  | entered {name : String} {opened inner : List String} {c : Int} {done rs : List Record}
      (hdone : Nested (name :: (opened ++ inner)) done) (h : Unclosed opened inner rs) :
      Unclosed (name :: opened) inner (done ++ .entered name (.int c) :: rs)

variable {names opened inner : List String} {rs rs' : List Record}

/-- **Nested logs** one after another make a nested log. -/
theorem Nested.append (h : Nested names rs) (h' : Nested names rs') : Nested names (rs ++ rs') := by
  induction h with
  | nil names => exact h'
  | invocation hinner hout _ _ ihrest =>
    rw [List.cons_append, List.append_assoc, List.cons_append]
    exact .invocation hinner hout (ihrest h')

theorem Nested.singleton {name : String} {c : Int} {out : Record} (h : Nested names rs)
    (hout : out.Closes name c) :
    Nested (name :: names) (.entered name (.int c) :: (rs ++ [out])) :=
  .invocation h hout (.nil _)

/-- A nested log **before** one that is cut short. -/
theorem Unclosed.append_left (h : Unclosed opened inner rs)
    (hdone : Nested (opened ++ inner) rs') : Unclosed opened inner (rs' ++ rs) := by
  rcases h with hrs | ⟨hdone', hrs⟩
  · exact .closed (hdone.append hrs)
  · rw [← List.append_assoc]
    exact .entered (hdone.append hdone') hrs

/-- A log that is cut short is the **front of a nested one**, which has one record more for each
parser that has not been left. -/
theorem Unclosed.exists_nested (h : Unclosed opened inner rs) :
    ∃ rest, rest.length = opened.length ∧ Nested (opened ++ inner) (rs ++ rest) := by
  induction h with
  | closed h => exact ⟨[], rfl, by rwa [List.append_nil]⟩
  | @entered name opened inner c done rs hdone _ ih =>
    -- The outermost parser is left last, after all that are inside it.
    obtain ⟨rest, hlen, hnested⟩ := ih
    refine ⟨rest ++ [.failed name (.int c) .absent], by simp [hlen], ?_⟩
    rw [List.append_assoc, List.cons_append, List.cons_append, ← List.append_assoc rs]
    exact hdone.append (hnested.singleton (.failed .absent))

end CursorParsers
