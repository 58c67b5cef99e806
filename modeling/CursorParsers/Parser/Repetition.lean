import CursorParsers.Failure
import CursorParsers.Parser.Basic
import CursorParsers.Value.Arithmetic

/-!
# Repetition

A repetition runs a parser again and again, each time where the run before has ended, and captures
the concatenation of what was captured. It is greedy: it stops only at a failure, at a match that
does not advance, or where the range ends. A match that reaches beyond the maximum is not used.
Too little consumed makes the repetition fail.

## Main definitions

* `Match`: a captured value and the position after it
* `Parser.probe`: one run within a repetition
* `Parser.advances`: the matches of a repetition, in order, within a number of rounds
* `Parser.conclude`: the answer that the matches make up
* `Parser.range`: the repetition

## Main results

* `Parser.probe_of_matched`, `Parser.conclude_int`: between integer positions a repetition counts
  characters by integer subtraction
-/

namespace CursorParsers

/-- One match of a repetition: what it captured, and where it ended. -/
structure Match where
  value : Value
  next : Value

/-- What a captured value contributes to the text of a repetition: nothing for the unit value,
and the display form of any other. -/
def Value.fragment [Repertoire] : Value → String
  | .null => ""
  | v => v.display

@[simp] theorem Value.fragment_null [Repertoire] : Value.null.fragment = "" := rfl

@[simp] theorem Value.fragment_text [Repertoire] (s : String) : (Value.text s).fragment = s := rfl

namespace Parser

/-- A match of a repetition that has started at `start` and come to `position`, unless it is not
used: one that does not advance, or that ends beyond the maximum. -/
def accept (max : Number) (start position : Value) (m : Match) : Except Fault (Option Match) := do
  if ← m.next.lessEq position then return none
  else if max.less (← m.next.minus start) then return none
  else return some m

/-- One probe of a repetition that has started at `start` and come to `position`. There is
none from the maximum on, and a failure is no match. -/
def probe (p : Parser) (s : Stream) (max : Number) (start position : Value) :
    Run (Option Match) := do
  let consumed ← Run.ofExcept (position.minus start)
  if consumed.less max then
    match ← p.run s position with
    | .ok payload => Run.ofExcept do
      let (v, n) ← payload.split
      accept max start position ⟨v, n⟩
    | .err _ => pure none
  else pure none

/-- The matches in order from a position on. A match for which no round is left makes the run an
unfinished one. -/
def advances (p : Parser) (s : Stream) (max : Number) (start : Value) :
    (rounds : Nat) → (position : Value) → Run (List Match)
  | 0, position => do
    match ← p.probe s max start position with
    | none => pure []
    | some _ => Run.unfinished
  | rounds + 1, position => do
    match ← p.probe s max start position with
    | none => pure []
    | some m => (m :: ·) <$> advances p s max start rounds m.next

/-- Where a repetition ends. -/
def finish (start : Value) (ms : List Match) : Value := (ms.getLast?.map Match.next).getD start

/-- The text that a repetition captures. -/
def captured [Repertoire] (ms : List Match) : String :=
  String.join (ms.map fun m => m.value.fragment)

@[simp] theorem finish_nil (start : Value) : finish start [] = start := rfl

@[simp] theorem finish_cons (start : Value) (m : Match) (ms : List Match) :
    finish start (m :: ms) = finish m.next ms := by
  cases ms with
  | nil => rfl
  | cons m' ms =>
    cases h : (m' :: ms).getLast? with
    | none => simp at h
    | some l => simp [finish, List.getLast?_cons_cons, h]

theorem captured_cons [Repertoire] (m : Match) (ms : List Match) :
    captured (m :: ms) = m.value.fragment ++ captured ms := by
  simp [captured, String.join_cons]

/-- The answer that the matches of a repetition make up. -/
def conclude [Repertoire] (min : Number) (start : Value) (ms : List Match) :
    Except Fault Reply := do
  let consumed ← (finish start ms).minus start
  if consumed.less min then return .err (.text (Failure.tooShort min consumed).message)
  else return .matched (.text (captured ms)) (finish start ms)

/-- How many matches a repetition can use. Between integers each match consumes a character, so
a finite maximum bounds their number; whatever else there is, is in the parser's own bound. -/
def allowance (p : Parser) (b : Range) (s : Stream) (start : Value) : Nat :=
  b.max.floor?.elim 0 Int.toNat + p.rounds s start

/-- The greedy repetition of a parser, bounded in characters consumed. -/
def range [Repertoire] (b : Range) (p : Parser) : Parser where
  run s c := do
    let ms ← p.advances s b.max c (p.allowance b s c) c
    Run.ofExcept (conclude b.min c ms)
  rounds := p.rounds

/-- From the maximum on, a probe does not run its parser. -/
theorem probe_of_minus_not_less {p : Parser} {s : Stream} {max consumed : Number}
    {start position : Value} (h : position.minus start = .ok consumed)
    (hless : consumed.less max = false) : p.probe s max start position = pure none := by
  rw [probe, h, Run.ofExcept_ok, pure_bind, hless]
  rfl

/-! ### Integer positions -/

theorem accept_int (max : Number) (start position next : Int) (v : Value) :
    accept max (.int start) (.int position) ⟨v, .int next⟩ =
      .ok (if position < next ∧ max.less (.int (next - start)) = false then
        some ⟨v, .int next⟩ else none) := by
  simp only [accept, Value.lessEq_int, Value.minus_int, bind, Except.bind, pure, Except.pure]
  by_cases h : next ≤ position
  · simp [h, Int.not_lt.mpr h]
  · cases hm : max.less (.int (next - start)) <;> simp [h, Int.not_le.mp h]

theorem probe_of_matched {p : Parser} {s : Stream} {max : Number} {start position next : Int}
    {rs : List Record} {v : Value}
    (h : p.run s (.int position) = ⟨rs, .ok (.matched v (.int next))⟩)
    (hm : (Number.int (position - start)).less max) :
    p.probe s max (.int start) (.int position) =
      ⟨rs, .ok (if position < next ∧ max.less (.int (next - start)) = false then
        some ⟨v, .int next⟩ else none)⟩ := by
  simp [probe, hm, h, Run.bind, Reply.matched, bind, Except.bind, accept_int]

theorem probe_of_err {p : Parser} {s : Stream} {max : Number} {start position : Int}
    {rs : List Record} {e : Value} (h : p.run s (.int position) = ⟨rs, .ok (.err e)⟩)
    (hm : (Number.int (position - start)).less max) :
    p.probe s max (.int start) (.int position) = ⟨rs, .ok none⟩ := by
  simp [probe, hm, h, Run.bind_def, Run.bind]

theorem probe_of_not_less {p : Parser} {s : Stream} {max : Number} {start position : Int}
    (hm : (Number.int (position - start)).less max = false) :
    p.probe s max (.int start) (.int position) = pure none :=
  probe_of_minus_not_less (Value.minus_int position start) hm

theorem conclude_int [Repertoire] {min : Number} {start stop : Int} {ms : List Match}
    (h : finish (.int start) ms = .int stop) :
    conclude min (.int start) ms =
      .ok (if (Number.int (stop - start)).less min then
        .err (.text (Failure.tooShort min (.int (stop - start))).message)
      else .matched (.text (captured ms)) (.int stop)) := by
  simp only [conclude, h, Value.minus_int, bind, Except.bind, pure, Except.pure]
  split <;> rfl

end Parser

end CursorParsers
