import CursorParsers.Reply
import CursorParsers.Value.Transform

/-!
# Parsers

A parser answers at any position of any stream. The parsers here are made from other parsers by
changing what becomes of their answer: tolerating a failure, dropping or transforming the captured
value, naming what was expected, or leaving records.

## Main definitions

* `Parser`: a parse function with a bound on its advances
* `Parser.follow`: the same parser, its answer treated further
* `Parser.optional`, `Parser.discard`, `Parser.label`, `Parser.map`, `Parser.trace`: the treatments
* `Parser.parse`: parsing a text from its first position
-/

namespace CursorParsers

/-- A parse function, and a bound on how many times in a row it can advance when each run starts
where the one before has ended. Only a repetition looks at it. -/
structure Parser where
  run : Stream → Value → Run Reply
  rounds : Stream → Value → Nat

namespace Parser

/-- The parser whose answer is treated further, given the position where it was asked for. -/
def follow (p : Parser) (treat : Value → Reply → Run Reply) : Parser where
  run s c := p.run s c >>= treat c
  rounds := p.rounds

@[simp] theorem run_follow (p : Parser) (treat : Value → Reply → Run Reply) (s : Stream)
    (c : Value) : (p.follow treat).run s c = p.run s c >>= treat c := rfl

/-- The parser that captures the unit value instead of failing, without moving. -/
def optional (p : Parser) : Parser := p.follow fun c r => pure (r.orNull c)

/-- The parser that captures the unit value instead of its own. -/
def discard (p : Parser) : Parser :=
  p.follow fun _ r => r.andThen fun _ n => pure (.matched .null n)

/-- The parser whose errors name what was expected. -/
def label [Repertoire] (expectation : String) (p : Parser) : Parser :=
  p.follow fun _ r => pure (r.labelled expectation)

/-- The parser whose captured value is transformed. -/
def map (f : Transform) (p : Parser) : Parser :=
  p.follow fun _ r => r.andThen fun v n => do
    let w ← Run.ofExcept (f v)
    pure (.matched w n)

/-- The record of an answer that a traced parser gave at a position. -/
def report (name : String) (position : Value) (r : Reply) : Run Unit :=
  match r with
  | .ok payload => do
    let (v, n) ← Run.ofExcept payload.split
    Run.log (.matched name v n)
  | .err e => Run.log (.failed name position e)

/-- The parser that records when it is entered and how it comes out. -/
def trace (name : String) (p : Parser) : Parser where
  run s c := do
    Run.log (.entered name c)
    let r ← p.run s c
    report name c r
    pure r
  rounds := p.rounds

/-! ### Equations -/

theorem run_optional (p : Parser) (s : Stream) (c : Value) :
    p.optional.run s c = p.run s c >>= fun r => pure (r.orNull c) := rfl

theorem run_discard (p : Parser) (s : Stream) (c : Value) :
    p.discard.run s c = p.run s c >>= fun r => r.andThen fun _ n => pure (.matched .null n) := rfl

theorem run_label [Repertoire] (expectation : String) (p : Parser) (s : Stream) (c : Value) :
    (p.label expectation).run s c = p.run s c >>= fun r => pure (r.labelled expectation) := rfl

theorem run_map (f : Transform) (p : Parser) (s : Stream) (c : Value) :
    (p.map f).run s c = p.run s c >>= fun r => r.andThen fun v n =>
      Run.ofExcept (f v) >>= fun w => pure (.matched w n) := rfl

theorem run_trace (name : String) (p : Parser) (s : Stream) (c : Value) :
    (p.trace name).run s c =
      Run.log (.entered name c) >>= fun _ => p.run s c >>= fun r =>
        report name c r >>= fun _ => pure r := rfl

/-! ### Whole texts -/

/-- The record of an answer for a whole text of a given length. -/
def summary (length : Nat) : Reply → Record
  | .ok payload => .parsed length payload
  | .err e => .notParsed e

/-- The answer of a parser for a text, at its first position. -/
def parse (p : Parser) (s : String) : Run Reply := do
  let r ← p.run (.ofText s) (.int 1)
  Run.log (summary s.length r)
  pure r

end Parser

end CursorParsers
