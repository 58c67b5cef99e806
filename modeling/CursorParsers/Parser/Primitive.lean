import CursorParsers.Charset
import CursorParsers.Failure
import CursorParsers.Parser.Basic
import CursorParsers.Position

/-!
# Primitive parsers

The parsers that read a stream themselves. Each answers by looking at the characters from its
position on, and leaves no records.

## Main definitions

* `Primitive`: the primitive parsers, as data
* `Primitive.read`: what a primitive captures at a position, and where it ends
* `Primitive.parser`: a primitive as a parser

## Main results

* `Primitive.exists_read_int`: at an integer position a primitive meets no fault
-/

namespace CursorParsers

/-- A parser that reads the stream itself. -/
inductive Primitive where
  /-- Captures nothing anywhere. -/
  | empty
  /-- Captures nothing at the end of the text. -/
  | endOfInput
  /-- Any one character. -/
  | anyChar
  /-- One character that passes a test. -/
  | satisfying (test : Char → Bool)
  /-- One character of a charset. -/
  | oneOf (cs : Charset)
  /-- The characters of a text, one after another. -/
  | literal (s : String)

namespace Primitive

/-- What a primitive finds: a captured value and the position after it, or a failure. -/
abbrev Finding := Except Failure (Value × Value)

/-- One character that passes a test, or the failure for one that does not. -/
def readChar (test : Char → Bool) (reject : Char → Failure) (s : Stream) (position : Value) :
    Except Fault Finding := do
  match ← s.fetchAt position with
  | .error reason => return .error (.missing reason)
  | .ok c =>
    if test c then return .ok (.ofChar c, ← position.plus 1) else return .error (reject c)

/-- Nothing, where the text ends. -/
def readEnd (s : Stream) (position : Value) : Except Fault Finding := do
  match ← s.fetchAt position with
  | .ok c => return .error (.notAtEnd c)
  | .error .endOfInput => return .ok (.null, position)
  | .error .invalidState => return .error (.missing .invalidState)

/-- Whether the characters from a position on are the given ones. The first that is missing or
differs makes the failure. -/
def expectChars (literal : String) (s : Stream) :
    List Char → Value → Except Fault (Except Failure Unit)
  | [], _ => .ok (.ok ())
  | e :: es, position => do
    match ← s.fetchAt position with
    | .error reason => return .error (.literalCut reason literal)
    | .ok c =>
      if c = e then expectChars literal s es (← position.plus 1)
      else return .error (.literalDiffers e c literal)

/-- A literal, and the position after its last character. -/
def readLiteral (literal : String) (s : Stream) (position : Value) : Except Fault Finding := do
  match ← expectChars literal s literal.toList position with
  | .error failure => return .error failure
  | .ok () => return .ok (.text literal, ← position.plus literal.length)

/-- What a primitive finds at a position. -/
def read : Primitive → Stream → Value → Except Fault Finding
  | .empty, _, position => .ok (.ok (.null, position))
  | .endOfInput, s, position => readEnd s position
  | .anyChar, s, position => readChar (fun _ => true) .rejected s position
  | .satisfying test, s, position => readChar test .rejected s position
  | .oneOf cs, s, position => readChar cs.accepts (.notInCharset cs.text) s position
  | .literal t, s, position => readLiteral t s position

/-- A finding as an answer. -/
def reply : Finding → Reply
  | .ok (v, n) => .matched v n
  | .error failure => .err (.text failure.message)

/-- A primitive as a parser. Since it never ends more than one past the last character, it
advances at most as many times as there are characters left. -/
def parser (p : Primitive) : Parser where
  run s c := Run.ofExcept ((p.read s c).map reply)
  rounds := Stream.remainingFrom

/-! ### Integer positions -/

theorem readChar_int (test : Char → Bool) (reject : Char → Failure) (s : Stream) (n : Int) :
    readChar test reject s (.int n) =
      .ok (match s.fetch n with
        | .error reason => .error (.missing reason)
        | .ok c => if test c then .ok (.ofChar c, .int (n + 1)) else .error (reject c)) := by
  simp only [readChar, Stream.fetchAt_int, Value.plus_int, bind, Except.bind, pure, Except.pure]
  cases s.fetch n with
  | error reason => rfl
  | ok c => cases h : test c <;> simp [h]

theorem readEnd_int (s : Stream) (n : Int) :
    readEnd s (.int n) =
      .ok (match s.fetch n with
        | .ok c => .error (.notAtEnd c)
        | .error .endOfInput => .ok (.null, .int n)
        | .error .invalidState => .error (.missing .invalidState)) := by
  simp only [readEnd, Stream.fetchAt_int, bind, Except.bind, pure, Except.pure]
  rcases s.fetch n with (_ | _) | c <;> rfl

theorem expectChars_cons_int (literal : String) (s : Stream) (e : Char) (es : List Char)
    (n : Int) :
    expectChars literal s (e :: es) (.int n) =
      match s.fetch n with
      | .error reason => .ok (.error (.literalCut reason literal))
      | .ok c =>
        if c = e then expectChars literal s es (.int (n + 1))
        else .ok (.error (.literalDiffers e c literal)) := by
  simp only [expectChars, Stream.fetchAt_int, Value.plus_int, bind, Except.bind, pure, Except.pure]

theorem exists_expectChars_int (literal : String) (s : Stream) (es : List Char) (n : Int) :
    ∃ r, expectChars literal s es (.int n) = .ok r := by
  induction es generalizing n with
  | nil => exact ⟨_, rfl⟩
  | cons e es ih =>
    rw [expectChars_cons_int]
    rcases s.fetch n with reason | c
    · exact ⟨_, rfl⟩
    · by_cases h : c = e
      · simpa [h] using ih (n + 1)
      · exact ⟨_, if_neg h⟩

/-- At an **integer position** a primitive meets no fault. -/
theorem exists_read_int (p : Primitive) (s : Stream) (n : Int) :
    ∃ found, p.read s (.int n) = .ok found := by
  cases p with
  | empty => exact ⟨_, rfl⟩
  | endOfInput => exact ⟨_, readEnd_int s n⟩
  | anyChar => exact ⟨_, readChar_int _ _ s n⟩
  | satisfying test => exact ⟨_, readChar_int _ _ s n⟩
  | oneOf cs => exact ⟨_, readChar_int _ _ s n⟩
  | literal t =>
    obtain ⟨r, hr⟩ := exists_expectChars_int t s t.toList n
    simp only [read, readLiteral, hr, Value.plus_int, bind, Except.bind]
    cases r <;> exact ⟨_, rfl⟩

end Primitive

end CursorParsers
