import CursorParsers.Run

/-!
# Replies

What a parser answers at a position: a success with a payload, or a failure with an error. The
payload is to be taken apart into a captured value and the next position. A parse function that is
given from outside may also answer with a payload of any other shape. Such an answer is passed on by
whatever does not look inside, and is a fault for whatever does.

## Main definitions

* `Reply`, `Reply.matched`: the answers, and the one with a captured value and the next position
* `Value.split`: the two parts of a payload
* `Reply.andThen`: going on with the captured value and the next position
* `Reply.orNull`, `Reply.labelled`: answers in which a failure is replaced

## Main results

* `Value.split_union`: a union of other than two entries is malformed
-/

namespace CursorParsers

namespace Value

/-- The two parts of a value. Any other number of parts makes it malformed. -/
def split (v : Value) : Except Fault (Value × Value) :=
  match v.parts? with
  | Option.some [a, b] => .ok (a, b)
  | Option.some parts => .error (.malformedSuccess parts.length)
  | none => .error .wrongKind

@[simp] theorem split_pair (v w : Value) : (pair v w).split = .ok (v, w) := rfl

/-- A union of **other than two** entries is malformed. -/
theorem split_union {vs : List Value} (h : vs.length ≠ 2) :
    (union vs).split = .error (.malformedSuccess vs.length) := by
  rcases vs with _ | ⟨v, _ | ⟨w, _ | ⟨x, vs⟩⟩⟩
  · rfl
  · rfl
  · exact absurd rfl h
  · rfl

end Value

/-- The answer of a parser at a position. -/
inductive Reply where
  | ok (payload : Value)
  | err (error : Value)

namespace Reply

/-- The success that holds a captured value and the next position. -/
def matched (value next : Value) : Reply := .ok (.pair value next)

/-- Go on with the captured value and next position of a success. A failure is the answer
itself, and a payload that does not split in two is a fault. -/
def andThen (r : Reply) (k : Value → Value → Run Reply) : Run Reply :=
  match r with
  | .ok payload => do
    let (v, n) ← Run.ofExcept payload.split
    k v n
  | .err e => pure (.err e)

/-- An answer in which the unit value, captured on the spot, stands for a failure. -/
def orNull (position : Value) : Reply → Reply
  | .err _ => .matched .null position
  | r => r

/-- An answer whose error, if any, names what was expected. -/
def labelled [Repertoire] (expectation : String) : Reply → Reply
  | .err e => .err (.text ("Expected " ++ expectation ++ ": " ++ e.display))
  | r => r

@[simp] theorem orNull_ok (position payload : Value) :
    (Reply.ok payload).orNull position = .ok payload := rfl

@[simp] theorem orNull_err (position e : Value) :
    (Reply.err e).orNull position = .matched .null position := rfl

@[simp] theorem labelled_ok [Repertoire] (expectation : String) (payload : Value) :
    (Reply.ok payload).labelled expectation = .ok payload := rfl

@[simp] theorem andThen_matched (v n : Value) (k : Value → Value → Run Reply) :
    (Reply.matched v n).andThen k = k v n := rfl

@[simp] theorem andThen_err (e : Value) (k : Value → Value → Run Reply) :
    (Reply.err e).andThen k = pure (.err e) := rfl

theorem andThen_of_split {payload : Value} {cause : Fault} (h : payload.split = .error cause)
    (k : Value → Value → Run Reply) : (Reply.ok payload).andThen k = Run.fault cause := by
  simp [andThen, h]
  rfl

end Reply

end CursorParsers
