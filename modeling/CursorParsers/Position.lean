import CursorParsers.Value.Arithmetic

/-!
# Positions

A position in a stream is ordinarily an integer. But a parse function that is given from outside
may name any value as the next position, so a position is a value, and only where it is used does
it have to be a number. Truth values count as one and zero; other numbers than integers can be
compared with the length of a stream, but no character stands there.

## Main definitions

* `Stream.characterAt?`: the character at a position
* `Stream.fetchAt`: the character at a position, or why there is none
* `Stream.remainingFrom`: how many characters are left from a position on
* `Value.entryAt?`: the entry of a union, or the character of a stream, at a position

## Main results

* `Stream.characterAt?_int`, `Stream.fetchAt_int`, `Stream.remainingFrom_int`: integers are the
  positions of the stream itself
-/

namespace CursorParsers

/-- The integer by which entries and characters are counted off. -/
def Value.toIndex (position : Value) : Except Fault Int :=
  match position.number? with
  | Option.some (.int n) => .ok n
  | _ => .error .wrongKind

namespace Stream

/-- The character at a position, if there is one. -/
def characterAt? (s : Stream) (position : Value) : Except Fault (Option Char) := do
  if ← position.lessEq (.int 0) then return none
  else if ← Value.less (.int s.length) position then return none
  else return s.get? (← position.toIndex)

/-- The character at a position, or why there is none. -/
def fetchAt (s : Stream) (position : Value) : Except Fault (Except Missing Char) := do
  if ← Value.less (.int s.length) position then return .error .endOfInput
  else
    match ← s.characterAt? position with
    | some c => return .ok c
    | none => return .error .invalidState

/-- The number of characters from a position on. -/
def remainingFrom (s : Stream) (position : Value) : Nat :=
  (position.number?.bind Number.floor?).elim 0 s.remaining

@[simp] theorem characterAt?_int (s : Stream) (n : Int) :
    s.characterAt? (.int n) = .ok (s.get? n) := by
  have h := @get?_eq_none_iff s n
  simp only [characterAt?, Value.lessEq_int, Value.less_int, bind, Except.bind, pure, Except.pure]
  split
  next h0 => rw [h.mpr (.inl (by simpa using Int.lt_add_one_of_le (of_decide_eq_true h0)))]
  next h0 =>
    split
    next h1 => rw [h.mpr (.inr (of_decide_eq_true h1))]
    next h1 => rfl

@[simp] theorem fetchAt_int (s : Stream) (n : Int) : s.fetchAt (.int n) = .ok (s.fetch n) := by
  simp only [fetchAt, fetch, Value.less_int, characterAt?_int, bind, Except.bind, pure, Except.pure]
  by_cases h : (s.length : Int) < n
  · simp [h]
  · simp only [h, decide_false, Bool.false_eq_true, if_false]
    cases s.get? n <;> rfl

@[simp] theorem remainingFrom_int (s : Stream) (n : Int) :
    s.remainingFrom (.int n) = s.remaining n := by
  simp [remainingFrom, Value.int, Value.number?, Number.floor?, Extended.ofInt, Extended.floor?,
    Rat.floor_intCast]

end Stream

/-- The entry of a union, or the character of a stream, at a position counted from one. -/
def Value.entryAt? (v position : Value) : Except Fault (Option Value) :=
  match v with
  | .union vs => do
    let low ← Value.lessEq (.int 1) position
    let high ← position.lessEq (.int vs.length)
    if low && high then return vs[((← position.toIndex) - 1).toNat]? else return none
  | .stream s => do return (← s.characterAt? position).map ofChar
  | _ => .error .wrongKind

end CursorParsers
