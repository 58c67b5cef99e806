/-!
# Streams

A stream is a text that is read by position. Positions are integers and count characters from one;
every other position holds no character, and is either past the end or no position at all.

A character is a Unicode scalar value, so a text holds no lone surrogate, and lengths and positions
count scalar values.

## Main definitions

* `Stream`, `Stream.ofText`, `Stream.text`: a text as a stream, and back
* `Stream.get?`: the character at a position
* `Stream.fetch`: the character at a position, or why there is none
* `Stream.remaining`: how many characters are left from a position on

## Main results

* `Stream.get?_eq_some_iff`, `Stream.get?_eq_none_iff`: which positions hold a character
* `Stream.fetch_eq_ok_iff`: fetching finds what looking up finds
-/

namespace CursorParsers

/-- A text that is read by position. -/
structure Stream where
  chars : Array Char
  deriving DecidableEq

/-- Why a position holds no character. -/
inductive Missing where
  | endOfInput
  | invalidState
  deriving DecidableEq

/-- The reason as text. -/
def Missing.message : Missing → String
  | .endOfInput => "End of Input"
  | .invalidState => "Invalid State"

namespace Stream

/-- The stream of a text. -/
def ofText (s : String) : Stream := ⟨s.toList.toArray⟩

/-- The text of a stream. -/
def text (s : Stream) : String := String.ofList s.chars.toList

/-- The number of characters. -/
def length (s : Stream) : Nat := s.chars.size

/-- The character at a position, counted from one. -/
def get? (s : Stream) (position : Int) : Option Char :=
  if 1 ≤ position then s.chars[(position - 1).toNat]? else none

/-- The character at a position, or why there is none. What lies past the end is so whatever the
text, so in an empty text that is already the first position. -/
def fetch (s : Stream) (position : Int) : Except Missing Char :=
  if position > s.length then .error .endOfInput
  else
    match s.get? position with
    | some c => .ok c
    | none => .error .invalidState

/-- The number of characters from a position on, counting positions below the first as well. -/
def remaining (s : Stream) (position : Int) : Nat := (s.length + 1 - position).toNat

/-! ### Basic equations -/

@[simp] theorem text_ofText (s : String) : (ofText s).text = s := by
  simp [ofText, text]

@[simp] theorem ofText_text (s : Stream) : ofText s.text = s := by
  simp [ofText, text]

theorem get?_eq_some_iff {s : Stream} {position : Int} {c : Char} :
    s.get? position = some c ↔
      1 ≤ position ∧ s.chars[(position - 1).toNat]? = some c := by
  simp [get?]

theorem get?_eq_none_iff {s : Stream} {position : Int} :
    s.get? position = none ↔ position < 1 ∨ (s.length : Int) < position := by
  by_cases h : 1 ≤ position
  · simp only [get?, h, if_true, Array.getElem?_eq_none_iff, length]
    omega
  · simp only [get?, h, if_false, true_iff]
    omega

theorem fetch_eq_ok_iff {s : Stream} {position : Int} {c : Char} :
    s.fetch position = .ok c ↔ s.get? position = some c := by
  unfold fetch
  split
  next h =>
    rw [get?_eq_none_iff.mpr (.inr h)]
    simp
  next h => cases s.get? position <;> simp

end Stream

end CursorParsers
