import CursorParsers.Range
import CursorParsers.Stream

/-!
# Values

What parsers capture, return and report. Besides the plain values there are the **outcomes** `ok`
and `err`, the **optional values** `some` and `nothing`, and the **union**, a fixed sequence of
entries of any kinds that is addressed by position from one.

Two values stand for having nothing to say: `absent` is a missing value, and `null` is the unit
value that a parser captures when it captures nothing.

There are no other values than these. In particular every value can be written: to write one never
fails, and nothing outside this library decides how it is written.

## Main definitions

* `Value`: the values
* `Value.int`, `Value.ofChar`, `Value.pair`: common ones
* `Value.number?`: the number that a value counts as
* `Value.isTrue`: the truth of a value
* `Value.parts?`, `Value.length?`: the entries or characters, and their number
-/

namespace CursorParsers

/-- A value. -/
inductive Value where
  | absent
  | null
  | nothing
  | bool (b : Bool)
  | number (n : Number)
  | text (s : String)
  | list (entries : List Value)
  | tuple (entries : List Value)
  | union (entries : List Value)
  | ok (value : Value)
  | err (error : Value)
  | some (value : Value)
  | stream (s : Stream)
  | range (bounds : Range)

namespace Value

/-- An integer as a value. -/
def int (n : Int) : Value := .number (.int n)

theorem int_inj {m n : Int} : int m = int n ↔ m = n := by simp [int]

/-- A character as a value is a text of length one. -/
def ofChar (c : Char) : Value := .text (String.singleton c)

/-- A union of two entries, the form in which a parser hands on its captured value and the next
position. -/
def pair (v w : Value) : Value := .union [v, w]

/-- An optional value from one that may be missing. -/
def ofOption : Option Value → Value
  | Option.some v => .some v
  | none => .nothing

/-- The number that a value counts as: truth values count as one and zero. -/
def number? : Value → Option Number
  | .bool b => Option.some (.int (if b then 1 else 0))
  | .number n => Option.some n
  | _ => none

/-- The truth of a value: unit values, zeros and empty sequences are false, all else is true. -/
def isTrue : Value → Bool
  | .absent | .null => false
  | .bool b => b
  | .number n => n.value? != Option.some (.ofInt 0)
  | .text s => s != ""
  | .list vs | .tuple vs | .union vs => !vs.isEmpty
  | .stream s => s.length != 0
  | .nothing | .ok _ | .err _ | .some _ | .range _ => true

/-- The parts of a value that can be taken apart: its entries, or the characters of a text. -/
def parts? : Value → Option (List Value)
  | .list vs | .tuple vs | .union vs => Option.some vs
  | .text s => Option.some (s.toList.map ofChar)
  | _ => none

/-- The number of entries or characters, for the values that are sequences. -/
def length? : Value → Option Nat
  | .text s => Option.some s.length
  | .list vs | .tuple vs | .union vs => Option.some vs.length
  | .stream s => Option.some s.length
  | _ => none

end Value

end CursorParsers
