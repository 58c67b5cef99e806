import CursorParsers.Value.Arithmetic

/-!
# The log

Parsers leave records of what they did. A traced parser records that it was entered and how it came
out; parsing a whole text records how that came out. Positions are written as integers in a record,
so one that is no finite number makes a record that cannot be written.

## Main definitions

* `Level`: how grave a record is
* `Record`, `Record.message`: the records, and their texts
* `Record.fault?`: the fault of writing a record
-/

namespace CursorParsers

/-- How grave a record is. -/
inductive Level where
  | debug
  | info
  | warning
  | error
  | critical

namespace Level

/-- The place of a level in their order, from the least grave one. -/
def rank : Level → Nat
  | .debug => 0
  | .info => 1
  | .warning => 2
  | .error => 3
  | .critical => 4

end Level

/-- What a parser reports about a run. -/
inductive Record where
  /-- A traced parser starts at a position. -/
  | entered (name : String) (position : Value)
  /-- A traced parser has captured a value. -/
  | matched (name : String) (value next : Value)
  /-- A traced parser that started at a position has failed. -/
  | failed (name : String) (position error : Value)
  /-- A text of this length has been parsed. -/
  | parsed (length : Nat) (result : Value)
  /-- A text could not be parsed. -/
  | notParsed (error : Value)

namespace Record

/-- The message of a record. Positions are written without a fraction. -/
def message [Repertoire] : Record → Except Fault String
  | .entered name c => do return name ++ ": enter at cursor " ++ toString (← c.truncate)
  | .matched name v n => do
    return name ++ ": matched " ++ v.repr ++ ", next cursor " ++ toString (← n.truncate)
  | .failed name c e => do
    return name ++ ": failed at cursor " ++ toString (← c.truncate) ++ ": " ++ e.display
  | .parsed n v => .ok ("Parsed input of " ++ toString n ++ " chars, result " ++ v.repr)
  | .notParsed e => .ok ("Parse failed: " ++ e.display)

/-- Every record is of the least grave level. -/
def level : Record → Level := fun _ => .debug

/-- The fault of writing a record, if it is at or above a level and cannot be written. -/
def fault? [Repertoire] (threshold : Level) (r : Record) : Option Fault :=
  if threshold.rank ≤ r.level.rank then
    match r.message with
    | .ok _ => none
    | .error cause => some cause
  else none

end Record

end CursorParsers
