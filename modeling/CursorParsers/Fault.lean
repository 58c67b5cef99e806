import CursorParsers.Value.Printer

/-!
# Faults

A fault is a misuse that no parser can recover from: it ends the whole run. A failure to match is
not a fault but a value.

## Main definitions

* `Fault`: the causes
* `Fault.message`: a cause as text
-/

namespace CursorParsers

/-- The cause that ended a run. -/
inductive Fault where
  /-- Bounds that make no range. -/
  | invalidRange (cause : Range.Invalid)
  /-- A charset without characters. -/
  | emptyCharset
  /-- A success that should hold a value and a position, but has this many entries. -/
  | malformedSuccess (entries : Nat)
  /-- A text that denotes no integer. -/
  | notAnInteger (text : String)
  /-- A floating-point number that is not finite, where an integer is asked for. -/
  | notFinite (x : Floating)
  /-- An integer that is too large to be used together with a floating-point number. -/
  | tooLarge
  /-- The success value asked of a failure. -/
  | unwrappedErr (error : Value)
  /-- The failure asked of a success. -/
  | unwrappedOk (value : Value)
  /-- The value asked of an optional value that is missing. -/
  | unwrappedNothing
  /-- An assignment to a part of a value. -/
  | assigned (field : String)
  /-- A removal of a part of a value. -/
  | deleted (field : String)
  /-- An operation on a value of a kind that does not have it. -/
  | wrongKind

variable [Repertoire]

/-- A text in quotes, as messages show a name. -/
def Fault.quoted (s : String) : String := (Value.text s).repr

/-- What a message shows of a text that was refused: no more than 200 characters of its quoted
form. -/
def Fault.excerpt (s : String) : String := String.ofList ((quoted s).toList.take 200)

/-- The message of a fault. -/
def Fault.message : Fault → String
  | .invalidRange cause => cause.message
  | .emptyCharset => "char() needs a non-empty charset"
  | .malformedSuccess n =>
    if n < 2 then "not enough values to unpack (expected 2, got " ++ toString n ++ ")"
    else "too many values to unpack (expected 2)"
  | .notAnInteger s => "invalid literal for int() with base 10: " ++ excerpt s
  | .notFinite .nan => "cannot convert float NaN to integer"
  | .notFinite _ => "cannot convert float infinity to integer"
  | .tooLarge => "int too large to convert to float"
  | .unwrappedErr e => "Called unwrap on Err(" ++ e.repr ++ ")"
  | .unwrappedOk v => "Called unwrap_err on Ok(" ++ v.repr ++ ")"
  | .unwrappedNothing => "Called unwrap on Nothing"
  | .assigned field => "cannot assign to field " ++ quoted field
  | .deleted field => "cannot delete field " ++ quoted field
  | .wrongKind => "operation on a value of the wrong kind"

end CursorParsers
