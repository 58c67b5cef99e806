import CursorParsers.Text.Printable
import CursorParsers.Text.Quoted
import CursorParsers.Value.Basic

/-!
# The written form of values

Every value has a written form that shows its kind and its parts. A text is quoted in it, so what
a text contains cannot be taken for the form of another value. The **display** form differs only
in that a text, and a stream, stands for itself.

## Main definitions

* `Value.reprWith`: the written form, given which characters outside ASCII are shown as they stand
* `Value.repr`: the written form in a repertoire, as messages show it
* `Value.display`: the display form
-/

namespace CursorParsers.Value

/-- Entries separated by commas, in parentheses. A single entry keeps a comma after it. -/
def parenthesized : List String → String
  | [one] => "(" ++ one ++ ",)"
  | many => "(" ++ ", ".intercalate many ++ ")"

mutual

/-- The written form of a value, given the characters outside ASCII that are shown. -/
def reprWith (printable : Char → Bool) : Value → String
  | .absent => "None"
  | .null => "Null"
  | .nothing => "Nothing"
  | .bool b => if b then "True" else "False"
  | .number n => n.text
  | .text s => Text.quote printable s
  | .list vs => "[" ++ ", ".intercalate (reprEach printable vs) ++ "]"
  | .tuple vs => parenthesized (reprEach printable vs)
  | .union vs => "Union" ++ parenthesized (reprEach printable vs)
  | .ok v => "Ok(value=" ++ reprWith printable v ++ ")"
  | .err v => "Err(error=" ++ reprWith printable v ++ ")"
  | .some v => "Some(value=" ++ reprWith printable v ++ ")"
  | .stream s =>
    "Stream(text=" ++ Text.quote printable s.text ++ ", length=" ++ toString s.length ++ ")"
  | .range b => "Range(min=" ++ b.min.text ++ ", max=" ++ b.max.text ++ ")"

/-- The written forms of several values. -/
def reprEach (printable : Char → Bool) : List Value → List String
  | [] => []
  | v :: vs => reprWith printable v :: reprEach printable vs

end

/-- The written form of a value in a repertoire. -/
def repr [Repertoire] (v : Value) : String := reprWith Repertoire.printable v

/-- The display form: a text and a stream stand for themselves. -/
def display [Repertoire] : Value → String
  | .text s => s
  | .stream s => s.text
  | v => v.repr

theorem reprEach_eq_map (printable : Char → Bool) (vs : List Value) :
    reprEach printable vs = vs.map (reprWith printable) := by
  induction vs with
  | nil => rfl
  | cons v vs ih => rw [reprEach, ih, List.map_cons]

@[simp] theorem display_text [Repertoire] (s : String) : display (.text s) = s := rfl

end CursorParsers.Value
