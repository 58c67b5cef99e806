import CursorParsers.Fault

/-!
# Charsets

A charset is a text that names a set of characters. It is read from left to right in segments:
three characters `x-y` with `x ≤ y` name everything from `x` to `y`, and any other character names
itself. Nothing else has a special meaning, and a dash that does not stand between two ends is a
character like any other.

## Main definitions

* `Segment`: one character, or all characters between two ends
* `Charset.segmentsOf`: the segments of a list of characters
* `Charset`, `Charset.accepts`: a text that is not empty, and the characters it names
-/

namespace CursorParsers

/-- A part of a charset. -/
inductive Segment where
  | single (c : Char)
  | span (low high : Char)
  deriving DecidableEq

namespace Segment

/-- Whether a segment names a character. -/
def accepts : Segment → Char → Bool
  | .single c, d => c = d
  | .span low high, d => low ≤ d ∧ d ≤ high

/-- The characters in which a segment is written. -/
def chars : Segment → List Char
  | .single c => [c]
  | .span low high => [low, '-', high]

end Segment

/-- A nonempty text that names a set of characters. -/
structure Charset where
  text : String
  nonempty : text ≠ ""

namespace Charset

/-- The charset written as a text. -/
def build (s : String) : Except Fault Charset :=
  if h : s = "" then .error .emptyCharset else .ok ⟨s, h⟩

/-- The segments of a list of characters, from left to right. -/
def segmentsOf : List Char → List Segment
  | [] => []
  | [x] => [.single x]
  | [x, y] => [.single x, .single y]
  | x :: d :: y :: rest =>
    if d = '-' ∧ x ≤ y then .span x y :: segmentsOf rest
    else .single x :: segmentsOf (d :: y :: rest)

/-- The segments of a charset. -/
def segments (cs : Charset) : List Segment := segmentsOf cs.text.toList

/-- Whether a charset names a character. -/
def accepts (cs : Charset) (c : Char) : Bool := cs.segments.any (·.accepts c)

end Charset

end CursorParsers
