import CursorParsers.Number.Basic
import CursorParsers.Stream

/-!
# Failures

Why a parser of this library does not match. Characters, charsets and literals stand in the
messages as they are, without escapes.

## Main definitions

* `Failure`: the causes
* `Failure.message`: a cause as text
-/

namespace CursorParsers

/-- Why a parser does not match. -/
inductive Failure where
  /-- No character at the position. -/
  | missing (reason : Missing)
  /-- A character that a test rejects. -/
  | rejected (found : Char)
  /-- A character outside a charset. -/
  | notInCharset (charset : String) (found : Char)
  /-- A character where the text should end. -/
  | notAtEnd (found : Char)
  /-- No character for the rest of a literal. -/
  | literalCut (reason : Missing) (literal : String)
  /-- A character that differs from the one in a literal. -/
  | literalDiffers (expected found : Char) (literal : String)
  /-- A repetition that consumed too little. -/
  | tooShort (min matched : Number)

namespace Failure

/-- A character between apostrophes. -/
def inMarks (s : String) : String := "'" ++ s ++ "'"

/-- The message of a failure. -/
def message : Failure → String
  | .missing reason => reason.message
  | .rejected c => inMarks (String.singleton c) ++ " is not valid"
  | .notInCharset charset c =>
    "Expected one of the chars " ++ inMarks charset ++ ", found " ++ inMarks (String.singleton c)
  | .notAtEnd c => "Expected end of input, found " ++ inMarks (String.singleton c)
  | .literalCut reason literal => reason.message ++ " while matching " ++ inMarks literal
  | .literalDiffers e c literal =>
    "Expected " ++ inMarks (String.singleton e) ++ " but found " ++ inMarks (String.singleton c) ++
      " while matching " ++ inMarks literal
  | .tooShort min n =>
    "Expected at least " ++ min.text ++ " characters, matched " ++ n.text

end Failure

end CursorParsers
