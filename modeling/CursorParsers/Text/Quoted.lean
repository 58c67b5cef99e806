/-!
# Quoted text

A quoted text stands between two quotes, and no quote or backslash stands bare between them.
Double quotes are used only where that saves escapes: for a text with an apostrophe and no double
quote. What cannot be shown is written as an escape by code.

Which characters outside ASCII can be shown is a parameter, `printable`.

## Main definitions

* `Text.quoteOf`: the quote that a text is put in
* `Text.escape`: one character between the quotes
* `Text.quote`: a text in quotes
-/

namespace CursorParsers.Text

/-- The mark that stands at either end of a text in single quotes. -/
def apostrophe : Char := '\x27'

/-- The mark that stands at either end of a text in double quotes. -/
def doubleQuote : Char := '\x22'

/-- The quote for a text: double if that leaves nothing to escape where the single one would. -/
def quoteOf (cs : List Char) : Char :=
  if apostrophe ∈ cs ∧ doubleQuote ∉ cs then doubleQuote else apostrophe

/-- The last `width` hexadecimal digits of a number, in lower case. -/
def hexDigits : (width n : Nat) → List Char
  | 0, _ => []
  | width + 1, n => hexDigits width (n / 16) ++ [Nat.digitChar (n % 16)]

@[simp] theorem length_hexDigits (width n : Nat) : (hexDigits width n).length = width := by
  induction width generalizing n with
  | zero => rfl
  | succ width ih => simp [hexDigits, ih]

/-- An escape by code: two, four or eight hexadecimal digits, whichever suffices. -/
def escapeCode (n : Nat) : List Char :=
  if n < 0x100 then '\\' :: 'x' :: hexDigits 2 n
  else if n < 0x10000 then '\\' :: 'u' :: hexDigits 4 n
  else '\\' :: 'U' :: hexDigits 8 n

/-- One character of a quoted text. -/
def escape (printable : Char → Bool) (quote c : Char) : List Char :=
  if c = quote ∨ c = '\\' then ['\\', c]
  else if c = '\t' then ['\\', 't']
  else if c = '\n' then ['\\', 'n']
  else if c = '\r' then ['\\', 'r']
  else if c.toNat < 0x20 ∨ c.toNat = 0x7f then escapeCode c.toNat
  else if c.toNat < 0x80 ∨ printable c then [c]
  else escapeCode c.toNat

/-- A text in quotes, as a list of characters. -/
def quoteList (printable : Char → Bool) (cs : List Char) : List Char :=
  let quote := quoteOf cs
  quote :: (cs.flatMap (escape printable quote) ++ [quote])

/-- A text in quotes. -/
def quote (printable : Char → Bool) (s : String) : String :=
  String.ofList (quoteList printable s.toList)

end CursorParsers.Text
