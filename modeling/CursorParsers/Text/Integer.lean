/-!
# Reading integers

An integer is written in base ten with an optional sign. White space other than the ASCII separators
may surround it, zeros may lead it, and a single underscore may stand between two digits. The digits
of every script count, in any mixture.

There is no limit on the number of digits.

## Main definitions

* `Text.isMargin`: the white space that may stand around a number
* `Text.decimalDigit?`: the value of a digit in base ten
* `Text.trim`: a text without the white space around it
* `Text.readNatural?`, `Text.readInteger?`: the number that a text denotes
-/

namespace CursorParsers.Text

/-- White space that may stand around a number: all but the ASCII separators of files, groups,
records and units. -/
def isMargin (c : Char) : Bool :=
  let n := c.toNat
  (0x09 ≤ n ∧ n ≤ 0x0d) ∨ n = 0x20 ∨ n = 0x85 ∨ n = 0xa0 ∨ n = 0x1680 ∨ (0x2000 ≤ n ∧ n ≤ 0x200a) ∨
    n = 0x2028 ∨ n = 0x2029 ∨ n = 0x202f ∨ n = 0x205f ∨ n = 0x3000

/-- The codes of the digits zero outside ASCII, as of Unicode 14.0. The other nine digits of a
script follow its zero. -/
def zeros : List Nat :=
  [0x660, 0x6f0, 0x7c0, 0x966, 0x9e6, 0xa66, 0xae6, 0xb66, 0xbe6, 0xc66, 0xce6, 0xd66, 0xde6,
    0xe50, 0xed0, 0xf20, 0x1040, 0x1090, 0x17e0, 0x1810, 0x1946, 0x19d0, 0x1a80, 0x1a90, 0x1b50,
    0x1bb0, 0x1c40, 0x1c50, 0xa620, 0xa8d0, 0xa900, 0xa9d0, 0xa9f0, 0xaa50, 0xabf0, 0xff10,
    0x104a0, 0x10d30, 0x11066, 0x110f0, 0x11136, 0x111d0, 0x112f0, 0x11450, 0x114d0, 0x11650,
    0x116c0, 0x11730, 0x118e0, 0x11950, 0x11c50, 0x11d50, 0x11da0, 0x16a60, 0x16ac0, 0x16b50,
    0x1d7ce, 0x1d7d8, 0x1d7e2, 0x1d7ec, 0x1d7f6, 0x1e140, 0x1e2f0, 0x1e950, 0x1fbf0]

/-- The value of a digit in base ten. -/
def decimalDigit? (c : Char) : Option Nat :=
  if '0' ≤ c ∧ c ≤ '9' then some (c.toNat - '0'.toNat)
  else (zeros.find? fun z => z ≤ c.toNat ∧ c.toNat < z + 10).map fun z => c.toNat - z

/-- The characters between the white space at either end. -/
def trim (cs : List Char) : List Char :=
  ((cs.dropWhile isMargin).reverse.dropWhile isMargin).reverse

/-- The digits after those that make up `n`. Each may follow an underscore. -/
def readDigits? (n : Nat) : List Char → Option Nat
  | [] => some n
  | '_' :: c :: cs => (decimalDigit? c).bind fun d => readDigits? (10 * n + d) cs
  | c :: cs => (decimalDigit? c).bind fun d => readDigits? (10 * n + d) cs

/-- A natural number: at least one digit, and a digit first. -/
def readNatural? : List Char → Option Nat
  | [] => none
  | c :: cs => (decimalDigit? c).bind fun d => readDigits? d cs

/-- The integer that a text denotes. -/
def readInteger? (s : String) : Option Int :=
  match trim s.toList with
  | '-' :: cs => (readNatural? cs).map fun n => -(n : Int)
  | '+' :: cs => (readNatural? cs).map Int.ofNat
  | cs => (readNatural? cs).map Int.ofNat

end CursorParsers.Text
