import CursorParsers.Parser.Basic
import CursorParsers.Position
import CursorParsers.Value.Equality

/-!
# Scripted parsers

Parsers whose answers are given as data, not read from the characters of the stream. They can
answer anything at any position, also what no primitive parser would: an error that is not a text,
a success of the wrong shape, a next position far ahead or behind, or one that is no integer.

## Main definitions

* `Parser.constant`: one answer for every position
* `Parser.leaping`: a captured value and a fixed advance, up to the end of the text
* `Parser.tabulated`: an answer for each of some positions
* `Parser.whole`: the whole text, and a position as far ahead as the text is long
-/

namespace CursorParsers.Parser

/-- Gives the same answer everywhere. It can advance once, to the position in the answer. -/
def constant (r : Reply) : Parser where
  run _ _ := pure r
  rounds _ _ := 1

/-- Captures a value and moves by a fixed distance from every position that is not past the
end. -/
def leaping (distance : Int) (value : Value) : Parser where
  run s c := Run.ofExcept do
    if ← Value.less (.int s.length) c then return .err (.text "no step")
    else return .matched value (← c.plus distance)
  rounds := Stream.remainingFrom

/-- Gives the answer that a table has for the position. It can advance to each row at most
once. -/
def tabulated (rows : List (Value × Reply)) : Parser where
  run _ c := pure ((rows.find? fun row => row.1.equals c).elim (.err (.text "no row")) Prod.snd)
  rounds _ _ := rows.length

/-- Captures the whole text and moves as far as the text is long. It advances without end
unless the text is empty. -/
def whole : Parser where
  run s c := Run.ofExcept do return .matched (.text s.text) (← c.plus s.length)
  rounds _ _ := 0

end CursorParsers.Parser
