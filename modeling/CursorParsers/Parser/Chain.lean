import CursorParsers.Parser.Primitive
import CursorParsers.Parser.Repetition

/-!
# Chains

A chain is a primitive parser followed by any sequence of steps, each of which makes a parser from
the one before. Chains are data, so that what every parser built this way has in common can be
said by recursion on its steps.

## Main definitions

* `Step`, `Step.apply`: the ways to make a parser from another
* `Parser.extend`: a parser after several steps
* `Chain`, `Chain.parser`: a primitive and the steps on it
-/

namespace CursorParsers

/-- A way to make a parser from another. -/
inductive Step where
  | optional
  | discard
  | range (bounds : Range)
  | label (expectation : String)
  | trace (name : String)
  | map (f : Transform)

variable [Repertoire]

/-- The parser that a step makes from another. -/
def Step.apply (p : Parser) : Step → Parser
  | .optional => p.optional
  | .discard => p.discard
  | .range b => p.range b
  | .label t => p.label t
  | .trace name => p.trace name
  | .map f => p.map f

/-- A parser after several steps, the first of them innermost. -/
def Parser.extend (p : Parser) (steps : List Step) : Parser := steps.foldl Step.apply p

@[simp] theorem Parser.extend_nil (p : Parser) : p.extend [] = p := rfl

@[simp] theorem Parser.extend_cons (p : Parser) (step : Step) (steps : List Step) :
    p.extend (step :: steps) = (step.apply p).extend steps := rfl

theorem Parser.extend_append (p : Parser) (steps more : List Step) :
    p.extend (steps ++ more) = (p.extend steps).extend more := List.foldl_append

/-- A primitive and the steps on it. -/
structure Chain where
  base : Primitive
  steps : List Step

/-- The parser that a chain makes. -/
def Chain.parser (chain : Chain) : Parser := chain.base.parser.extend chain.steps

end CursorParsers
