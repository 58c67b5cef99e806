import CursorParsers.Parser.Chain

/-!
# Version texts

A version is three numbers separated by dots, optionally followed by a dash and a pre-release tag:
`1.22.3-rc1`. Each number has one to six digits, and the tag consists of small letters and digits.

Parsers do not join into sequences, so the pieces are run one after another, each at the position
where the one before has ended.

## Main definitions

* `Version`: three numbers and a tag
* `Version.number`, `Version.dot`, `Version.dash`, `Version.tagText`: the parsers of the pieces
* `Version.parse`: the version that a text denotes, or the error of the first piece that fails
* `Version.text`: a version as text
* `Version.toValue`: a version as a value
-/

namespace CursorParsers

/-- Three numbers and, for a pre-release, a tag. -/
structure Version where
  major : Int
  minor : Int
  patch : Int
  tag : Option String
  deriving DecidableEq

variable [Repertoire]

namespace Version

/-! ### The pieces -/

/-- One to six digits, taken as an integer. -/
def number : Chain where
  base := .oneOf ⟨"0-9", by decide⟩
  steps :=
    [.range ⟨.int 1, .int 6, by decide +kernel, by decide +kernel⟩, .map Transform.toInteger,
      .label "version number"]

/-- The dot between two numbers. -/
def dot : Chain := ⟨.literal ".", [.discard]⟩

/-- The dash before a tag. -/
def dash : Chain := ⟨.literal "-", [.discard]⟩

/-- A tag: one or more small letters and digits. -/
def tagText : Chain where
  base := .oneOf ⟨"a-z0-9", by decide⟩
  steps :=
    [.range ⟨.int 1, .infinity, by decide +kernel, by decide +kernel⟩,
      .label "pre-release tag"]

/-! ### Running the pieces -/

/-- A run that may give up with the error of a parser. -/
abbrev Attempt := ExceptT Value Run

/-- The integer that a value is. -/
def asInteger : Value → Run Int
  | .number (.int n) => pure n
  | _ => Run.fault .wrongKind

/-- The text that a value is. -/
def asText : Value → Run String
  | .text s => pure s
  | _ => Run.fault .wrongKind

/-- The captured value and the next position in the payload of a success. -/
def unpack (payload : Value) : Run (Value × Int) := do
  let (v, next) ← Run.ofExcept payload.split
  return (v, ← asInteger next)

/-- The captured value and the next position of a parser; its error ends the attempt. -/
def take (p : Parser) (s : Stream) (position : Int) : Attempt (Value × Int) :=
  ExceptT.mk do
    match ← p.run s (.int position) with
    | .ok payload => .ok <$> unpack payload
    | .err e => pure (.error e)

/-- The captured value and the next position of a parser that is not expected to fail. A failure
has no payload, so it is a fault. -/
def takeMatched (p : Parser) (s : Stream) (position : Int) : Attempt (Value × Int) :=
  ExceptT.lift do
    match ← p.run s (.int position) with
    | .ok payload => unpack payload
    | .err _ => Run.fault .wrongKind

/-- A number and the position after it. -/
def takeNumber (s : Stream) (position : Int) : Attempt (Int × Int) := do
  let (v, next) ← take number.parser s position
  return (← asInteger v, next)

/-- The number after a dot, and the position after it. -/
def takeDotNumber (s : Stream) (position : Int) : Attempt (Int × Int) := do
  let (_, next) ← take dot.parser s position
  takeNumber s next

/-- The tag, if there is a dash, and the position after it. Only the movement over the dash tells
that it is there: the parser of an optional dash is not expected to fail. -/
def takeTag (s : Stream) (position : Int) : Attempt (Option String × Int) := do
  let (_, next) ← takeMatched dash.parser.optional s position
  if next > position then
    let (v, last) ← take tagText.parser s next
    return (some (← asText v), last)
  else return (none, position)

/-- The version in a stream. Nothing may follow it. -/
def read (s : Stream) : Attempt Version := do
  let (major, afterMajor) ← takeNumber s 1
  let (minor, afterMinor) ← takeDotNumber s afterMajor
  let (patch, afterPatch) ← takeDotNumber s afterMinor
  let (tag, last) ← takeTag s afterPatch
  let _ ← take Primitive.endOfInput.parser s last
  return { major, minor, patch, tag }

/-- The version that a text denotes, or the error of the first piece that fails. -/
def parse (text : String) : Run (Except Value Version) := (read (.ofText text)).run

/-! ### Other forms of a version -/

/-- The tag as a value, missing or a text. -/
def tagValue : Option String → Value
  | some s => .text s
  | none => .absent

/-- A version as a value: the three numbers, and the tag. -/
def toValue (v : Version) : Value :=
  .tuple [.tuple [.int v.major, .int v.minor, .int v.patch], tagValue v.tag]

/-- The outcome of parsing as a value. -/
def outcomeValue : Except Value Version → Value
  | .ok v => v.toValue
  | .error e => .err e

/-- A version as text. -/
def text (v : Version) : String :=
  toString v.major ++ "." ++ toString v.minor ++ "." ++ toString v.patch ++
    (v.tag.elim "" fun tag => "-" ++ tag)

/-- A text and what it was found to be, on one line. -/
def reportLine (text : String) (outcome : Except Value Version) : String :=
  (Value.text text).repr ++ ": " ++ (outcomeValue outcome).repr

end Version

end CursorParsers
