import CursorParsers.Number.Basic
import CursorParsers.Value.Query
import CursorParsers.Value.Transform
import CursorParsers.Parser.Chain
import CursorParsers.Parser.Scripted
import CursorParsers.Version
import CursorParsers.Proofs.Run.Postcondition
import CursorParsers.Proofs.Run.Alike
import CursorParsers.Proofs.Number.Limit
import CursorParsers.Proofs.Primitive.Consumption
import CursorParsers.Proofs.Repetition.Rounds
import CursorParsers.Proofs.Repetition.Characters
import CursorParsers.Proofs.Repetition.Path
import CursorParsers.Proofs.Repetition.Lockstep
import CursorParsers.Proofs.Chain.Invariant
import CursorParsers.Proofs.Chain.Progress
import CursorParsers.Proofs.Chain.Capture
import CursorParsers.Proofs.Chain.Window
import CursorParsers.Proofs.Parser.Correspondence
import CursorParsers.Proofs.Chain.Independence
import CursorParsers.Proofs.Chain.Provenance
import CursorParsers.Proofs.Repetition.Termination
import CursorParsers.Proofs.Text.Digits
import CursorParsers.Proofs.Version.Grammar
import CursorParsers.Proofs.Version.Scanner
import CursorParsers.Proofs.Version.Parsing
import CursorParsers.Proofs.Version.Language
import CursorParsers.Proofs.Repetition.Invocations
import CursorParsers.Proofs.Version.Diagnosis
import CursorParsers.Proofs.Log.Nesting
import CursorParsers.Proofs.Run.Leaving
import CursorParsers.Proofs.Chain.Unseen
import CursorParsers.Proofs.Repetition.Records
import CursorParsers.Proofs.Chain.Tracing
import CursorParsers.Proofs.Value.Content
import CursorParsers.Proofs.Value.Equality
import CursorParsers.Proofs.Value.Distinct
import CursorParsers.Proofs.Number.Order
import CursorParsers.Proofs.Repetition.Succession
import CursorParsers.Proofs.Repetition.Largest
import CursorParsers.Proofs.Range.Whole
import CursorParsers.Proofs.Range.Interval
import CursorParsers.Proofs.Chain.Malformed
import CursorParsers.Proofs.Number.Written
import CursorParsers.Proofs.Text.Quoted
import CursorParsers.Proofs.Value.Written
import CursorParsers.Proofs.Repetition.Usage
import CursorParsers.Proofs.Repetition.Resumption
import CursorParsers.Proofs.Primitive.Streak
import CursorParsers.Proofs.Repetition.Strides
import CursorParsers.Proofs.Repetition.Chunks
import CursorParsers.Proofs.Charset.Membership
import CursorParsers.Proofs.Primitive.Literal
import CursorParsers.Proofs.Repetition.Absorption
import CursorParsers.Proofs.Charset.Union
import CursorParsers.Proofs.Repetition.Probes
import CursorParsers.Proofs.Value.Outside
import CursorParsers.Proofs.Log.Written
