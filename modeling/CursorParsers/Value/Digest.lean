import CursorParsers.Value.Equality

/-!
# Digests of values

A digest stands for a value in a set. It forgets what equality does not see: which unit value it
was, which kind of number, and which kind of wrapper. A value with a list inside has no digest.

## Main definitions

* `Digest`, `Digest.agrees`: digests, and whether two of them are the same
* `Value.digest?`: the digest of a value
* `Value.distinct`: the values of a set, one for each class of equal values
-/

namespace CursorParsers

/-- What a set keeps to find a value again. A number that is not a number agrees with nothing.
-/
inductive Digest where
  | unit
  | unlike
  | number (x : Extended)
  | text (s : String)
  | tuple (entries : List Digest)

namespace Digest

/-- The digest of a number. -/
def ofNumber (n : Number) : Digest := n.value?.elim .unlike .number

mutual

/-- Whether two digests are the same. -/
def agrees : Digest → Digest → Bool
  | .unit, e => match e with
    | .unit => true
    | _ => false
  | .unlike, _ => false
  | .number x, e => match e with
    | .number y => x = y
    | _ => false
  | .text s, e => match e with
    | .text t => s = t
    | _ => false
  | .tuple ds, e => match e with
    | .tuple es => agreesEach ds es
    | _ => false

/-- Whether two sequences of digests are the same place by place. -/
def agreesEach : List Digest → List Digest → Bool
  | [], [] => true
  | d :: ds, e :: es => agrees d e && agreesEach ds es
  | _, _ => false

end

end Digest

namespace Value

mutual

/-- The digest of a value, unless it holds a list. A wrapper counts as the tuple of its parts.
-/
def digest? : Value → Option Digest
  | .absent => Option.some .unit
  | .null => Option.some .unit
  | .nothing => Option.some (.tuple [.unit])
  | .bool b => Option.some (.ofNumber (.int (if b then 1 else 0)))
  | .number n => Option.some (.ofNumber n)
  | .text s => Option.some (.text s)
  | .list _ => none
  | .tuple vs => (digestEach? vs).map .tuple
  | .union vs => (digestEach? vs).map fun ds => .tuple [.tuple ds]
  | .ok v => (digest? v).map fun d => .tuple [d]
  | .err v => (digest? v).map fun d => .tuple [d]
  | .some v => (digest? v).map fun d => .tuple [d]
  | .stream s => Option.some (.tuple [.text s.text, .ofNumber (.int s.length)])
  | .range b => Option.some (.tuple [.ofNumber b.min, .ofNumber b.max])

/-- The digests of several values, unless one of them has none. -/
def digestEach? : List Value → Option (List Digest)
  | [] => Option.some []
  | v :: vs => (digest? v).bind fun d => (digestEach? vs).map (d :: ·)

end

/-- Whether two values have the same digest, if both have one. -/
def sameDigest? (v w : Value) : Option Bool := do
  let d ← v.digest?
  let e ← w.digest?
  return d.agrees e

/-- Whether a set takes two values for the same: their digests agree, and they are equal. -/
def sameElement (v w : Value) : Bool := v.sameDigest? w == Option.some true && v.equals w

/-- The elements of the set of some values, in the order of their first occurrence. -/
def distinct (vs : List Value) : List Value :=
  vs.foldl (fun kept v => if kept.any v.sameElement then kept else kept ++ [v]) []

end Value

end CursorParsers
