import CursorParsers.Value.Digest

/-!
# The content of values

Equality of values looks through some differences: the two unit values are equal, and so are numbers
and truth values that count the same. The content of a value is what is left of it when these
differences are gone. Two values are equal exactly when they have the same content, so whatever can
be read off from the content is the same for equal values.

Not-a-number has no value of its own and is equal to nothing, not even itself. So all this is about
values in which every number has a value.

## Main definitions

* `Content`, `Value.content`: what equality sees of a value
* `Value.isDefinite`: a value in which every number has a value
* `Content.isDefinite`, `Content.digest?`, `Content.isTrue`: what can be read off from the content

## Main results

* `Value.rec_on_entries`: induction over values, with a hypothesis for every entry of a sequence
* `Value.equals_iff`: equality is having the same content
* `Value.isDefinite_eq`, `Value.digest?_eq`, `Value.isTrue_eq`: definiteness, digest and truth of a
  value are those of its content
-/

namespace CursorParsers

namespace Value

/-- Induction over values, with a hypothesis for every entry of a sequence. -/
@[elab_as_elim]
theorem rec_on_entries {P : Value → Prop} (absent : P .absent) (null : P .null)
    (nothing : P .nothing) (bool : ∀ b, P (.bool b)) (number : ∀ n, P (.number n))
    (text : ∀ s, P (.text s)) (list : ∀ vs, (∀ v ∈ vs, P v) → P (.list vs))
    (tuple : ∀ vs, (∀ v ∈ vs, P v) → P (.tuple vs))
    (union : ∀ vs, (∀ v ∈ vs, P v) → P (.union vs)) (ok : ∀ v, P v → P (.ok v))
    (err : ∀ v, P v → P (.err v)) (some : ∀ v, P v → P (.some v)) (stream : ∀ s, P (.stream s))
    (range : ∀ b, P (.range b)) (v : Value) : P v := by
  refine Value.rec (motive_1 := P) (motive_2 := fun vs => ∀ v ∈ vs, P v) absent null nothing bool
    number text list tuple union ok err some stream range ?_ ?_ v
  · intro v hv
    exact absurd hv List.not_mem_nil
  · intro v vs hv hvs
    exact List.forall_mem_cons.mpr ⟨hv, hvs⟩

end Value

/-- What equality sees of a value. A number that has no value is kept as such. -/
inductive Content where
  | unit
  | nothing
  | number (x : Option Extended)
  | text (s : String)
  | list (entries : List Content)
  | tuple (entries : List Content)
  | union (entries : List Content)
  | ok (value : Content)
  | err (error : Content)
  | some (value : Content)
  | stream (s : Stream)
  | range (min max : Option Extended)

namespace Value

mutual

/-- The content of a value. -/
def content : Value → Content
  | .absent | .null => .unit
  | .nothing => .nothing
  | .bool b => .number (Number.int (if b then 1 else 0)).value?
  | .number n => .number n.value?
  | .text s => .text s
  | .list vs => .list (contentEach vs)
  | .tuple vs => .tuple (contentEach vs)
  | .union vs => .union (contentEach vs)
  | .ok v => .ok (content v)
  | .err v => .err (content v)
  | .some v => .some (content v)
  | .stream s => .stream s
  | .range b => .range b.min.value? b.max.value?

/-- The contents of several values. -/
def contentEach : List Value → List Content
  | [] => []
  | v :: vs => content v :: contentEach vs

end

mutual

/-- Whether every number in a value has a value. -/
def isDefinite : Value → Bool
  | .number n => n.value?.isSome
  | .list vs | .tuple vs | .union vs => areDefinite vs
  | .ok v | .err v | .some v => isDefinite v
  | .range b => b.min.value?.isSome && b.max.value?.isSome
  | .absent | .null | .nothing | .bool _ | .text _ | .stream _ => true

/-- Whether every number in several values has a value. -/
def areDefinite : List Value → Bool
  | [] => true
  | v :: vs => isDefinite v && areDefinite vs

end

end Value

/-! ### Equality -/

theorem Number.same_iff {m n : Number} : m.same n ↔ m.value?.isSome ∧ m.value? = n.value? := by
  unfold Number.same Number.compareWith
  cases hm : m.value? <;> cases hn : n.value? <;> simp

namespace Value

theorem equalsEach_iff {vs : List Value}
    (ih : ∀ v ∈ vs, ∀ {w : Value}, v.equals w ↔ v.isDefinite ∧ v.content = w.content)
    (ws : List Value) :
    equalsEach vs ws ↔ areDefinite vs ∧ contentEach vs = contentEach ws := by
  induction vs generalizing ws with
  | nil => cases ws <;> simp [equalsEach, areDefinite, contentEach]
  | cons v vs ihvs =>
    rcases List.forall_mem_cons.mp ih with ⟨hv, hvs⟩
    cases ws with
    | nil => simp [equalsEach, contentEach]
    | cons w ws =>
      rw [equalsEach, areDefinite, contentEach, contentEach, Bool.and_eq_true, Bool.and_eq_true,
        hv, ihvs hvs, List.cons.injEq, and_and_and_comm]

theorem isUnit_iff {w : Value} : w.isUnit ↔ .unit = w.content := by
  cases w <;> simp [isUnit, content]

theorem countsAs_iff {n : Number} {w : Value} :
    w.countsAs n ↔ n.value?.isSome ∧ .number n.value? = w.content := by
  cases w <;> simp [countsAs, number?, content, Number.same_iff]

/-- **Equality** of values is having the same content, unless some number has no value. -/
theorem equals_iff {v w : Value} : v.equals w ↔ v.isDefinite ∧ v.content = w.content := by
  induction v using rec_on_entries generalizing w with
  | absent => simp only [equals, isUnit_iff, isDefinite, content, true_and]
  | null => simp only [equals, isUnit_iff, isDefinite, content, true_and]
  | nothing => cases w <;> simp [equals, isDefinite, content]
  | bool b => simp [equals, countsAs_iff, isDefinite, content]
  | number n => rw [equals, countsAs_iff, isDefinite, content]
  | text s => cases w <;> simp [equals, isDefinite, content]
  | list vs ih => cases w <;> simp [equals, isDefinite, content, equalsEach_iff ih]
  | tuple vs ih => cases w <;> simp [equals, isDefinite, content, equalsEach_iff ih]
  | union vs ih => cases w <;> simp [equals, isDefinite, content, equalsEach_iff ih]
  | ok v ih => cases w <;> simp [equals, isDefinite, content, ih]
  | err v ih => cases w <;> simp [equals, isDefinite, content, ih]
  | some v ih => cases w <;> simp [equals, isDefinite, content, ih]
  | stream s => cases w <;> simp [equals, isDefinite, content]
  | range a => cases w <;> simp [equals, isDefinite, content, Number.same_iff, and_and_and_comm]

end Value

/-! ### What the content gives -/

namespace Content

mutual

/-- Whether every number in a content is there. -/
def isDefinite : Content → Bool
  | .number x => x.isSome
  | .list cs | .tuple cs | .union cs => areDefinite cs
  | .ok c | .err c | .some c => isDefinite c
  | .range x y => x.isSome && y.isSome
  | .unit | .nothing | .text _ | .stream _ => true

/-- Whether every number in several contents is there. -/
def areDefinite : List Content → Bool
  | [] => true
  | c :: cs => isDefinite c && areDefinite cs

end

mutual

/-- The digest that a content gives. -/
def digest? : Content → Option Digest
  | .unit => Option.some .unit
  | .nothing => Option.some (.tuple [.unit])
  | .number x => Option.some (x.elim .unlike .number)
  | .text s => Option.some (.text s)
  | .list _ => none
  | .tuple cs => (digestEach? cs).map .tuple
  | .union cs => (digestEach? cs).map fun ds => .tuple [.tuple ds]
  | .ok c | .err c | .some c => (digest? c).map fun d => .tuple [d]
  | .stream s => Option.some (.tuple [.text s.text, .ofNumber (.int s.length)])
  | .range x y => Option.some (.tuple [x.elim .unlike .number, y.elim .unlike .number])

/-- The digests that several contents give. -/
def digestEach? : List Content → Option (List Digest)
  | [] => Option.some []
  | c :: cs => (digest? c).bind fun d => (digestEach? cs).map (d :: ·)

end

/-- The truth that a content gives. -/
def isTrue : Content → Bool
  | .unit => false
  | .number x => x != Option.some (.ofInt 0)
  | .text s => s != ""
  | .list cs | .tuple cs | .union cs => !cs.isEmpty
  | .stream s => s.length != 0
  | .nothing | .ok _ | .err _ | .some _ | .range _ _ => true

end Content

namespace Value

theorem areDefinite_eq {vs : List Value} (ih : ∀ v ∈ vs, v.isDefinite = v.content.isDefinite) :
    areDefinite vs = Content.areDefinite (contentEach vs) := by
  induction vs with
  | nil => rfl
  | cons v vs ihvs =>
    rcases List.forall_mem_cons.mp ih with ⟨hv, hvs⟩
    rw [areDefinite, contentEach, Content.areDefinite, hv, ihvs hvs]

/-- The content tells whether every number in a value **has a value**. -/
theorem isDefinite_eq (v : Value) : v.isDefinite = v.content.isDefinite := by
  induction v using rec_on_entries with
  | list vs ih => rw [isDefinite, content, Content.isDefinite, areDefinite_eq ih]
  | tuple vs ih => rw [isDefinite, content, Content.isDefinite, areDefinite_eq ih]
  | union vs ih => rw [isDefinite, content, Content.isDefinite, areDefinite_eq ih]
  | ok v ih => rw [isDefinite, content, Content.isDefinite, ih]
  | err v ih => rw [isDefinite, content, Content.isDefinite, ih]
  | some v ih => rw [isDefinite, content, Content.isDefinite, ih]
  | _ => rfl

theorem digestEach?_eq {vs : List Value} (ih : ∀ v ∈ vs, v.digest? = v.content.digest?) :
    digestEach? vs = Content.digestEach? (contentEach vs) := by
  induction vs with
  | nil => rfl
  | cons v vs ihvs =>
    rcases List.forall_mem_cons.mp ih with ⟨hv, hvs⟩
    rw [digestEach?, contentEach, Content.digestEach?, hv, ihvs hvs]

/-- The **digest** of a value is that of its content. -/
theorem digest?_eq (v : Value) : v.digest? = v.content.digest? := by
  induction v using rec_on_entries with
  | tuple vs ih => rw [digest?, content, Content.digest?, digestEach?_eq ih]
  | union vs ih => rw [digest?, content, Content.digest?, digestEach?_eq ih]
  | ok v ih => rw [digest?, content, Content.digest?, ih]
  | err v ih => rw [digest?, content, Content.digest?, ih]
  | some v ih => rw [digest?, content, Content.digest?, ih]
  | _ => rfl

theorem contentEach_isEmpty (vs : List Value) : (contentEach vs).isEmpty = vs.isEmpty := by
  cases vs <;> rfl

/-- The **truth** of a value is that of its content. -/
theorem isTrue_eq (v : Value) : v.isTrue = v.content.isTrue := by
  cases v with
  | bool b => cases b <;> rfl
  | list vs => rw [isTrue, content, Content.isTrue, contentEach_isEmpty]
  | tuple vs => rw [isTrue, content, Content.isTrue, contentEach_isEmpty]
  | union vs => rw [isTrue, content, Content.isTrue, contentEach_isEmpty]
  | _ => rfl

end Value

end CursorParsers
