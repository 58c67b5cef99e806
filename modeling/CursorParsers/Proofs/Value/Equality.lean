import CursorParsers.Proofs.Value.Content
import Mathlib.Data.List.Forall2

/-!
# Equality as a congruence

Equality of values is symmetric and transitive, and it is reflexive where every number has a value.
It does not matter where in a larger value the equal values stand: a **frame** is one layer of a
value around a place, a list of frames leads from a value down to a place at any depth, and equal
values in the same place make equal values.

## Main definitions

* `Frame`, `Frame.fill`: one layer of a value around a place
* `Value.plug`: a value in a place that some frames lead to

## Main results

* `Value.equals_self`, `Value.equals_comm`, `Value.equals_trans`: equality is an equivalence
* `Value.null_equals_iff`, `Value.equals_iff_of_number`: what it identifies
* `Value.equals_plug`, `Value.equalsEach_iff_forall₂`, `Value.equals_stream`, `Value.equals_range`:
  equal parts make equal values
-/

namespace CursorParsers

namespace Value

/-! ### An equivalence -/

/-- A value **equals itself** exactly when every number in it has a value. -/
theorem equals_self (v : Value) : v.equals v = v.isDefinite := by
  rw [Bool.eq_iff_iff, equals_iff]
  exact and_iff_left rfl

theorem isDefinite_of_equals {v w : Value} (h : v.equals w) : w.isDefinite := by
  rcases equals_iff.mp h with ⟨hv, hvw⟩
  rwa [isDefinite_eq, ← hvw, ← isDefinite_eq]

theorem equals_symm {v w : Value} (h : v.equals w) : w.equals v :=
  equals_iff.mpr ⟨isDefinite_of_equals h, (equals_iff.mp h).2.symm⟩

/-- Equality is **symmetric**. -/
theorem equals_comm (v w : Value) : v.equals w = w.equals v :=
  Bool.eq_iff_iff.mpr ⟨equals_symm, equals_symm⟩

/-- Equality is **transitive**. -/
theorem equals_trans {u v w : Value} (huv : u.equals v) (hvw : v.equals w) : u.equals w := by
  rcases equals_iff.mp huv with ⟨hu, huv⟩
  exact equals_iff.mpr ⟨hu, huv.trans (equals_iff.mp hvw).2⟩

/-- Just the **unit values** equal the unit value. -/
theorem null_equals_iff (w : Value) : Value.null.equals w ↔ w = .null ∨ w = .absent := by
  cases w <;> simp [equals, isUnit]

/-- Numbers and truth values are equal if they count as the **same exact value**. -/
theorem equals_iff_of_number {v w : Value} {m n : Number} {x y : Extended}
    (hv : v.number? = Option.some m) (hw : w.number? = Option.some n)
    (hm : m.value? = Option.some x) (hn : n.value? = Option.some y) : v.equals w ↔ x = y := by
  have compares : v.equals w = w.countsAs m := by
    cases v <;> simp only [number?, Option.some.injEq, reduceCtorEq] at hv <;> rw [equals, hv]
  rw [compares, countsAs, hw, Option.any_some, Number.same_iff, hm, hn, Option.some.injEq]
  exact and_iff_right rfl

end Value

/-! ### Equal parts -/

/-- One layer of a value around a place. -/
inductive Frame where
  | ok
  | err
  | some
  | list (before after : List Value)
  | tuple (before after : List Value)
  | union (before after : List Value)

/-- A layer with a value in its place. -/
def Frame.fill (v : Value) : Frame → Value
  | .ok => .ok v
  | .err => .err v
  | .some => .some v
  | .list before after => .list (before ++ v :: after)
  | .tuple before after => .tuple (before ++ v :: after)
  | .union before after => .union (before ++ v :: after)

namespace Value

/-- A value in the place that some frames lead to, from the innermost to the outermost. -/
def plug (fs : List Frame) (v : Value) : Value := fs.foldl Frame.fill v

theorem contentEach_append (vs ws : List Value) :
    contentEach (vs ++ ws) = contentEach vs ++ contentEach ws := by
  induction vs with
  | nil => rfl
  | cons v vs ih => rw [List.cons_append, contentEach, contentEach, ih, List.cons_append]

theorem content_fill {v w : Value} (h : v.content = w.content) (f : Frame) :
    (f.fill v).content = (f.fill w).content := by
  cases f <;> simp only [Frame.fill, content, contentEach_append, contentEach, h]

theorem content_plug {v w : Value} (h : v.content = w.content) (fs : List Frame) :
    (plug fs v).content = (plug fs w).content := by
  induction fs generalizing v w with
  | nil => exact h
  | cons f fs ih => exact ih (content_fill h f)

/-- Equal values **in the same place** make equal values. -/
theorem equals_plug {v w : Value} {fs : List Frame} (hd : (plug fs v).isDefinite)
    (h : v.equals w) : (plug fs v).equals (plug fs w) :=
  equals_iff.mpr ⟨hd, content_plug (equals_iff.mp h).2 fs⟩

/-- Sequences are equal if their entries are, **place by place**. -/
theorem equalsEach_iff_forall₂ {vs ws : List Value} :
    equalsEach vs ws ↔ List.Forall₂ (fun v w => v.equals w) vs ws := by
  induction vs generalizing ws with
  | nil => cases ws <;> simp [equalsEach]
  | cons v vs ih =>
    cases ws with
    | nil => simp [equalsEach]
    | cons w ws => rw [equalsEach, Bool.and_eq_true, ih, List.forall₂_cons]

/-- Streams of **equal texts** are equal. -/
theorem equals_stream {s t : Stream} (h : (Value.text s.text).equals (.text t.text)) :
    (Value.stream s).equals (.stream t) := by
  have htext : s.text = t.text := of_decide_eq_true h
  have hstream : s = t := by rw [← Stream.ofText_text s, htext, Stream.ofText_text]
  exact decide_eq_true hstream

/-- Ranges of **equal bounds** are equal. -/
theorem equals_range {a b : Range} (hmin : (Value.number a.min).equals (.number b.min))
    (hmax : (Value.number a.max).equals (.number b.max)) : (Value.range a).equals (.range b) :=
  Bool.and_eq_true_iff.mpr ⟨hmin, hmax⟩

end Value

end CursorParsers
