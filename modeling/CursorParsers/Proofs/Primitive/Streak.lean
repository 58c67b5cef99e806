import CursorParsers.Proofs.Primitive.Consumption
import Mathlib.Data.List.TakeWhile
import Mathlib.Data.Nat.Find

/-!
# Matches of one width

A primitive that reads one character, or a literal, always consumes the same number of characters.
How many times in a row it matches at the front of a text can be told without running it: that is
the length of the longest run of accepted characters, or the number of copies of the literal that
the text starts with.

## Main definitions

* `Primitive.width?`: the number of characters that a primitive always consumes
* `copies`: how many copies of a word a text starts with
* `Primitive.streak`: how many times in a row a primitive matches

## Main results

* `Primitive.fits_iff`: a primitive matches if its streak is not empty
* `Primitive.streak_drop`: the streak behind some of its matches
-/

namespace CursorParsers

/-- How many copies of a word a text starts with, one behind another. -/
def copies (word cs : List Char) : ℕ :=
  Nat.findGreatest (fun n => (List.replicate n word).flatten <+: cs) cs.length

theorem append_prefix_iff {u v cs : List Char} :
    u ++ v <+: cs ↔ u <+: cs ∧ v <+: cs.drop u.length := by
  constructor
  · rintro ⟨rest, rfl⟩
    rw [List.append_assoc, List.drop_left]
    exact ⟨List.prefix_append _ _, List.prefix_append _ _⟩
  · rintro ⟨⟨rest, rfl⟩, h⟩
    rw [List.drop_left] at h
    exact (List.prefix_append_right_inj u).mpr h

section Copies

variable {word cs : List Char} {n i : ℕ}

theorem length_flatten_replicate (n : ℕ) (word : List Char) :
    (List.replicate n word).flatten.length = word.length * n := by
  rw [List.length_flatten, List.map_replicate, List.sum_replicate_nat, Nat.mul_comm]

theorem flatten_replicate_add (i n : ℕ) (word : List Char) :
    (List.replicate (i + n) word).flatten =
      (List.replicate i word).flatten ++ (List.replicate n word).flatten := by
  rw [← List.replicate_append_replicate, List.flatten_append]

/-- A text starts with so many copies of a word or fewer. -/
theorem le_copies_iff (hword : word ≠ []) :
    n ≤ copies word cs ↔ (List.replicate n word).flatten <+: cs := by
  constructor
  · intro hn
    obtain ⟨i, hi⟩ := Nat.exists_eq_add_of_le hn
    have hall : (List.replicate (copies word cs) word).flatten <+: cs :=
      Nat.findGreatest_spec (P := fun n => (List.replicate n word).flatten <+: cs)
        (Nat.zero_le _) List.nil_prefix
    rw [hi, flatten_replicate_add] at hall
    exact (append_prefix_iff.mp hall).1
  · intro h
    -- Each copy takes a character, so there are no more of them than the text is long.
    have hpos : 0 < word.length := List.length_pos_iff.mpr hword
    have hlength := h.length_le
    rw [length_flatten_replicate] at hlength
    exact Nat.le_findGreatest ((Nat.le_mul_of_pos_left n hpos).trans hlength) h

theorem copies_drop (hword : word ≠ []) (hi : i ≤ copies word cs) :
    copies word (cs.drop (word.length * i)) = copies word cs - i := by
  have hfront : (List.replicate i word).flatten <+: cs := (le_copies_iff hword).mp hi
  have hshift (n : ℕ) :
      n ≤ copies word (cs.drop (word.length * i)) ↔ i + n ≤ copies word cs := by
    rw [le_copies_iff hword, le_copies_iff hword, flatten_replicate_add, append_prefix_iff,
      length_flatten_replicate]
    exact (and_iff_right hfront).symm
  refine le_antisymm ?_ ((hshift _).mpr (by omega))
  have hle := (hshift _).mp le_rfl
  omega

end Copies

/-- The longest run behind some of its characters. -/
theorem takeWhile_drop {test : Char → Bool} {cs : List Char} {i : ℕ}
    (hi : i ≤ (cs.takeWhile test).length) :
    (cs.drop i).takeWhile test = (cs.takeWhile test).drop i := by
  induction cs generalizing i with
  | nil => rw [List.drop_nil, List.takeWhile_nil, List.drop_nil]
  | cons x xs ih =>
    cases i with
    | zero => rfl
    | succ i =>
      by_cases hx : test x
      · rw [List.takeWhile_cons_of_pos hx] at hi ⊢
        exact ih (by simpa using hi)
      · rw [List.takeWhile_cons_of_neg hx] at hi
        exact absurd hi (by simp)

namespace Primitive

variable {p : Primitive} {test : Char → Bool} {w k i : ℕ} {cs : List Char} {v : Value}

/-- The width of a primitive that consumes the same number of characters wherever it matches. -/
def width? : Primitive → Option ℕ
  | .anyChar | .satisfying _ | .oneOf _ => some 1
  | .literal t => some t.length
  | .empty | .endOfInput => none

/-- How many times in a row a primitive matches at the front of a text: the length of the
longest run of accepted characters, or the number of copies of the literal. -/
def streak : Primitive → List Char → ℕ
  | .anyChar, cs => cs.length
  | .satisfying test, cs => (cs.takeWhile test).length
  | .oneOf set, cs => (cs.takeWhile set.accepts).length
  | .literal t, cs => copies t.toList cs
  | .empty, _ | .endOfInput, _ => 0

/-- A primitive fits a text if it matches at its front. -/
def Fits (p : Primitive) (cs : List Char) : Prop := ∃ v k, p.consume cs = .ok (v, k)

theorem width?_of_test (hp : p.test? = some test) : p.width? = some 1 := by
  cases p with
  | anyChar | satisfying _ | oneOf _ => rfl
  | empty | endOfInput | literal _ => simp [test?] at hp

theorem streak_of_test (hp : p.test? = some test) (cs : List Char) :
    p.streak cs = (cs.takeWhile test).length := by
  cases p with
  | anyChar =>
    obtain rfl := Option.some.inj hp
    rw [streak, List.takeWhile_eq_self_iff.mpr fun _ _ => rfl]
  | satisfying _ | oneOf _ =>
    obtain rfl := Option.some.inj hp
    rfl
  | empty | endOfInput | literal _ => simp [test?] at hp

theorem fits_iff_of_test (hp : p.test? = some test) :
    p.Fits cs ↔ 0 < (cs.takeWhile test).length := by
  cases cs with
  | nil =>
    obtain ⟨failure, hf⟩ : ∃ failure, p.consume [] = .error failure :=
      consume_of_rejects hp (by simp)
    simp [Fits, hf]
  | cons x xs =>
    by_cases hx : test x
    · rw [List.takeWhile_cons_of_pos hx, List.length_cons]
      exact iff_of_true ⟨_, _, consume_of_accepts hp hx xs⟩ (Nat.succ_pos _)
    · obtain ⟨failure, hf⟩ : ∃ failure, p.consume (x :: xs) = .error failure :=
        consume_of_rejects hp (by simpa using hx)
      simp [Fits, hf, hx]

theorem compareChars_iff {t : String} {es cs : List Char} :
    compareChars t es cs = .ok () ↔ es <+: cs := by
  refine ⟨prefix_of_compareChars, ?_⟩
  rintro ⟨rest, rfl⟩
  induction es with
  | nil => rw [compareChars]
  | cons e es ih => simpa [compareChars] using ih

theorem fits_literal_iff {t : String} : (literal t).Fits cs ↔ t.toList <+: cs := by
  rw [← compareChars_iff (t := t), Fits, consume]
  cases compareChars t t.toList cs with
  | error failure => simp [Except.map]
  | ok u => simp [Except.map]

theorem cases_of_width (hw : p.width? = some w) :
    (w = 1 ∧ ∃ test, p.test? = some test) ∨ ∃ t : String, p = .literal t ∧ w = t.toList.length := by
  cases p with
  | anyChar | satisfying _ | oneOf _ => exact .inl ⟨(Option.some.inj hw).symm, _, rfl⟩
  | literal t => exact .inr ⟨t, rfl, by rw [String.length_toList, Option.some.inj hw]⟩
  | empty | endOfInput => simp [width?] at hw

theorem eq_width_of_consume (hw : p.width? = some w) (h : p.consume cs = .ok (v, k)) : k = w := by
  rcases cases_of_width hw with ⟨rfl, test, hp⟩ | ⟨t, rfl, rfl⟩
  · obtain ⟨x, xs, rfl, hx⟩ : ∃ x xs, cs = x :: xs ∧ test x := by
      have hfits := (fits_iff_of_test hp).mp ⟨v, k, h⟩
      cases cs with
      | nil => simp at hfits
      | cons x xs => exact ⟨x, xs, rfl, by by_contra hx; simp [hx] at hfits⟩
    rw [consume_of_accepts hp hx] at h
    exact (Prod.mk.inj (Except.ok.inj h)).2.symm
  · rw [consume, compareChars_iff.mpr (fits_literal_iff.mp ⟨v, k, h⟩)] at h
    rw [String.length_toList]
    exact (Prod.mk.inj (Except.ok.inj h)).2.symm

/-- A primitive with a width **matches** if its streak is not empty. -/
theorem fits_iff (hw : p.width? = some w) (hpos : 0 < w) : p.Fits cs ↔ 0 < p.streak cs := by
  rcases cases_of_width hw with ⟨rfl, test, hp⟩ | ⟨t, rfl, rfl⟩
  · rw [streak_of_test hp, fits_iff_of_test hp]
  · have hone : (List.replicate 1 t.toList).flatten = t.toList := by simp
    rw [fits_literal_iff, streak, Nat.lt_iff_add_one_le, Nat.zero_add,
      le_copies_iff (List.length_pos_iff.mp hpos), hone]

/-- The streak **behind some of its matches**. -/
theorem streak_drop (hw : p.width? = some w) (hpos : 0 < w) (hi : i ≤ p.streak cs) :
    p.streak (cs.drop (w * i)) = p.streak cs - i := by
  rcases cases_of_width hw with ⟨rfl, test, hp⟩ | ⟨t, rfl, rfl⟩
  · rw [streak_of_test hp] at hi
    rw [streak_of_test hp, streak_of_test hp, Nat.one_mul, takeWhile_drop hi, List.length_drop]
  · exact copies_drop (List.length_pos_iff.mp hpos) hi

end Primitive

end CursorParsers
