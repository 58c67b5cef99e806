import Mathlib.Data.List.Induction
import CursorParsers.Proofs.Version.Grammar

/-!
# Reading version texts

A version text is read character by character. How far it has been read decides which characters it
can go on with: an automaton keeps the number of dots and the number of digits after the last one,
and behind the dash, whether there is a tag yet. Wherever it has come to, the text can be completed.

## Main definitions

* `Reading`, `Reading.step`: how far a version text has been read, and one character more
* `Reading.halt`: reading until a character cannot be read
* `Reading.Describes`: what the characters read look like from behind
* `Reading.IsFinal`: readings at which a version text can end

## Main results

* `Reading.halt_append`, `Reading.exists_of_halt`: halting is reading as far as possible
* `Reading.describes_of_foldlM`: a reading describes the characters that lead to it
* `Reading.Describes.exists_completion`: what has been read can be completed
-/

namespace CursorParsers.Version

/-- How far a version text has been read: a number of digits after a number of dots, the dash,
or some of the tag. -/
inductive Reading where
  | numeral (dots digits : ℕ)
  | dash
  | tag
  deriving DecidableEq

namespace Reading

variable {r r' : Reading} {u w cs : List Char} {c : Char} {dots digits : ℕ}

/-- Nothing has been read. -/
def start : Reading := .numeral 0 0

/-- Reading one character more, if a version text can go on with it. -/
def step : Reading → Char → Option Reading
  | .numeral dots digits, c =>
    if c.isDigit then if digits < 6 then some (.numeral dots (digits + 1)) else none
    else if digits = 0 then none
    else if c = '.' ∧ dots < 2 then some (.numeral (dots + 1) 0)
    else if c = '-' ∧ dots = 2 then some .dash
    else none
  | .dash, c | .tag, c => if isTagChar c then some .tag else none

/-- Reading until a character cannot be read, and what is left then. -/
def halt : Reading → List Char → Reading × List Char
  | r, [] => (r, [])
  | r, c :: cs =>
    match r.step c with
    | some r' => halt r' cs
    | none => (r, c :: cs)

/-! ### Halting -/

/-- Characters that can be read are read **before** halting. -/
theorem halt_append (h : u.foldlM step r = some r') (w : List Char) :
    halt r (u ++ w) = halt r' w := by
  induction u generalizing r with
  | nil =>
    obtain rfl := Option.some.inj h
    rfl
  | cons c u ih =>
    rw [List.foldlM_cons] at h
    obtain ⟨r₁, hr₁, h⟩ := Option.bind_eq_some_iff.mp h
    rw [List.cons_append, halt, hr₁]
    exact ih h

theorem halt_of_stuck (h : ∀ c ∈ w.head?, r.step c = none) : halt r w = (r, w) := by
  cases w with
  | nil => rfl
  | cons c w => rw [halt, h c rfl]

/-- Halting splits the characters into those **that have been read** and those left, the first of
which cannot be read. -/
theorem exists_of_halt (h : halt r cs = (r', w)) :
    ∃ u, u ++ w = cs ∧ u.foldlM step r = some r' ∧ ∀ c ∈ w.head?, r'.step c = none := by
  induction cs generalizing r with
  | nil =>
    obtain ⟨rfl, rfl⟩ := Prod.mk.inj h
    exact ⟨[], rfl, rfl, by simp⟩
  | cons c cs ih =>
    rw [halt] at h
    split at h
    next r₁ hr₁ =>
      obtain ⟨u, rfl, hu, hw⟩ := ih h
      refine ⟨c :: u, rfl, ?_, hw⟩
      rw [List.foldlM_cons, hr₁]
      exact hu
    next hnone =>
      obtain ⟨rfl, rfl⟩ := Prod.mk.inj h
      refine ⟨[], rfl, rfl, ?_⟩
      rintro _ ⟨⟩
      exact hnone

/-! ### Words -/

theorem foldlM_digits (dots : ℕ) (hcs : ∀ c ∈ cs, c.isDigit) (hlen : digits + cs.length ≤ 6) :
    cs.foldlM step (.numeral dots digits) = some (.numeral dots (digits + cs.length)) := by
  induction cs generalizing digits with
  | nil => rfl
  | cons c cs ih =>
    rw [List.length_cons] at hlen
    have hstep : step (.numeral dots digits) c = some (.numeral dots (digits + 1)) := by
      rw [step, if_pos (hcs c List.mem_cons_self), if_pos (by omega)]
    rw [List.foldlM_cons, hstep]
    refine (ih (fun d hd => hcs d (List.mem_cons_of_mem c hd)) (by omega)).trans ?_
    rw [List.length_cons]
    congr 2
    omega

theorem foldlM_tagChars (hcs : ∀ c ∈ cs, isTagChar c) (hne : cs ≠ []) :
    cs.foldlM step .dash = some .tag := by
  have htag : ∀ ds : List Char, (∀ c ∈ ds, isTagChar c) → ds.foldlM step .tag = some .tag := by
    intro ds hds
    induction ds with
    | nil => rfl
    | cons c ds ih =>
      rw [List.foldlM_cons, step, if_pos (hds c List.mem_cons_self)]
      exact ih fun d hd => hds d (List.mem_cons_of_mem c hd)
  cases cs with
  | nil => exact absurd rfl hne
  | cons c cs =>
    rw [List.foldlM_cons, step, if_pos (hcs c List.mem_cons_self)]
    exact htag cs fun d hd => hcs d (List.mem_cons_of_mem c hd)

/-! ### What has been read -/

/-- A reading describes characters by how many dots are among them and what they end in. -/
def Describes (u : List Char) : Reading → Prop
  | .numeral dots 0 => dots ≤ 2 ∧ u.count '.' = dots ∧ (u = [] ∨ u.getLast? = some '.')
  | .numeral dots (_ + 1) =>
    dots ≤ 2 ∧ u.count '.' = dots ∧ ∃ c, u.getLast? = some c ∧ c.isDigit
  | .dash => u.count '.' = 2 ∧ u.getLast? = some '-'
  | .tag => u.count '.' = 2 ∧ ∃ c, u.getLast? = some c ∧ isTagChar c

/-- What one character makes of a reading: a digit more, the next numeral, the dash, or more of
the tag. -/
theorem step_cases (h : r.step c = some r') :
    (∃ dots digits, r = .numeral dots digits ∧ c.isDigit ∧ digits < 6 ∧
      r' = .numeral dots (digits + 1)) ∨
    (∃ dots digits, r = .numeral dots digits ∧ c = '.' ∧ dots < 2 ∧ r' = .numeral (dots + 1) 0) ∨
    (∃ digits, r = .numeral 2 digits ∧ c = '-' ∧ r' = .dash) ∨
    (r = .dash ∨ r = .tag) ∧ isTagChar c ∧ r' = .tag := by
  cases r with
  | numeral dots digits =>
    simp only [step] at h
    split_ifs at h with hdigit hlt hzero hdot hdash
    · exact .inl ⟨dots, digits, rfl, hdigit, hlt, (Option.some.inj h).symm⟩
    · exact .inr (.inl ⟨dots, digits, rfl, hdot.1, hdot.2, (Option.some.inj h).symm⟩)
    · obtain ⟨hc, rfl⟩ := hdash
      exact .inr (.inr (.inl ⟨digits, rfl, hc, (Option.some.inj h).symm⟩))
  | dash =>
    simp only [step] at h
    split_ifs at h with htag
    exact .inr (.inr (.inr ⟨.inl rfl, htag, (Option.some.inj h).symm⟩))
  | tag =>
    simp only [step] at h
    split_ifs at h with htag
    exact .inr (.inr (.inr ⟨.inr rfl, htag, (Option.some.inj h).symm⟩))

theorem isTagChar_of_isDigit (h : c.isDigit) : isTagChar c := by simp [isTagChar, h]

theorem ne_of_isTagChar (h : isTagChar c) : c ≠ '.' ∧ c ≠ '-' := by
  constructor
  · rintro rfl
    exact absurd h (by decide)
  · rintro rfl
    exact absurd h (by decide)

theorem count_concat_of_isTagChar (h : isTagChar c) : (u ++ [c]).count '.' = u.count '.' := by
  have hc : c ≠ '.' := (ne_of_isTagChar h).1
  rw [List.count_append, List.count_singleton, if_neg (by simpa using hc), Nat.add_zero]

theorem Describes.dots_le (h : (numeral dots digits).Describes u) : dots ≤ 2 := by
  cases digits with
  | zero => exact h.1
  | succ digits => exact h.1

theorem Describes.count_dots (h : (numeral dots digits).Describes u) : u.count '.' = dots := by
  cases digits with
  | zero => exact h.2.1
  | succ digits => exact h.2.1

/-- One character more is described by the next reading. -/
theorem Describes.concat (h : r.Describes u) (hstep : r.step c = some r') :
    r'.Describes (u ++ [c]) := by
  obtain ⟨dots, digits, rfl, hdigit, -, rfl⟩ | ⟨dots, digits, rfl, rfl, hlt, rfl⟩ |
    ⟨digits, rfl, rfl, rfl⟩ | ⟨hr, htag, rfl⟩ := step_cases hstep
  · have hcount : (u ++ [c]).count '.' = dots :=
      (count_concat_of_isTagChar (isTagChar_of_isDigit hdigit)).trans h.count_dots
    exact ⟨h.dots_le, hcount, c, List.getLast?_concat, hdigit⟩
  · refine ⟨by omega, ?_, .inr List.getLast?_concat⟩
    rw [List.count_append, h.count_dots]
    rfl
  · refine ⟨?_, List.getLast?_concat⟩
    rw [List.count_append, h.count_dots]
    rfl
  · have hcount : u.count '.' = 2 := by
      obtain rfl | rfl := hr
      · exact h.1
      · exact h.1
    exact ⟨(count_concat_of_isTagChar htag).trans hcount, c, List.getLast?_concat, htag⟩

/-- A reading describes **all the characters** that lead to it. -/
theorem describes_of_foldlM (h : u.foldlM step start = some r) : r.Describes u := by
  induction u using List.reverseRecOn generalizing r with
  | nil =>
    obtain rfl := Option.some.inj h
    exact ⟨Nat.zero_le 2, rfl, .inl rfl⟩
  | append_singleton u c ih =>
    rw [List.foldlM_append] at h
    obtain ⟨r₁, hr₁, h⟩ := Option.bind_eq_some_iff.mp h
    rw [List.foldlM_cons] at h
    obtain ⟨r₂, hr₂, h⟩ := Option.bind_eq_some_iff.mp h
    obtain rfl := Option.some.inj h
    exact (ih hr₁).concat hr₂

/-! ### Completing a text -/

/-- A reading at which a version text can end. -/
def IsFinal : Reading → Prop
  | .numeral dots digits => 2 ≤ dots ∧ digits ≠ 0
  | .dash => False
  | .tag => True

/-- What has been read **can be completed**. -/
theorem Describes.exists_completion (h : r.Describes u) :
    ∃ (w : List Char) (r' : Reading), w.foldlM step r = some r' ∧ r'.IsFinal := by
  cases r with
  | numeral dots digits =>
    cases digits with
    | zero =>
      obtain rfl | rfl | rfl : dots = 0 ∨ dots = 1 ∨ dots = 2 := by have := h.1; omega
      · exact ⟨"0.0.0".toList, .numeral 2 1, rfl, le_rfl, one_ne_zero⟩
      · exact ⟨"0.0".toList, .numeral 2 1, rfl, le_rfl, one_ne_zero⟩
      · exact ⟨"0".toList, .numeral 2 1, rfl, le_rfl, one_ne_zero⟩
    | succ digits =>
      obtain rfl | rfl | rfl : dots = 0 ∨ dots = 1 ∨ dots = 2 := by have := h.1; omega
      · exact ⟨".0.0".toList, .numeral 2 1, rfl, le_rfl, one_ne_zero⟩
      · exact ⟨".0".toList, .numeral 2 1, rfl, le_rfl, one_ne_zero⟩
      · exact ⟨[], .numeral 2 (digits + 1), rfl, le_rfl, digits.succ_ne_zero⟩
  | dash => exact ⟨['0'], .tag, rfl, trivial⟩
  | tag => exact ⟨[], .tag, rfl, trivial⟩

end Reading

end CursorParsers.Version
