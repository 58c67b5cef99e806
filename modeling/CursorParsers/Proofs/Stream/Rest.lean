import CursorParsers.Stream

/-!
# The rest of a stream

From a position on, a stream is a list of characters. Looking up a character, moving by some
characters and cutting out what lies between two positions are operations on that list.

## Main definitions

* `Stream.rest`: the characters from a position on
* `Stream.slice`: the characters from a position up to another
* `Stream.ahead`: the characters that can be read from a position on
* `Stream.Moves`: positions that can be reached without leaving the text

## Main results

* `Stream.fetch_of_rest_eq_cons`, `Stream.fetch_of_rest_eq_nil`: fetching looks at the first
  character of the rest
* `Stream.rest_add`: moving on drops characters
* `Stream.slice_append_slice`: adjacent slices join
-/

namespace CursorParsers.Stream

variable {s : Stream} {c m n : Int}

/-- The characters from a position on; from a position below the first, all of them. -/
def rest (s : Stream) (position : Int) : List Char := s.chars.toList.drop (position - 1).toNat

/-- The characters from a position up to another. -/
def slice (s : Stream) (start stop : Int) : List Char := (s.rest start).take (stop - start).toNat

@[simp] theorem rest_ofText_one (t : String) : (ofText t).rest 1 = t.toList := by
  simp [rest, ofText]

theorem rest_ofText_append (u t : String) (hc : 1 ≤ c) :
    (ofText (u ++ t)).rest (u.length + c) = (ofText t).rest c := by
  have hdrop : (u.length + c - 1).toNat = u.toList.length + (c - 1).toNat := by
    rw [String.length_toList]
    omega
  simp only [rest, ofText, String.toList_append]
  rw [hdrop, ← List.drop_drop, List.drop_left]

theorem length_rest (hc : 1 ≤ c) : (s.rest c).length = s.remaining c := by
  simp only [rest, List.length_drop, Array.length_toList, remaining, length]
  omega

/-- The next character is the **first of the rest**. -/
theorem fetch_of_rest_eq_cons {x : Char} {xs : List Char} (hc : 1 ≤ c) (h : s.rest c = x :: xs) :
    s.fetch c = .ok x := by
  rw [fetch_eq_ok_iff, get?_eq_some_iff]
  refine ⟨hc, ?_⟩
  have hx : (s.rest c)[0]? = some x := by rw [h]; rfl
  simpa [rest] using hx

theorem fetch_of_rest_eq_nil (hc : 1 ≤ c) (h : s.rest c = []) :
    s.fetch c = .error .endOfInput := by
  have hl := length_rest (s := s) hc
  rw [h, List.length_nil, remaining] at hl
  rw [fetch, if_pos (by omega)]

theorem fetch_of_nonpos (hc : c ≤ 0) : s.fetch c = .error .invalidState := by
  have hg : s.get? c = none := get?_eq_none_iff.mpr (.inl (by omega))
  rw [fetch, if_neg (by omega), hg]

/-- **Moving on** drops characters. -/
theorem rest_add (hc : 1 ≤ c) (k : Nat) : s.rest (c + k) = (s.rest c).drop k := by
  rw [rest, rest, List.drop_drop]
  congr 1
  omega

theorem rest_succ_of_eq_cons {x : Char} {xs : List Char} (hc : 1 ≤ c) (h : s.rest c = x :: xs) :
    s.rest (c + 1) = xs := by
  rw [show c + 1 = c + (1 : Nat) by rfl, rest_add hc, h, List.drop_one, List.tail_cons]

@[simp] theorem slice_self (s : Stream) (c : Int) : s.slice c c = [] := by simp [slice]

theorem slice_add (s : Stream) (c : Int) (k : Nat) : s.slice c (c + k) = (s.rest c).take k := by
  rw [slice, show (c + k - c).toNat = k by omega]

/-- **Adjacent slices** join to one. -/
theorem slice_append_slice (hc : 1 ≤ c) (hcm : c ≤ m) (hmn : m ≤ n) :
    s.slice c m ++ s.slice m n = s.slice c n := by
  -- As distances from the start, the two positions are natural numbers.
  obtain ⟨i, rfl⟩ : ∃ i : Nat, m = c + i := ⟨(m - c).toNat, by omega⟩
  obtain ⟨j, rfl⟩ : ∃ j : Nat, n = c + i + j := ⟨(n - (c + i)).toNat, by omega⟩
  rw [slice_add, slice_add, rest_add hc, show c + i + j = c + (i + j : Nat) by omega, slice_add,
    List.take_add]

theorem length_slice (hc : 1 ≤ c) (hcn : c ≤ n) (hn : n ≤ s.length + 1) :
    ((s.slice c n).length : Int) = n - c := by
  rw [slice, List.length_take, length_rest hc, remaining]
  omega

/-! ### What is ahead -/

/-- The characters that can be read from a position on. Below the first position none can. -/
def ahead (s : Stream) (position : Int) : List Char := if 1 ≤ position then s.rest position else []

theorem ahead_of_le (hc : 1 ≤ c) : s.ahead c = s.rest c := if_pos hc

theorem ahead_of_nonpos (hc : c ≤ 0) : s.ahead c = [] := if_neg (by omega)

/-- Reading on drops characters, and there is nothing to read on below the first position. -/
theorem ahead_add {k : Nat} (h : 1 ≤ c ∨ k = 0) : s.ahead (c + k) = (s.ahead c).drop k := by
  rcases h with hc | rfl
  · rw [ahead_of_le hc, ahead_of_le (by omega), rest_add hc]
  · rw [Int.natCast_zero, Int.add_zero, List.drop_zero]

/-! ### Moving within the text -/

/-- A position that can be reached from another: the same one, or one further on that is not
beyond the end of the text. Only from a character there is a way on. -/
def Moves (s : Stream) (c n : Int) : Prop := n = c ∨ 1 ≤ c ∧ c < n ∧ n ≤ s.length + 1

theorem Moves.refl (s : Stream) (c : Int) : s.Moves c c := .inl rfl

theorem Moves.trans (h : s.Moves c m) (h' : s.Moves m n) : s.Moves c n := by
  unfold Moves at *
  omega

theorem Moves.le (h : s.Moves c n) : c ≤ n := by
  unfold Moves at h
  omega

theorem Moves.remaining_lt (h : s.Moves c n) (hcn : c < n) : s.remaining n < s.remaining c := by
  unfold Moves at h
  unfold remaining
  omega

end CursorParsers.Stream
