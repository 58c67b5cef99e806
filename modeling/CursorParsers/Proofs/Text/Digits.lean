import CursorParsers.Text.Integer

/-!
# Reading digits

A text of ASCII digits denotes an integer: none of its characters is white space, a sign or an
underscore.

## Main results

* `Text.readDigits?_of_isDigit`: the number that some digits denote
* `Text.readInteger?_of_isDigit`: the integer that a text of digits denotes
-/

namespace CursorParsers.Text

variable {c : Char} {ds : List Char}

theorem ascii_of_isDigit (h : c.isDigit) : 0x30 ≤ c.toNat ∧ c.toNat ≤ 0x39 := by
  simpa [Char.isDigit, UInt32.le_iff_toNat_le] using h

theorem decimalDigit?_of_isDigit (h : c.isDigit) :
    decimalDigit? c = some (c.toNat - '0'.toNat) := by
  have hc : '0' ≤ c ∧ c ≤ '9' := by simpa [Char.isDigit, Char.le_def] using h
  rw [decimalDigit?, if_pos hc]

theorem isMargin_of_isDigit (h : c.isDigit) : isMargin c = false := by
  have hc := ascii_of_isDigit h
  simp only [isMargin, decide_eq_false_iff_not]
  omega

theorem dropWhile_isMargin_of_isDigit (h : ∀ d ∈ ds, d.isDigit) : ds.dropWhile isMargin = ds := by
  cases ds with
  | nil => rfl
  | cons d ds =>
    rw [List.dropWhile_cons, isMargin_of_isDigit (h d List.mem_cons_self)]
    rfl

theorem trim_of_isDigit (h : ∀ d ∈ ds, d.isDigit) : trim ds = ds := by
  have hr : ∀ d ∈ ds.reverse, d.isDigit := fun d hd => h d (List.mem_reverse.mp hd)
  rw [trim, dropWhile_isMargin_of_isDigit h, dropWhile_isMargin_of_isDigit hr, List.reverse_reverse]

/-- The number that some **digits** denote after those that make up `n`. -/
theorem readDigits?_of_isDigit (h : ∀ d ∈ ds, d.isDigit) (n : Nat) :
    readDigits? n ds = some (Nat.ofDigitChars 10 ds n) := by
  induction ds generalizing n with
  | nil => rfl
  | cons d ds ih =>
    have hd := h d List.mem_cons_self
    -- The case of an underscore in the definition is not that of a digit.
    have hne : d ≠ '_' := by
      rintro rfl
      exact absurd hd (by decide)
    have hstep : readDigits? n (d :: ds) =
        (decimalDigit? d).bind fun k => readDigits? (10 * n + k) ds := by
      rw [readDigits?]
      rintro _ _ rfl _
      exact hne rfl
    rw [hstep, decimalDigit?_of_isDigit hd, Option.bind_some,
      ih fun x hx => h x (List.mem_cons_of_mem d hx), Nat.ofDigitChars_cons]

theorem readNatural?_of_isDigit (h : ∀ d ∈ ds, d.isDigit) (hne : ds ≠ []) :
    readNatural? ds = some (Nat.ofDigitChars 10 ds 0) := by
  cases ds with
  | nil => exact absurd rfl hne
  | cons d ds =>
    rw [readNatural?, decimalDigit?_of_isDigit (h d List.mem_cons_self), Option.bind_some,
      readDigits?_of_isDigit fun x hx => h x (List.mem_cons_of_mem d hx), Nat.ofDigitChars_cons,
      Nat.mul_zero, Nat.zero_add]

/-- The **integer** that a text of digits denotes. -/
theorem readInteger?_of_isDigit (h : ∀ d ∈ ds, d.isDigit) (hne : ds ≠ []) :
    readInteger? (.ofList ds) = some (Nat.ofDigitChars 10 ds 0 : Nat) := by
  have hnat := readNatural?_of_isDigit h hne
  rw [readInteger?, String.toList_ofList, trim_of_isDigit h]
  split
  next cs => exact absurd (h '-' List.mem_cons_self) (by decide)
  next cs => exact absurd (h '+' List.mem_cons_self) (by decide)
  next => rw [hnat]; rfl

end CursorParsers.Text
