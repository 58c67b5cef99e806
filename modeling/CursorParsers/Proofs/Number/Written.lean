import CursorParsers.Number.Basic
import Mathlib.Algebra.Group.Nat.Defs

/-!
# Written numbers

A number is read back from its text, so different numbers have different texts. A decimal is written
in one of several shapes; each of them is digits with a point among them and perhaps an exponent,
and moving the point or the zeros at the end does not change what is read.

## Main definitions

* `Number.isMark`: the characters that numbers are written with

## Main results

* `Decimal.ofText?_text`, `Floating.ofText?_text`: reading gives back what was written
* `Number.text_inj`: a number is known by its text
* `Number.text_append_inj`: so it is in front of what cannot belong to it
-/

namespace CursorParsers

/-! ### Runs of characters -/

namespace Text

variable {test : Char → Bool} {run run' rest rest' : List Char}

/-- A run of characters that pass a test, up to one that does not. -/
theorem takeWhile_run (hrun : ∀ c ∈ run, test c) (hrest : ∀ c ∈ rest.head?, test c = false) :
    (run ++ rest).takeWhile test = run := by
  rw [List.takeWhile_append_of_pos hrun]
  cases rest with
  | nil => simp
  | cons c rest => simp [hrest c rfl]

theorem dropWhile_run (hrun : ∀ c ∈ run, test c) (hrest : ∀ c ∈ rest.head?, test c = false) :
    (run ++ rest).dropWhile test = rest := by
  rw [List.dropWhile_append_of_pos hrun]
  cases rest with
  | nil => rfl
  | cons c rest => simp [hrest c rfl]

/-- Where a run ends is seen from the characters. -/
theorem run_append_inj (hrun : ∀ c ∈ run, test c) (hrun' : ∀ c ∈ run', test c)
    (hrest : ∀ c ∈ rest.head?, test c = false) (hrest' : ∀ c ∈ rest'.head?, test c = false)
    (h : run ++ rest = run' ++ rest') : run = run' ∧ rest = rest' := by
  have hfront := congrArg (List.takeWhile test) h
  have hback := congrArg (List.dropWhile test) h
  rw [takeWhile_run hrun hrest, takeWhile_run hrun' hrest'] at hfront
  rw [dropWhile_run hrun hrest, dropWhile_run hrun' hrest'] at hback
  exact ⟨hfront, hback⟩

end Text

/-! ### Decimals -/

namespace Decimal

variable {ds whole fraction rest : List Char}

theorem normalize_mul_ten (digits : Nat) (exponent : Int) :
    normalize (digits * 10) exponent = normalize digits (exponent + 1) := by
  by_cases h : digits = 0
  · subst h
    simp [normalize]
  · rw [normalize, dif_neg (by omega), dif_pos (by omega), Nat.mul_div_cancel _ (by decide)]

theorem normalize_mul_pow (digits k : Nat) (exponent : Int) :
    normalize (digits * 10 ^ k) exponent = normalize digits (exponent + k) := by
  induction k generalizing exponent with
  | zero => simp
  | succ k ih =>
    rw [Nat.pow_succ, ← Nat.mul_assoc, normalize_mul_ten, ih]
    congr 1
    omega

theorem ofText?_point (hwhole : ∀ c ∈ whole, c.isDigit) (hne : whole ≠ [])
    (hfraction : ∀ c ∈ fraction, c.isDigit) (hrest : ∀ c ∈ rest.head?, c.isDigit = false) :
    ofText? (whole ++ '.' :: (fraction ++ rest)) = (readExponent? rest).map fun exponent =>
      normalize (Nat.ofDigitChars 10 (whole ++ fraction) 0) (exponent - fraction.length) := by
  have hpoint : ∀ c ∈ ('.' :: (fraction ++ rest)).head?, c.isDigit = false := by
    rintro c ⟨⟩
    rfl
  rw [ofText?, Text.takeWhile_run hwhole hpoint, Text.dropWhile_run hwhole hpoint]
  simp only [Text.takeWhile_run hfraction hrest, Text.dropWhile_run hfraction hrest,
    List.isEmpty_eq_false_iff.mpr hne, Bool.false_eq_true, if_false]
  cases readExponent? rest <;> rfl

theorem ofText?_no_point (hwhole : ∀ c ∈ whole, c.isDigit) (hne : whole ≠ [])
    (hrest : ∀ c ∈ rest.head?, c.isDigit = false) (hpoint : rest.head? ≠ some '.') :
    ofText? (whole ++ rest) =
      (readExponent? rest).map (normalize (Nat.ofDigitChars 10 whole 0)) := by
  rw [ofText?, Text.takeWhile_run hwhole hrest, Text.dropWhile_run hwhole hrest]
  cases rest with
  | nil => simp [readExponent?, hne]
  | cons c rest =>
    have hc : c ≠ '.' := fun h => hpoint (congrArg some h)
    cases hread : readExponent? (c :: rest) <;> simp [hc, hne, hread]

theorem ofText?_fraction (hwhole : ∀ c ∈ whole, c.isDigit) (hne : whole ≠ [])
    (hfraction : ∀ c ∈ fraction, c.isDigit) :
    ofText? (whole ++ '.' :: fraction) =
      some (normalize (Nat.ofDigitChars 10 (whole ++ fraction) 0) (-fraction.length)) := by
  have hend : ∀ c ∈ ([] : List Char).head?, c.isDigit = false := by simp
  have hread := ofText?_point hwhole hne hfraction hend
  rw [List.append_nil] at hread
  simpa [readExponent?] using hread

/-! ### The shapes of a decimal -/

theorem positional_of_lt {n : Nat} (hn : 0 < n) (h : n < ds.length) :
    positional ds n = ds.take n ++ '.' :: ds.drop n := by
  have hzeros : n - ds.length = 0 := by omega
  have hdrop : ds.drop n ≠ [] := by simpa using h
  simp [positional, hzeros, hdrop, Nat.ne_of_gt hn]

theorem positional_of_le {n : Nat} (hn : 0 < n) (h : ds.length ≤ n) :
    positional ds n = ds ++ List.replicate (n - ds.length) '0' ++ '.' :: ['0'] := by
  simp [positional, h, List.take_of_length_le h, Nat.ne_of_gt hn]

theorem isDigit_of_mem_replicate {k : Nat} : ∀ c ∈ List.replicate k '0', c.isDigit := by
  intro c hc
  rw [List.eq_of_mem_replicate hc]
  rfl

theorem isDigit_of_mem_toDigits (n : Nat) : ∀ c ∈ Nat.toDigits 10 n, c.isDigit := fun _ hc =>
  Nat.isDigit_of_mem_toDigits (by decide) (by decide) hc

theorem isDigit_of_mem_append {es : List Char} (hds : ∀ c ∈ ds, c.isDigit)
    (hes : ∀ c ∈ es, c.isDigit) : ∀ c ∈ ds ++ es, c.isDigit := by
  intro c hc
  rcases List.mem_append.mp hc with hc | hc
  · exact hds c hc
  · exact hes c hc

theorem ofText?_positional (hds : ∀ c ∈ ds, c.isDigit) (hne : ds ≠ []) (point : Int) :
    ofText? (positional ds point) =
      some (normalize (Nat.ofDigitChars 10 ds 0) (point - ds.length)) := by
  by_cases hpoint : point ≤ 0
  · -- The digits are all behind the point, after some zeros.
    have hshape : positional ds point =
        ['0'] ++ '.' :: (List.replicate (-point).toNat '0' ++ ds) := by
      rw [positional, if_pos hpoint]
      rfl
    rw [hshape, ofText?_fraction (by simp) (by simp)
      (isDigit_of_mem_append isDigit_of_mem_replicate hds)]
    have hvalue : Nat.ofDigitChars 10 (['0'] ++ (List.replicate (-point).toNat '0' ++ ds)) 0 =
        Nat.ofDigitChars 10 ds 0 := by
      simp [Nat.ofDigitChars_append, Nat.ofDigitChars_cons, Nat.ofDigitChars_replicate_zero]
    rw [hvalue, List.length_append, List.length_replicate]
    congr 2
    omega
  · obtain ⟨n, rfl⟩ := Int.eq_ofNat_of_zero_le (Int.le_of_not_le hpoint)
    have hn : 0 < n := by omega
    rcases Nat.lt_or_ge n ds.length with h | h
    · -- The point is among the digits.
      have htake : ∀ c ∈ ds.take n, c.isDigit := fun c hc => hds c (List.mem_of_mem_take hc)
      have hdrop : ∀ c ∈ ds.drop n, c.isDigit := fun c hc => hds c (List.mem_of_mem_drop hc)
      have htake_ne : ds.take n ≠ [] := by simp [hne]; omega
      rw [positional_of_lt hn h, ofText?_fraction htake htake_ne hdrop, List.take_append_drop,
        List.length_drop]
      congr 2
      omega
    · -- The digits are all before the point, and the zeros after them go back into the exponent.
      have hwhole := isDigit_of_mem_append hds (isDigit_of_mem_replicate (k := n - ds.length))
      rw [positional_of_le hn h, ofText?_fraction hwhole (by simp [hne]) (by simp),
        List.append_assoc, Nat.ofDigitChars_append]
      have hzeros : Nat.ofDigitChars 10 (List.replicate (n - ds.length) '0' ++ ['0'])
          (Nat.ofDigitChars 10 ds 0) = Nat.ofDigitChars 10 ds 0 * 10 ^ (n - ds.length + 1) := by
        rw [← List.replicate_succ', Nat.ofDigitChars_replicate_zero, Nat.mul_comm]
      rw [hzeros, normalize_mul_pow]
      congr 2
      rw [List.length_singleton]
      omega

/-- The exponent of the scientific form. -/
def exponentText (exponent : Int) : List Char :=
  let power := Nat.toDigits 10 exponent.natAbs
  'e' :: (if exponent < 0 then '-' else '+') :: (List.replicate (2 - power.length) '0' ++ power)

theorem readExponent?_exponentText (exponent : Int) :
    readExponent? (exponentText exponent) = some exponent := by
  have hdigits := isDigit_of_mem_append (isDigit_of_mem_replicate
    (k := 2 - (Nat.toDigits 10 exponent.natAbs).length)) (isDigit_of_mem_toDigits exponent.natAbs)
  have hread : readNatural? (List.replicate (2 - (Nat.toDigits 10 exponent.natAbs).length) '0' ++
      Nat.toDigits 10 exponent.natAbs) = some exponent.natAbs := by
    rw [readNatural?, List.all_eq_true.mpr hdigits, Nat.ofDigitChars_append,
      Nat.ofDigitChars_replicate_zero, Nat.mul_zero, Nat.ofDigitChars_ten_toDigits]
    simp [Nat.toDigits_ne_nil]
  by_cases hneg : exponent < 0
  · rw [exponentText, if_pos hneg, readExponent?, hread]
    show some (-(exponent.natAbs : Int)) = some exponent
    rw [Int.ofNat_natAbs_of_nonpos (Int.le_of_lt hneg), Int.neg_neg]
  · rw [exponentText, if_neg hneg, readExponent?, hread]
    show some (exponent.natAbs : Int) = some exponent
    rw [Int.natAbs_of_nonneg (Int.not_lt.mp hneg)]

theorem ofText?_scientific (hds : ∀ c ∈ ds, c.isDigit) (hne : ds ≠ []) (exponent : Int) :
    ofText? (scientific ds exponent) =
      some (normalize (Nat.ofDigitChars 10 ds 0) (exponent + 1 - ds.length)) := by
  obtain ⟨d, ds, rfl⟩ := List.exists_cons_of_ne_nil hne
  obtain ⟨hd, hds⟩ := List.forall_mem_cons.mp hds
  have hwhole : ∀ c ∈ [d], c.isDigit := by simpa using hd
  have hrest : ∀ c ∈ (exponentText exponent).head?, c.isDigit = false := by
    rintro c ⟨⟩
    rfl
  by_cases hone : ds = []
  · subst hone
    have hshape : scientific [d] exponent = [d] ++ exponentText exponent := rfl
    rw [hshape, ofText?_no_point hwhole hne hrest (by simp [exponentText]),
      readExponent?_exponentText, Option.map_some]
    congr 2
    rw [List.length_singleton]
    omega
  · have hshape : scientific (d :: ds) exponent =
        [d] ++ '.' :: (ds ++ exponentText exponent) := by
      simp [scientific, exponentText, hone]
    rw [hshape, ofText?_point hwhole (by simp) hds hrest, readExponent?_exponentText,
      Option.map_some]
    congr 2
    rw [List.length_cons]
    omega

/-- A decimal is **read back** from its text. -/
theorem ofText?_text (d : Decimal) : ofText? d.text = some d := by
  have hds := isDigit_of_mem_toDigits d.digits
  have hexponent : d.point - (Nat.toDigits 10 d.digits).length = d.exponent := by
    rw [point]
    omega
  unfold text
  split
  · rw [ofText?_positional hds Nat.toDigits_ne_nil, Nat.ofDigitChars_ten_toDigits, hexponent,
      normalize_digits_exponent]
  · rw [ofText?_scientific hds Nat.toDigits_ne_nil, Nat.ofDigitChars_ten_toDigits,
      Int.sub_add_cancel, hexponent, normalize_digits_exponent]

/-! ### The characters of a decimal -/

theorem exists_cons_of_ofText? {cs : List Char} {d : Decimal} (h : ofText? cs = some d) :
    ∃ c rest, cs = c :: rest ∧ c.isDigit := by
  cases cs with
  | nil => cases h
  | cons c rest =>
    cases hc : c.isDigit with
    | true => exact ⟨c, rest, rfl, hc⟩
    | false => simp [ofText?, hc] at h

theorem exists_text_eq_cons (d : Decimal) : ∃ c rest, d.text = c :: rest ∧ c.isDigit :=
  exists_cons_of_ofText? d.ofText?_text

theorem mem_positional {point : Int} {c : Char} (hds : ∀ c ∈ ds, c.isDigit)
    (hc : c ∈ positional ds point) : c.isDigit ∨ c = '.' := by
  have hzero {k : Nat} (h : c ∈ List.replicate k '0') : c.isDigit := isDigit_of_mem_replicate c h
  unfold positional at hc
  split at hc
  · simp only [List.mem_cons, List.mem_append] at hc
    rcases hc with rfl | rfl | hc | hc
    · exact .inl rfl
    · exact .inr rfl
    · exact .inl (hzero hc)
    · exact .inl (hds c hc)
  · simp only [List.mem_cons, List.mem_append] at hc
    rcases hc with (hc | hc) | rfl | hc
    · exact .inl (hds c (List.mem_of_mem_take hc))
    · exact .inl (hzero hc)
    · exact .inr rfl
    · split at hc
      · exact .inl (isDigit_of_mem_replicate (k := 1) c hc)
      · exact .inl (hds c (List.mem_of_mem_drop hc))

theorem mem_scientific {exponent : Int} {c : Char} (hds : ∀ c ∈ ds, c.isDigit)
    (hc : c ∈ scientific ds exponent) : c.isDigit ∨ c ∈ ['.', 'e', '+', '-'] := by
  have hshape : scientific ds exponent =
      ds.take 1 ++ (if ds.length ≤ 1 then [] else '.' :: ds.drop 1) ++ exponentText exponent := rfl
  simp only [hshape, exponentText, List.mem_append, List.mem_cons] at hc
  rcases hc with (hc | hc) | rfl | hc | hc | hc
  · exact .inl (hds c (List.mem_of_mem_take hc))
  · split at hc
    · cases hc
    · rcases List.mem_cons.mp hc with rfl | hc
      · exact .inr (by simp)
      · exact .inl (hds c (List.mem_of_mem_drop hc))
  · exact .inr (by simp)
  · right
    split at hc <;> simp [hc]
  · exact .inl (isDigit_of_mem_replicate c hc)
  · exact .inl (isDigit_of_mem_toDigits _ c hc)

theorem mem_text {d : Decimal} {c : Char} (hc : c ∈ d.text) :
    c.isDigit ∨ c ∈ ['.', 'e', '+', '-'] := by
  have hds := isDigit_of_mem_toDigits d.digits
  rw [text] at hc
  split at hc
  · rcases mem_positional hds hc with h | rfl
    · exact .inl h
    · exact .inr (by simp)
  · exact mem_scientific hds hc

/-- A decimal is written with a point or an exponent. -/
theorem point_or_exponent_mem_text (d : Decimal) : '.' ∈ d.text ∨ 'e' ∈ d.text := by
  rw [text]
  split
  · left
    unfold positional
    split <;> simp
  · right
    simp [scientific]

end Decimal

/-! ### Floating-point numbers -/

namespace Floating

/-- A floating-point number is **read back** from its text. -/
theorem ofText?_text (x : Floating) : ofText? x.text = some x := by
  cases x with
  | nan => rfl
  | infinite negative => cases negative <;> rfl
  | finite negative d =>
    obtain ⟨c, cs, htext, hc⟩ := d.exists_text_eq_cons
    have hread : Decimal.ofText? (c :: cs) = some d := htext ▸ d.ofText?_text
    -- The other texts that are read start with one of these, behind a sign or not.
    have hi : c ≠ 'i' := by rintro rfl; cases hc
    have hn : c ≠ 'n' := by rintro rfl; cases hc
    have hsign : c ≠ '-' := by rintro rfl; cases hc
    cases negative with
    | true =>
      simp only [ofText?, text, htext, if_true, String.toList_ofList]
      split <;> simp_all
    | false =>
      simp only [ofText?, text, htext, Bool.false_eq_true, if_false, String.toList_ofList]
      split <;> simp_all

theorem text_inj {x y : Floating} : x.text = y.text ↔ x = y := by
  refine ⟨fun h => ?_, congrArg text⟩
  have hread := congrArg ofText? h
  rwa [ofText?_text, ofText?_text, Option.some.injEq] at hread

end Floating

/-! ### Numbers of either kind -/

namespace Number

/-- The characters that numbers are written with. -/
def isMark (c : Char) : Bool :=
  c.isDigit || ['-', '+', '.', 'e', 'n', 'a', 'i', 'f'].contains c

theorem isMark_of_isDigit {c : Char} (h : c.isDigit) : isMark c := by
  rw [isMark, h]
  rfl

/-- An integer is written as a sign, if it is negative, and the digits of its absolute value. -/
theorem toList_toString_int (n : Int) :
    (toString n).toList = (if n < 0 then ['-'] else []) ++ Nat.toDigits 10 n.natAbs := by
  rw [Int.toString_eq_repr, Int.repr_eq_if]
  split
  next h =>
    rw [Nat.toList_repr, if_neg (Int.not_lt.mpr h), List.nil_append]
    congr 1
    omega
  next h =>
    rw [String.toList_append, Nat.toList_repr, if_pos (Int.not_le.mp h)]
    congr 2
    omega

theorem mem_text_int {n : Int} {c : Char} (hc : c ∈ (int n).text.toList) :
    c.isDigit ∨ c = '-' := by
  have hlist := toList_toString_int n
  rw [text, hlist, List.mem_append] at hc
  rcases hc with hc | hc
  · right
    split at hc
    · exact List.mem_singleton.mp hc
    · cases hc
  · exact .inl (Decimal.isDigit_of_mem_toDigits _ c hc)

theorem text_int_inj {m n : Int} : (int m).text = (int n).text ↔ m = n := by
  refine ⟨fun h => ?_, fun h => h ▸ rfl⟩
  have hlist := congrArg String.toList h
  rw [text, text, toList_toString_int, toList_toString_int] at hlist
  have hnone {k : Nat} {cs : List Char} : Nat.toDigits 10 k ≠ '-' :: cs := by
    intro hk
    have hdigit := Decimal.isDigit_of_mem_toDigits k '-' (hk ▸ List.mem_cons_self)
    cases hdigit
  have hvalue {k l : Nat} (hkl : Nat.toDigits 10 k = Nat.toDigits 10 l) : k = l := by
    have hread := congrArg (Nat.ofDigitChars 10 · 0) hkl
    simpa using hread
  by_cases hm : m < 0
  · by_cases hn : n < 0
    · rw [if_pos hm, if_pos hn] at hlist
      have habs := hvalue (List.cons.inj hlist).2
      omega
    · rw [if_pos hm, if_neg hn] at hlist
      exact absurd hlist.symm hnone
  · by_cases hn : n < 0
    · rw [if_neg hm, if_pos hn] at hlist
      exact absurd hlist hnone
    · rw [if_neg hm, if_neg hn] at hlist
      have habs := hvalue hlist
      omega

/-- A floating-point number is written with some character that no integer has. -/
theorem exists_mem_text_float (x : Floating) :
    ∃ c ∈ (float x).text.toList, c.isDigit = false ∧ c ≠ '-' := by
  cases x with
  | nan => exact ⟨'n', List.mem_cons_self, rfl, by decide⟩
  | infinite negative =>
    refine ⟨'n', ?_, rfl, by decide⟩
    cases negative with
    | true => exact .tail _ (.tail _ (.head _))
    | false => exact .tail _ (.head _)
  | finite negative d =>
    have htext : ∀ c ∈ d.text, c ∈ (float (.finite negative d)).text.toList := by
      intro c hc
      cases negative <;> simp [text, Floating.text, hc]
    rcases d.point_or_exponent_mem_text with h | h
    · exact ⟨'.', htext _ h, rfl, by decide⟩
    · exact ⟨'e', htext _ h, rfl, by decide⟩

theorem isMark_of_mem_text {n : Number} {c : Char} (hc : c ∈ n.text.toList) : isMark c := by
  cases n with
  | int k =>
    rcases mem_text_int hc with h | rfl
    · exact isMark_of_isDigit h
    · rfl
  | float x =>
    cases x with
    | nan =>
      have hall : (float .nan).text.toList.all isMark := rfl
      exact List.all_eq_true.mp hall c hc
    | infinite negative =>
      have hall : (float (.infinite negative)).text.toList.all isMark := by cases negative <;> rfl
      exact List.all_eq_true.mp hall c hc
    | finite negative d =>
      have hdecimal : c = '-' ∨ c ∈ d.text := by
        cases negative with
        | true => simpa [text, Floating.text] using hc
        | false => exact .inr (by simpa [text, Floating.text] using hc)
      rcases hdecimal with rfl | h
      · rfl
      · rcases Decimal.mem_text h with h | h
        · exact isMark_of_isDigit h
        · rw [isMark, Bool.or_eq_true]
          simp only [List.mem_cons, List.not_mem_nil, or_false] at h
          rcases h with rfl | rfl | rfl | rfl <;> exact .inr rfl

/-- A number is **known by its text**. -/
theorem text_inj {m n : Number} : m.text = n.text ↔ m = n := by
  refine ⟨fun h => ?_, congrArg text⟩
  have hkind {k : Int} {x : Floating} : (int k).text ≠ (float x).text := by
    intro h
    obtain ⟨c, hc, hdigit, hsign⟩ := exists_mem_text_float x
    rw [← h] at hc
    rcases mem_text_int hc with hmark | hmark
    · simp [hdigit] at hmark
    · exact hsign hmark
  cases m with
  | int k =>
    cases n with
    | int l => rw [text_int_inj.mp h]
    | float y => exact absurd h hkind
  | float x =>
    cases n with
    | int l => exact absurd h.symm hkind
    | float y => rw [Floating.text_inj.mp h]

theorem exists_text_eq_cons (n : Number) : ∃ c rest, n.text.toList = c :: rest ∧ isMark c := by
  cases h : n.text.toList with
  | nil =>
    cases n with
    | int k =>
      rw [text, toList_toString_int] at h
      exact absurd (List.append_eq_nil_iff.mp h).2 Nat.toDigits_ne_nil
    | float x =>
      obtain ⟨c, hc, -⟩ := exists_mem_text_float x
      rw [h] at hc
      cases hc
  | cons c rest => exact ⟨c, rest, rfl, isMark_of_mem_text (h ▸ List.mem_cons_self)⟩

/-- A number is known by its text **in front of** anything that does not start with one of its
characters. -/
theorem text_append_inj {m n : Number} {rest rest' : List Char}
    (hrest : ∀ c ∈ rest.head?, isMark c = false) (hrest' : ∀ c ∈ rest'.head?, isMark c = false)
    (h : m.text.toList ++ rest = n.text.toList ++ rest') : m = n ∧ rest = rest' := by
  obtain ⟨htext, hrests⟩ := Text.run_append_inj (fun _ => isMark_of_mem_text)
    (fun _ => isMark_of_mem_text) hrest hrest' h
  exact ⟨text_inj.mp (String.toList_inj.mp htext), hrests⟩

end Number

end CursorParsers
