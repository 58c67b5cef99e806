import CursorParsers.Text.Quoted
import Mathlib.Algebra.Group.Nat.Defs

/-!
# Reading quoted text

A quoted text is read back one character after the other: a backslash starts an escape, and each
escape tells by its first letter where it ends. The quote at the end is not taken for a character of
the text, since within the text it stands behind a backslash.

## Main definitions

* `Text.ofHexDigits`: the number that hexadecimal digits denote
* `Text.readFirst`: the first character of what stands between two quotes

## Main results

* `Text.readFirst_escape`: an escape is read back, whatever follows
* `Text.quoteList_append_inj`: a text is known by its quoted form, whatever follows
-/

namespace CursorParsers.Text

/-! ### Hexadecimal digits -/

/-- The value of a hexadecimal digit. -/
def hexValue (c : Char) : Nat := if c.toNat < 0x3a then c.toNat - 0x30 else c.toNat - 0x57

/-- The number that hexadecimal digits denote. -/
def ofHexDigits (ds : List Char) : Nat := ds.foldl (fun n c => 16 * n + hexValue c) 0

theorem hexValue_digitChar : ∀ k < 16, hexValue (Nat.digitChar k) = k := by decide

theorem ofHexDigits_concat (ds : List Char) (c : Char) :
    ofHexDigits (ds ++ [c]) = 16 * ofHexDigits ds + hexValue c := by
  rw [ofHexDigits, List.foldl_append]
  rfl

theorem ofHexDigits_hexDigits (width n : Nat) :
    ofHexDigits (hexDigits width n) = n % 16 ^ width := by
  induction width generalizing n with
  | zero => rw [Nat.pow_zero, Nat.mod_one]; rfl
  | succ width ih =>
    rw [hexDigits, ofHexDigits_concat, ih, hexValue_digitChar _ (Nat.mod_lt _ (by decide)),
      Nat.pow_succ', Nat.mod_mul, Nat.add_comm]

/-! ### One character -/

/-- What stands behind a backslash: the code of the character that it stands for, and the
rest. -/
def readEscape : List Char → Nat × List Char
  | 't' :: rest => (0x09, rest)
  | 'n' :: rest => (0x0a, rest)
  | 'r' :: rest => (0x0d, rest)
  | 'x' :: rest => (ofHexDigits (rest.take 2), rest.drop 2)
  | 'u' :: rest => (ofHexDigits (rest.take 4), rest.drop 4)
  | 'U' :: rest => (ofHexDigits (rest.take 8), rest.drop 8)
  | c :: rest => (c.toNat, rest)
  | [] => (0, [])

/-- The first character of a text between quotes, by its code, and the rest. -/
def readFirst : List Char → Nat × List Char
  | [] => (0, [])
  | c :: rest => if c = '\\' then readEscape rest else (c.toNat, rest)

variable {printable : Char → Bool} {q c d : Char} {cs ds rest rest' : List Char}

theorem read_hexDigits {w n : Nat} (h : n < 16 ^ w) (rest : List Char) :
    (ofHexDigits ((hexDigits w n ++ rest).take w),
      (hexDigits w n ++ rest).drop w) = (n, rest) := by
  rw [List.take_left' (length_hexDigits w n), List.drop_left' (length_hexDigits w n),
    ofHexDigits_hexDigits, Nat.mod_eq_of_lt h]

/-- The number of digits of an escape by code is told by its first letter. -/
theorem readFirst_escapeCode (c : Char) (rest : List Char) :
    readFirst (escapeCode c.toNat ++ rest) = (c.toNat, rest) := by
  have hc : c.toNat < 16 ^ 8 := c.val.toNat_lt
  unfold escapeCode
  split
  next h => exact read_hexDigits (w := 2) h rest
  next =>
    split
    next h => exact read_hexDigits (w := 4) h rest
    next => exact read_hexDigits (w := 8) hc rest

theorem escape_cases (printable : Char → Bool) (q c : Char) :
    (escape printable q c = ['\\', c] ∧ (c = q ∨ c = '\\')) ∨
    (∃ letter, escape printable q c = ['\\', letter] ∧
      (c, letter) ∈ [('\t', 't'), ('\n', 'n'), ('\r', 'r')]) ∨
    escape printable q c = escapeCode c.toNat ∨
    (escape printable q c = [c] ∧ c ≠ q ∧ c ≠ '\\') := by
  unfold escape
  split
  next h => exact .inl ⟨rfl, h⟩
  next hplain =>
    obtain ⟨hq, hbackslash⟩ := not_or.mp hplain
    split
    next h => exact .inr (.inl ⟨_, rfl, by simp [h]⟩)
    next =>
      split
      next h => exact .inr (.inl ⟨_, rfl, by simp [h]⟩)
      next =>
        split
        next h => exact .inr (.inl ⟨_, rfl, by simp [h]⟩)
        next =>
          split
          next => exact .inr (.inr (.inl rfl))
          next =>
            split
            next => exact .inr (.inr (.inr ⟨rfl, hq, hbackslash⟩))
            next => exact .inr (.inr (.inl rfl))

/-- A character is **read back** from between quotes, whatever follows. -/
theorem readFirst_escape (hq : q = apostrophe ∨ q = doubleQuote) (c : Char) (rest : List Char) :
    readFirst (escape printable q c ++ rest) = (c.toNat, rest) := by
  rcases escape_cases printable q c with ⟨h, rfl | rfl⟩ | ⟨letter, h, hc⟩ | h | ⟨h, -, hc⟩
  · rw [h]
    rcases hq with rfl | rfl <;> rfl
  · rw [h]
    rfl
  · rw [h]
    simp only [List.mem_cons, Prod.mk.injEq, List.not_mem_nil, or_false] at hc
    rcases hc with ⟨rfl, rfl⟩ | ⟨rfl, rfl⟩ | ⟨rfl, rfl⟩ <;> rfl
  · rw [h, readFirst_escapeCode]
  · rw [h]
    exact if_neg hc

theorem escape_append_inj (hq : q = apostrophe ∨ q = doubleQuote)
    (h : escape printable q c ++ rest = escape printable q d ++ rest') : c = d ∧ rest = rest' := by
  have hread := congrArg readFirst h
  rw [readFirst_escape hq, readFirst_escape hq, Prod.mk.injEq] at hread
  exact ⟨Char.toNat_inj.mp hread.1, hread.2⟩

theorem backslash_ne_quote (hq : q = apostrophe ∨ q = doubleQuote) : '\\' ≠ q := by
  rcases hq with rfl | rfl <;> decide

theorem exists_escape_eq_cons (hq : q = apostrophe ∨ q = doubleQuote) (c : Char) :
    ∃ d ds, escape printable q c = d :: ds ∧ d ≠ q := by
  have hbackslash := backslash_ne_quote hq
  rcases escape_cases printable q c with ⟨h, -⟩ | ⟨letter, h, -⟩ | h | ⟨h, hc, -⟩
  · exact ⟨_, _, h, hbackslash⟩
  · exact ⟨_, _, h, hbackslash⟩
  · rw [h, escapeCode]
    split
    · exact ⟨_, _, rfl, hbackslash⟩
    · split
      · exact ⟨_, _, rfl, hbackslash⟩
      · exact ⟨_, _, rfl, hbackslash⟩
  · exact ⟨_, _, h, hc⟩

theorem escape_append_ne_cons (hq : q = apostrophe ∨ q = doubleQuote) (c : Char)
    (rest rest' : List Char) : escape printable q c ++ rest ≠ q :: rest' := by
  obtain ⟨d, ds, h, hd⟩ := exists_escape_eq_cons hq c
  rw [h]
  exact fun heq => hd (List.cons.inj heq).1

/-! ### A whole text -/

theorem quoteOf_eq (cs : List Char) : quoteOf cs = apostrophe ∨ quoteOf cs = doubleQuote := by
  unfold quoteOf
  split
  · exact .inr rfl
  · exact .inl rfl

/-- What stands up to the quote is known, whatever follows. -/
theorem flatMap_escape_append_inj (hq : q = apostrophe ∨ q = doubleQuote)
    (h : cs.flatMap (escape printable q) ++ q :: rest =
      ds.flatMap (escape printable q) ++ q :: rest') : cs = ds ∧ rest = rest' := by
  induction cs generalizing ds with
  | nil =>
    cases ds with
    | nil => exact ⟨rfl, (List.cons.inj h).2⟩
    | cons d ds =>
      rw [List.flatMap_cons, List.append_assoc] at h
      exact absurd h.symm (escape_append_ne_cons hq _ _ _)
  | cons c cs ih =>
    cases ds with
    | nil =>
      rw [List.flatMap_cons, List.append_assoc] at h
      exact absurd h (escape_append_ne_cons hq _ _ _)
    | cons d ds =>
      rw [List.flatMap_cons, List.flatMap_cons, List.append_assoc, List.append_assoc] at h
      obtain ⟨rfl, hrest⟩ := escape_append_inj hq h
      obtain ⟨rfl, hend⟩ := ih hrest
      exact ⟨rfl, hend⟩

theorem quoteList_append (cs rest : List Char) : quoteList printable cs ++ rest =
    quoteOf cs :: (cs.flatMap (escape printable (quoteOf cs)) ++ quoteOf cs :: rest) := by
  simp [quoteList]

/-- A text is **known by its quoted form**, whatever follows. -/
theorem quoteList_append_inj
    (h : quoteList printable cs ++ rest = quoteList printable ds ++ rest') :
    cs = ds ∧ rest = rest' := by
  rw [quoteList_append, quoteList_append] at h
  obtain ⟨hquote, htail⟩ := List.cons.inj h
  rw [← hquote] at htail
  exact flatMap_escape_append_inj (quoteOf_eq cs) htail

theorem quote_append_inj {s t : String} (h : (quote printable s).toList ++ rest =
    (quote printable t).toList ++ rest') : s = t ∧ rest = rest' := by
  rw [quote, quote, String.toList_ofList, String.toList_ofList] at h
  obtain ⟨hlist, hrest⟩ := quoteList_append_inj h
  exact ⟨String.toList_inj.mp hlist, hrest⟩

end CursorParsers.Text
