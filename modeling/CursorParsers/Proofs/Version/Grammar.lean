import CursorParsers.Proofs.Number.Limit
import CursorParsers.Version

/-!
# The grammar of version texts

A version text is spelled with three numerals and, after a dash, possibly a tag. Numerals and tags
are words: characters of one kind, at least one of them, and for a numeral at most six.

A word followed by a character of another kind is found again by taking characters as long as their
kind and the greatest length allow, which is how spellings are told apart.

## Main definitions

* `Word`, `Numeral`, `Tag`, `Spelling`: the words, and the derivations of version texts
* `Spelling.text`, `Spelling.version`: the text that a spelling makes, and what it stands for
* `Word.scan?`: the word at the front of a list

## Main results

* `Word.scan?_append`: a word is found at the front of what it is put before
* `Word.append_of_scan?`: a word that is found makes up the front of the list
* `Word.stop_of_scan?`, `Word.head_of_scan?_eq_none`: what stops a word
-/

namespace CursorParsers.Version

/-- One or more characters that pass a test, up to a number of them. -/
@[ext]
structure Word (test : Char → Bool) (limit : ℕ∞) where
  chars : List Char
  accepted : ∀ c ∈ chars, test c
  ne_nil : chars ≠ []
  length_le : (chars.length : ℕ∞) ≤ limit
  deriving DecidableEq

/-- Small letters and digits. -/
def isTagChar (c : Char) : Bool := ('a' ≤ c ∧ c ≤ 'z') || c.isDigit

/-- One to six digits. -/
abbrev Numeral := Word Char.isDigit 6

/-- One or more small letters and digits. -/
abbrev Tag := Word isTagChar ⊤

/-- The decimal value of a numeral. Leading zeros count nothing. -/
def Numeral.value (n : Numeral) : Nat := Nat.ofDigitChars 10 n.chars 0

/-- The text of a tag. -/
def Tag.text (t : Tag) : String := .ofList t.chars

/-- What a version text is derived from. -/
@[ext]
structure Spelling where
  major : Numeral
  minor : Numeral
  patch : Numeral
  tag : Option Tag
  deriving DecidableEq

namespace Spelling

/-- The characters of a tag after a dash. -/
def suffix : Option Tag → List Char
  | none => []
  | some t => '-' :: t.chars

/-- The three numerals, joined by dots, and the tag. -/
def chars (sp : Spelling) : List Char :=
  sp.major.chars ++ '.' :: (sp.minor.chars ++ '.' :: (sp.patch.chars ++ suffix sp.tag))

/-- The text that a spelling makes. -/
def text (sp : Spelling) : String := .ofList sp.chars

/-- The version that a spelling stands for. -/
def version (sp : Spelling) : Version where
  major := sp.major.value
  minor := sp.minor.value
  patch := sp.patch.value
  tag := sp.tag.map Tag.text

end Spelling

/-! ### Words at the front of a list -/

namespace Word

variable {test : Char → Bool} {limit : ℕ∞} {cs rest : List Char}

/-- The characters that can belong to a word at the front of a list. -/
def front (test : Char → Bool) (limit : ℕ∞) (cs : List Char) : List Char :=
  takeUpTo limit (cs.takeWhile test)

theorem isPrefix_front (cs : List Char) : front test limit cs <+: cs := by
  obtain ⟨ys, happ, -, -⟩ := takeUpTo_append limit (cs.takeWhile test)
  exact (List.prefix_append (front test limit cs) ys).trans (happ ▸ List.takeWhile_prefix test)

theorem front_accepted (cs : List Char) : ∀ c ∈ front test limit cs, test c := by
  intro c hc
  obtain ⟨ys, happ, -, -⟩ := takeUpTo_append limit (cs.takeWhile test)
  exact List.all_eq_true.mp List.all_takeWhile c (happ ▸ List.mem_append_left ys hc)

theorem length_front_le (cs : List Char) : ((front test limit cs).length : ℕ∞) ≤ limit := by
  obtain ⟨ys, -, hle, -⟩ := takeUpTo_append limit (cs.takeWhile test)
  exact hle

/-- The word at the front of a list, as long as it can be, and what follows it. -/
def scan? (cs : List Char) : Option (Word test limit × List Char) :=
  if h : front test limit cs = [] then none
  else some (⟨front test limit cs, front_accepted cs, h, length_front_le cs⟩,
    cs.drop (front test limit cs).length)

theorem front_append (w : Word test limit) (h : ∀ y ∈ rest.head?, test y = false) :
    front test limit (w.chars ++ rest) = w.chars := by
  -- The accepted characters end with the word, and the limit does not cut them.
  have hrest : rest.takeWhile test = [] := by
    cases rest with
    | nil => rfl
    | cons y ys => rw [List.takeWhile_cons, h y rfl]; rfl
  rw [front, List.takeWhile_append_of_pos w.accepted, hrest, List.append_nil,
    takeUpTo_eq_self w.length_le]

/-- A word is **found again** at the front of what it is put before. -/
theorem scan?_append (w : Word test limit) (h : ∀ y ∈ rest.head?, test y = false) :
    scan? (w.chars ++ rest) = some (w, rest) := by
  have hfront := front_append w h
  rw [scan?, dif_neg (by rw [hfront]; exact w.ne_nil)]
  have hdrop : (w.chars ++ rest).drop (front test limit (w.chars ++ rest)).length = rest := by
    rw [hfront, List.drop_left]
  exact congrArg some (Prod.ext (Word.ext hfront) hdrop)

theorem front_of_scan? {w : Word test limit} (h : scan? cs = some (w, rest)) :
    front test limit cs = w.chars := by
  rw [scan?] at h
  split at h
  next => cases h
  next => exact congrArg (fun found => found.1.chars) (Option.some.inj h)

theorem drop_of_scan? {w : Word test limit} (h : scan? cs = some (w, rest)) :
    cs.drop w.chars.length = rest := by
  rw [← front_of_scan? h]
  rw [scan?] at h
  split at h
  next => cases h
  next => exact congrArg Prod.snd (Option.some.inj h)

theorem front_of_scan?_eq_none (h : (scan? cs : Option (Word test limit × List Char)) = none) :
    front test limit cs = [] := by
  rw [scan?] at h
  split at h
  next hf => exact hf
  next => cases h

/-- A word that is found **makes up** the front of the list. -/
theorem append_of_scan? {w : Word test limit} (h : scan? cs = some (w, rest)) :
    w.chars ++ rest = cs := by
  rw [← drop_of_scan? h, ← front_of_scan? h]
  exact List.prefix_iff_eq_append.mp (isPrefix_front cs)

theorem head_of_takeWhile_eq_nil (h : cs.takeWhile test = []) : ∀ y ∈ cs.head?, test y = false := by
  cases cs with
  | nil => simp
  | cons c cs =>
    rintro _ ⟨⟩
    refine Bool.eq_false_iff.mpr fun hc => ?_
    rw [List.takeWhile_cons, if_pos hc] at h
    cases h

/-- **What follows a word** could not be part of it, unless the word is as long as a word can be. -/
theorem stop_of_scan? {w : Word test limit} (h : scan? cs = some (w, rest)) :
    (∀ y ∈ rest.head?, test y = false) ∨ (w.chars.length : ℕ∞) = limit := by
  obtain ⟨ys, happ, -, hstop⟩ := takeUpTo_append limit (cs.takeWhile test)
  rw [show takeUpTo limit (cs.takeWhile test) = w.chars from front_of_scan? h] at happ hstop
  rw [← append_of_scan? h, List.takeWhile_append_of_pos w.accepted] at happ
  rw [List.append_cancel_left happ] at hstop
  exact hstop.imp_left head_of_takeWhile_eq_nil

/-- Where **no word** is found, the first character could not be part of one. -/
theorem head_of_scan?_eq_none (hlimit : limit ≠ 0)
    (h : (scan? cs : Option (Word test limit × List Char)) = none) :
    ∀ y ∈ cs.head?, test y = false := by
  obtain ⟨ys, happ, -, hstop⟩ := takeUpTo_append limit (cs.takeWhile test)
  rw [show takeUpTo limit (cs.takeWhile test) = [] from front_of_scan?_eq_none h] at happ hstop
  have hys : ys = [] := hstop.resolve_right fun h0 => hlimit (by simpa using h0.symm)
  exact head_of_takeWhile_eq_nil (by rw [← happ, hys]; rfl)

end Word

end CursorParsers.Version
