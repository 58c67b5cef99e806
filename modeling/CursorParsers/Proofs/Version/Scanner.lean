import CursorParsers.Proofs.Version.Grammar

/-!
# Scanning version texts

The pieces of a version text can be found without positions, by taking them off the front of a list
of characters. What comes out is a spelling of the list, and every spelling comes out, so that a
list has at most one.

## Main definitions

* `scan`: the spelling of a list of characters, or the message for the first piece that is missing

## Main results

* `chars_of_scan`: a spelling that comes out is one of the list
* `scan_chars`: every spelling comes out
* `Spelling.chars_injective`: no list is spelled in two ways
-/

namespace CursorParsers.Version

variable {test : Char → Bool} {limit : ℕ∞} {expectation : String} {cs rest : List Char}

/-- The message of a word that is missing. -/
def missing (expectation : String) : String :=
  "Expected " ++ expectation ++ ": " ++ (Failure.tooShort (.int 1) (.int 0)).message

/-- The word at the front. -/
def scanWord (expectation : String) (cs : List Char) :
    Except String (Word test limit × List Char) :=
  match Word.scan? cs with
  | some found => .ok found
  | none => .error (missing expectation)

/-- What follows the dot at the front. -/
def scanDot : List Char → Except String (List Char)
  | [] => .error (Failure.literalCut .endOfInput ".").message
  | c :: cs => if c = '.' then .ok cs else .error (Failure.literalDiffers '.' c ".").message

def scanNumeral (cs : List Char) : Except String (Numeral × List Char) :=
  scanWord "version number" cs

def scanDotNumeral (cs : List Char) : Except String (Numeral × List Char) := do
  scanNumeral (← scanDot cs)

/-- The tag after the dash at the front, if there is a dash. -/
def scanTag : List Char → Except String (Option Tag × List Char)
  | [] => .ok (none, [])
  | c :: cs =>
    if c = '-' then do
      let (tag, rest) ← scanWord "pre-release tag" cs
      return (some tag, rest)
    else .ok (none, c :: cs)

def scanEnd : List Char → Except String Unit
  | [] => .ok ()
  | c :: _ => .error (Failure.notAtEnd c).message

/-- The spelling of a list of characters, or the message for the first piece that is missing. -/
def scan (cs : List Char) : Except String Spelling := do
  let (major, afterMajor) ← scanNumeral cs
  let (minor, afterMinor) ← scanDotNumeral afterMajor
  let (patch, afterPatch) ← scanDotNumeral afterMinor
  let (tag, rest) ← scanTag afterPatch
  scanEnd rest
  return { major, minor, patch, tag }

/-! ### What comes out is a spelling -/

theorem exists_of_bind_eq_ok {α β : Type} {x : Except String α} {f : α → Except String β} {b : β}
    (h : x >>= f = .ok b) : ∃ a, x = .ok a ∧ f a = .ok b := by
  cases x with
  | error m => cases h
  | ok a => exact ⟨a, rfl, h⟩

theorem append_of_scanWord {w : Word test limit} (h : scanWord expectation cs = .ok (w, rest)) :
    w.chars ++ rest = cs := by
  rw [scanWord] at h
  split at h
  next hf => exact Word.append_of_scan? (Except.ok.inj h ▸ hf)
  next => cases h

theorem cons_of_scanDot (h : scanDot cs = .ok rest) : '.' :: rest = cs := by
  cases cs with
  | nil => cases h
  | cons c cs =>
    rw [scanDot] at h
    split at h
    next hc => rw [hc, Except.ok.inj h]
    next => cases h

theorem append_of_scanDotNumeral {n : Numeral} (h : scanDotNumeral cs = .ok (n, rest)) :
    '.' :: (n.chars ++ rest) = cs := by
  obtain ⟨mid, hdot, hnum⟩ := exists_of_bind_eq_ok h
  rw [append_of_scanWord hnum, cons_of_scanDot hdot]

theorem append_of_scanTag {tag : Option Tag} (h : scanTag cs = .ok (tag, rest)) :
    Spelling.suffix tag ++ rest = cs := by
  cases cs with
  | nil =>
    obtain ⟨rfl, rfl⟩ := Prod.mk.inj (Except.ok.inj h)
    rfl
  | cons c cs =>
    rw [scanTag] at h
    split at h
    next hc =>
      obtain ⟨⟨t, ys⟩, hword, hout⟩ := exists_of_bind_eq_ok h
      obtain ⟨rfl, rfl⟩ := Prod.mk.inj (Except.ok.inj hout)
      rw [hc, ← append_of_scanWord hword]
      rfl
    next =>
      obtain ⟨rfl, rfl⟩ := Prod.mk.inj (Except.ok.inj h)
      rfl

theorem nil_of_scanEnd {u : Unit} (h : scanEnd cs = .ok u) : cs = [] := by
  cases cs with
  | nil => rfl
  | cons c cs => cases h

/-- **Soundness.** A spelling that comes out is one of the list. -/
theorem chars_of_scan {sp : Spelling} (h : scan cs = .ok sp) : sp.chars = cs := by
  -- Each piece gives back the characters that it has taken off the front of what was left.
  obtain ⟨⟨major, cs₁⟩, hmajor, h⟩ := exists_of_bind_eq_ok h
  obtain ⟨⟨minor, cs₂⟩, hminor, h⟩ := exists_of_bind_eq_ok h
  obtain ⟨⟨patch, cs₃⟩, hpatch, h⟩ := exists_of_bind_eq_ok h
  obtain ⟨⟨tag, cs₄⟩, htag, h⟩ := exists_of_bind_eq_ok h
  obtain ⟨u, hend, hout⟩ := exists_of_bind_eq_ok h
  obtain rfl := nil_of_scanEnd hend
  obtain rfl := Except.ok.inj hout
  have htag' := append_of_scanTag htag
  rw [List.append_nil] at htag'
  rw [Spelling.chars, htag', append_of_scanDotNumeral hpatch, append_of_scanDotNumeral hminor,
    append_of_scanWord hmajor]

/-! ### Every spelling comes out -/

theorem scanWord_append (w : Word test limit) (h : ∀ y ∈ rest.head?, test y = false) :
    scanWord expectation (w.chars ++ rest) = .ok (w, rest) := by
  rw [scanWord, Word.scan?_append w h]

theorem scanDotNumeral_append (n : Numeral) (h : ∀ y ∈ rest.head?, y.isDigit = false) :
    scanDotNumeral ('.' :: (n.chars ++ rest)) = .ok (n, rest) :=
  scanWord_append n h

theorem scanTag_suffix (tag : Option Tag) : scanTag (Spelling.suffix tag) = .ok (tag, []) := by
  cases tag with
  | none => rfl
  | some t =>
    have hword : scanWord "pre-release tag" (t.chars ++ []) = .ok (t, []) :=
      scanWord_append t (by simp)
    rw [List.append_nil] at hword
    -- Nothing follows a tag, so it is all that is left behind the dash.
    rw [Spelling.suffix, scanTag, if_pos rfl, hword]
    rfl

/-- **Completeness.** Every spelling comes out. -/
theorem scan_chars (sp : Spelling) : scan sp.chars = .ok sp := by
  have hdot : ∀ xs : List Char, ∀ y ∈ ('.' :: xs).head?, y.isDigit = false := by
    rintro xs y ⟨⟩
    rfl
  have hsuffix : ∀ y ∈ (Spelling.suffix sp.tag).head?, y.isDigit = false := by
    cases sp.tag with
    | none => simp [Spelling.suffix]
    | some t =>
      rintro y ⟨⟩
      rfl
  have hmajor : scanNumeral sp.chars = .ok (sp.major, _) := scanWord_append sp.major (hdot _)
  rw [scan, hmajor]
  simp only [bind, Except.bind, scanDotNumeral_append _ (hdot _), scanDotNumeral_append _ hsuffix,
    scanTag_suffix]
  rfl

/-- No list is **spelled in two ways**. -/
theorem Spelling.chars_injective : Function.Injective Spelling.chars := by
  intro sp sp' h
  have hscan := scan_chars sp
  rw [h, scan_chars] at hscan
  exact (Except.ok.inj hscan).symm

end CursorParsers.Version
