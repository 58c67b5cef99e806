import CursorParsers.Proofs.Version.Parsing

/-!
# The language of version texts

Parsing accepts the texts that have a spelling and returns the version that the spelling stands for.
All other texts are answered with an error, and the text in which a version is printed is parsed
back to it.

## Main definitions

* `Numeral.ofNat`: the numeral that a number is printed as

## Main results

* `parse_exact`: the accepted texts and their versions
-/

namespace CursorParsers.Version

/-! ### Printed numbers -/

/-- The numeral without leading zeros for a number below a million. -/
def Numeral.ofNat (n : ℕ) (h : n < 10 ^ 6) : Numeral where
  chars := Nat.toDigits 10 n
  accepted _ hc := Nat.isDigit_of_mem_toDigits (by decide) (by decide) hc
  ne_nil := Nat.toDigits_ne_nil
  length_le := by
    have hlen : (Nat.toDigits 10 n).length ≤ 6 :=
      (Nat.length_toDigits_le_iff (by decide) (by decide)).mpr h
    exact_mod_cast hlen

@[simp] theorem Numeral.value_ofNat (n : ℕ) (h : n < 10 ^ 6) : (Numeral.ofNat n h).value = n :=
  Nat.ofDigitChars_ten_toDigits

namespace Spelling

variable {a b c : ℕ}

/-- The spelling of a printed version. -/
def ofNumbers (ha : a < 10 ^ 6) (hb : b < 10 ^ 6) (hc : c < 10 ^ 6) (tag : Option Tag) :
    Spelling where
  major := .ofNat a ha
  minor := .ofNat b hb
  patch := .ofNat c hc
  tag := tag

variable (ha : a < 10 ^ 6) (hb : b < 10 ^ 6) (hc : c < 10 ^ 6) (tag : Option Tag)

theorem version_ofNumbers : (ofNumbers ha hb hc tag).version = ⟨a, b, c, tag.map Tag.text⟩ := by
  simp [version, ofNumbers]

theorem text_ofNumbers :
    (ofNumbers ha hb hc tag).text = Version.text ⟨a, b, c, tag.map Tag.text⟩ := by
  have hprint : ∀ n : ℕ, (n : Int).repr.toList = Nat.toDigits 10 n := by
    intro n
    have hcast : (n : Int).repr = n.repr := rfl
    rw [hcast, Nat.toList_repr]
  rw [← String.toList_inj, text, String.toList_ofList, Version.text]
  cases tag with
  | none => simp [chars, ofNumbers, Numeral.ofNat, suffix, hprint]
  | some t => simp [chars, ofNumbers, Numeral.ofNat, suffix, hprint, Tag.text]

end Spelling

/-! ### The accepted texts -/

theorem scan_eq_ok_iff {text : String} {sp : Spelling} :
    scan text.toList = .ok sp ↔ sp.text = text := by
  rw [Spelling.text, ← String.toList_inj, String.toList_ofList]
  constructor
  · exact chars_of_scan
  · intro h
    rw [← h]
    exact scan_chars sp

theorem parse_of_scan_eq_ok [Repertoire] {text : String} {sp : Spelling}
    (h : scan text.toList = .ok sp) : parse text = pure (.ok sp.version) := by
  rw [parse_eq_scan, h]

theorem parse_of_scan_eq_error [Repertoire] {text m : String} (h : scan text.toList = .error m) :
    parse text = pure (.error (.text m)) := by
  rw [parse_eq_scan, h]

theorem parse_text [Repertoire] (sp : Spelling) : parse sp.text = pure (.ok sp.version) :=
  parse_of_scan_eq_ok (scan_eq_ok_iff.mpr rfl)

theorem exists_spelling_of_parse [Repertoire] {text : String} {v : Version}
    (h : parse text = pure (.ok v)) : ∃ sp : Spelling, sp.text = text ∧ sp.version = v := by
  cases hs : scan text.toList with
  | error m =>
    rw [parse_of_scan_eq_error hs] at h
    cases congrArg Run.outcome h
  | ok sp =>
    rw [parse_of_scan_eq_ok hs] at h
    have hv := Except.ok.inj (Except.ok.inj (congrArg Run.outcome h))
    exact ⟨sp, scan_eq_ok_iff.mp hs, hv⟩

/-- **Exactness.** A version is the outcome of parsing a text if it is what a spelling of the text
stands for. No text has two spellings, and one that has none is answered with an error. Printed
versions are parsed back, as long as no number has more than six digits. -/
theorem parse_exact [Repertoire] :
    (∀ text : String,
      (∀ v, parse text = pure (.ok v) ↔ ∃ sp : Spelling, sp.text = text ∧ sp.version = v) ∧
      (∀ sp sp' : Spelling, sp.text = text → sp'.text = text → sp = sp') ∧
      ((∀ sp : Spelling, sp.text ≠ text) → ∃ m, parse text = pure (.error (.text m)))) ∧
    ∀ (a b c : ℕ) (tag : Option Tag), a < 10 ^ 6 → b < 10 ^ 6 → c < 10 ^ 6 →
      parse (Version.text ⟨a, b, c, tag.map Tag.text⟩) =
        pure (.ok ⟨a, b, c, tag.map Tag.text⟩) := by
  refine ⟨fun text => ⟨fun v => ⟨exists_spelling_of_parse, ?_⟩, ?_, ?_⟩, ?_⟩
  · rintro ⟨sp, rfl, rfl⟩
    exact parse_text sp
  -- Scanning finds each spelling of the text, and finds only one.
  · intro sp sp' h h'
    have hchars := congrArg String.toList (h.trans h'.symm)
    rw [Spelling.text, Spelling.text, String.toList_ofList, String.toList_ofList] at hchars
    exact Spelling.chars_injective hchars
  · intro hnone
    cases hs : scan text.toList with
    | error m => exact ⟨m, parse_of_scan_eq_error hs⟩
    | ok sp => exact absurd (scan_eq_ok_iff.mp hs) (hnone sp)
  · intro a b c tag ha hb hc
    rw [← Spelling.text_ofNumbers ha hb hc, ← Spelling.version_ofNumbers ha hb hc]
    exact parse_text _

/-- A printed version with a tag, a text with leading zeros, and a text without dots. -/
theorem parse_exact_release :
    parse "0.22.999999-rc1" = pure (.ok ⟨0, 22, 999999, some "rc1"⟩) ∧
    (∀ sp : Spelling, sp.text = "007.0.1" → sp.major.chars = ['0', '0', '7'] ∧ sp.tag = none) ∧
    ∃ m, parse "1-rc1" = pure (.error (.text m)) := by
  refine ⟨?_, ?_, ?_⟩
  · have hprinted := parse_exact.2 0 22 999999
      (some ⟨['r', 'c', '1'], List.all_eq_true.mp rfl, by decide, le_top⟩)
      (by norm_num) (by norm_num) (by norm_num)
    have htext : Version.text ⟨0, 22, 999999, some "rc1"⟩ = "0.22.999999-rc1" := by decide
    rw [← htext]
    exact hprinted
  · intro sp h
    have hsix : ∀ k : ℕ, k ≤ 6 → (k : ℕ∞) ≤ 6 := fun k hk => by exact_mod_cast hk
    have hunique := (parse_exact.1 "007.0.1").2.1 sp
      ⟨⟨['0', '0', '7'], List.all_eq_true.mp rfl, by decide, hsix 3 (by decide)⟩,
        ⟨['0'], List.all_eq_true.mp rfl, by decide, hsix 1 (by decide)⟩,
        ⟨['1'], List.all_eq_true.mp rfl, by decide, hsix 1 (by decide)⟩, none⟩ h rfl
    rw [hunique]
    exact ⟨rfl, rfl⟩
  · refine (parse_exact.1 "1-rc1").2.2 ?_
    intro sp h
    have hdot : '.' ∈ sp.text.toList := by simp [Spelling.text, Spelling.chars]
    rw [h] at hdot
    exact absurd hdot (by decide)

end CursorParsers.Version
