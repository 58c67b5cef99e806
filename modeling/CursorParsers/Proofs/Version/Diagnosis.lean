import CursorParsers.Proofs.Version.Complaint
import CursorParsers.Proofs.Version.Language

/-!
# The first error of a version text

A text that is no version text goes wrong at one place: behind its longest prefix with which a
version text can start. The error of parsing names what is wrong there, and it depends only on the
end of that prefix, the number of its dots and the character that follows it.

## Main definitions

* `Accepted`, `Viable`: version texts, and the prefixes of version texts
* `LongestViable`: the place where a text goes wrong
* `firstError`: what is wrong there

## Main results

* `longestViable_iff`: a text goes wrong where reading halts
* `parse_first_error`: the error of parsing says what is wrong at that place
-/

namespace CursorParsers.Version

variable {r : Reading} {u w cs : List Char} {text : String}

/-- A text that parsing accepts. -/
def Accepted [Repertoire] (text : String) : Prop := ∃ v, parse text = pure (.ok v)

/-- A prefix of an accepted text. -/
def Viable [Repertoire] (u : List Char) : Prop := ∃ text, Accepted text ∧ u <+: text.toList

/-- A list that is split behind its longest viable prefix. -/
structure LongestViable [Repertoire] (cs u w : List Char) : Prop where
  append_eq : u ++ w = cs
  viable : Viable u
  length_le : ∀ u', Viable u' → u' <+: cs → u'.length ≤ u.length

/-- What is wrong behind a viable prefix, seen from the end of the prefix, its dots, and the
character that follows. -/
def firstError (u w : List Char) : Option String :=
  if u = [] ∨ u.getLast? = some '.' then
    some "Expected version number: Expected at least 1 characters, matched 0"
  else if u.getLast? = some '-' then
    some "Expected pre-release tag: Expected at least 1 characters, matched 0"
  else if u.getLast?.any Char.isDigit ∧ u.count '.' < 2 then
    match w with
    | [] => some "End of Input while matching '.'"
    | x :: _ => some ("Expected '.' but found '" ++ String.singleton x ++ "' while matching '.'")
  else w.head?.map fun x => "Expected end of input, found '" ++ String.singleton x ++ "'"

/-! ### Messages -/

theorem message_notAtEnd (x : Char) : (Failure.notAtEnd x).message =
    "Expected end of input, found '" ++ String.singleton x ++ "'" := by
  have hbefore : "Expected end of input, found " ++ "'" = "Expected end of input, found '" := by
    decide
  show "Expected end of input, found " ++ ("'" ++ String.singleton x ++ "'") = _
  rw [← String.append_assoc, ← String.append_assoc, hbefore]

theorem message_literalDiffers (x : Char) : (Failure.literalDiffers '.' x ".").message =
    "Expected '.' but found '" ++ String.singleton x ++ "' while matching '.'" := by
  have hbefore : "Expected " ++ Failure.inMarks (String.singleton '.') ++ " but found " ++ "'" =
      "Expected '.' but found '" := by decide
  have hafter : "'" ++ " while matching " ++ Failure.inMarks "." = "' while matching '.'" := by
    decide
  show "Expected " ++ Failure.inMarks (String.singleton '.') ++ " but found " ++
    ("'" ++ String.singleton x ++ "'") ++ " while matching " ++ Failure.inMarks "." = _
  rw [← hafter, ← hbefore]
  simp only [String.append_assoc]

/-! ### The end of a viable prefix -/

/-- Behind a digit or a letter, it is the next character that matters. -/
theorem firstError_of_getLast? {c : Char} (hlast : u.getLast? = some c) (hc : isTagChar c) :
    firstError u w =
      if c.isDigit ∧ u.count '.' < 2 then
        match w with
        | [] => some "End of Input while matching '.'"
        | x :: _ =>
          some ("Expected '.' but found '" ++ String.singleton x ++ "' while matching '.'")
      else w.head?.map fun x => "Expected end of input, found '" ++ String.singleton x ++ "'" := by
  have hne : u ≠ [] := by
    rintro rfl
    cases hlast
  simp [firstError, hlast, hne, Reading.ne_of_isTagChar hc]

/-- The complaint of a reading is what is wrong behind the characters that it describes. -/
theorem Reading.Describes.complaint_eq (h : r.Describes u) (w : List Char) :
    r.complaint w = firstError u w := by
  cases r with
  | numeral dots digits =>
    cases digits with
    | zero =>
      unfold firstError
      rw [if_pos h.2.2]
      rfl
    | succ digits =>
      obtain ⟨-, hcount, c, hlast, hdigit⟩ := h
      have hfirst := firstError_of_getLast? (w := w) hlast (isTagChar_of_isDigit hdigit)
      simp only [hfirst, hdigit, hcount, true_and]
      cases w with
      | nil => rfl
      | cons x w =>
        rw [complaint, message_literalDiffers, message_notAtEnd]
        rfl
  | dash =>
    have hne : u ≠ [] := by
      rintro rfl
      cases h.2
    unfold firstError
    rw [h.2, if_neg (by simp [hne]), if_pos rfl]
    rfl
  | tag =>
    obtain ⟨hcount, c, hlast, htag⟩ := h
    rw [firstError_of_getLast? hlast htag, if_neg (by omega)]
    cases w with
    | nil => rfl
    | cons x w =>
      rw [complaint, message_notAtEnd]
      rfl

/-! ### Viable prefixes -/

theorem accepted_iff_spelling [Repertoire] : Accepted text ↔ ∃ sp : Spelling, sp.text = text := by
  constructor
  · rintro ⟨v, hv⟩
    obtain ⟨sp, hsp, -⟩ := exists_spelling_of_parse hv
    exact ⟨sp, hsp⟩
  · rintro ⟨sp, rfl⟩
    exact ⟨sp.version, parse_text sp⟩

/-- A text is accepted if there is nothing to complain about where reading halts. Otherwise the
complaint is its error. -/
theorem accepted_or_parse_eq_error [Repertoire] (h : Reading.halt .start text.toList = (r, w)) :
    r.complaint w = none ∧ Accepted text ∨
      ∃ m, r.complaint w = some m ∧ parse text = pure (.error (.text m)) := by
  have hexplains := Reading.explains_scan text.toList
  rw [h] at hexplains
  cases hs : scan text.toList with
  | ok sp =>
    rw [hs] at hexplains
    exact .inl ⟨hexplains, sp.version, parse_of_scan_eq_ok hs⟩
  | error m =>
    rw [hs] at hexplains
    exact .inr ⟨m, hexplains, parse_of_scan_eq_error hs⟩

theorem not_accepted_of_parse_eq_error [Repertoire] {m : String}
    (h : parse text = pure (.error (.text m))) : ¬ Accepted text := by
  rintro ⟨v, hv⟩
  rw [h] at hv
  cases congrArg Run.outcome hv

/-- A text is accepted if it is read to its end, at a reading where it can end. -/
theorem accepted_ofList_iff [Repertoire] :
    Accepted (.ofList cs) ↔ ∃ r, cs.foldlM Reading.step .start = some r ∧ r.IsFinal := by
  constructor
  · intro hacc
    rcases hhalt : Reading.halt .start cs with ⟨r, w⟩
    rw [← String.toList_ofList (l := cs)] at hhalt
    obtain ⟨hnone, -⟩ | ⟨m, -, herror⟩ := accepted_or_parse_eq_error hhalt
    · obtain ⟨hfinal, rfl⟩ := Reading.complaint_eq_none_iff.mp hnone
      obtain ⟨u, hu, hread, -⟩ := Reading.exists_of_halt hhalt
      rw [List.append_nil, String.toList_ofList] at hu
      exact ⟨r, hu ▸ hread, hfinal⟩
    · exact absurd hacc (not_accepted_of_parse_eq_error herror)
  · rintro ⟨r, hread, hfinal⟩
    have hhalt := Reading.halt_append hread []
    rw [List.append_nil, ← String.toList_ofList (l := cs)] at hhalt
    obtain ⟨-, hacc⟩ | ⟨m, hm, -⟩ := accepted_or_parse_eq_error hhalt
    · exact hacc
    · rw [Reading.complaint_eq_none_iff.mpr ⟨hfinal, rfl⟩] at hm
      cases hm

theorem viable_iff [Repertoire] : Viable u ↔ ∃ r, u.foldlM Reading.step .start = some r := by
  constructor
  · rintro ⟨text, hacc, z, hz⟩
    rw [← String.ofList_toList (s := text), accepted_ofList_iff, ← hz, List.foldlM_append] at hacc
    obtain ⟨r, hr, -⟩ := hacc
    obtain ⟨r₁, hr₁, -⟩ := Option.bind_eq_some_iff.mp hr
    exact ⟨r₁, hr₁⟩
  · rintro ⟨r, hr⟩
    obtain ⟨z, r', hz, hfinal⟩ := (Reading.describes_of_foldlM hr).exists_completion
    refine ⟨.ofList (u ++ z), accepted_ofList_iff.mpr ⟨r', ?_, hfinal⟩, ?_⟩
    · rw [List.foldlM_append, hr]
      exact hz
    · rw [String.toList_ofList]
      exact List.prefix_append u z

/-- A list goes wrong **where reading halts**. -/
theorem longestViable_iff [Repertoire] : LongestViable cs u w ↔
    u ++ w = cs ∧ ∃ r, u.foldlM Reading.step .start = some r ∧ ∀ c ∈ w.head?, r.step c = none := by
  constructor
  · rintro ⟨rfl, hviable, hlongest⟩
    obtain ⟨r, hr⟩ := viable_iff.mp hviable
    refine ⟨rfl, r, hr, fun c hc => ?_⟩
    obtain ⟨w, rfl⟩ := List.head?_eq_some_iff.mp hc
    -- One more character would make a longer viable prefix.
    by_contra hstep
    obtain ⟨r', hr'⟩ := Option.ne_none_iff_exists'.mp hstep
    have hnext : Viable (u ++ [c]) := by
      refine viable_iff.mpr ⟨r', ?_⟩
      rw [List.foldlM_append, hr]
      simpa using hr'
    have hle := hlongest _ hnext ⟨w, by simp⟩
    rw [List.length_append, List.length_singleton] at hle
    omega
  · rintro ⟨rfl, r, hr, hstuck⟩
    refine ⟨rfl, viable_iff.mpr ⟨r, hr⟩, fun u' hviable hpre => ?_⟩
    by_contra hlt
    obtain ⟨z, rfl⟩ := List.prefix_of_prefix_length_le (List.prefix_append u w) hpre (by omega)
    cases z with
    | nil => simp at hlt
    | cons c z =>
      obtain ⟨w', rfl⟩ := (List.prefix_append_right_inj u).mp hpre
      obtain ⟨r', hr'⟩ := viable_iff.mp hviable
      rw [List.foldlM_append, hr] at hr'
      simp [hstuck c rfl] at hr'

/-! ### The error -/

theorem eq_of_mem_around {before after : String} {x y : Char} (hbefore : y ∉ before.toList)
    (hafter : y ∉ after.toList) (h : y ∈ (before ++ String.singleton x ++ after).toList) :
    y = x := by
  simpa [hbefore, hafter] using h

/-- No error speaks of an invalid state: that takes two capital letters, of which only the
offending character could be one. -/
theorem not_invalidState_of_firstError {m : String} (h : firstError u w = some m) :
    ¬ "Invalid State".toList <:+: m.toList := by
  intro hinfix
  have hI : 'I' ∈ m.toList := hinfix.subset (by decide)
  have hS : 'S' ∈ m.toList := hinfix.subset (by decide)
  unfold firstError at h
  split_ifs at h
  · obtain rfl := Option.some.inj h
    exact absurd hS (by decide)
  · obtain rfl := Option.some.inj h
    exact absurd hS (by decide)
  · cases w with
    | nil =>
      obtain rfl := Option.some.inj h
      exact absurd hS (by decide)
    | cons x w =>
      obtain rfl := Option.some.inj h
      have hx := eq_of_mem_around (by decide) (by decide) hI
      rw [← hx] at hS
      exact absurd hS (by decide)
  · obtain ⟨x, -, rfl⟩ := Option.map_eq_some_iff.mp h
    have hx := eq_of_mem_around (by decide) (by decide) hI
    rw [← hx] at hS
    exact absurd hS (by decide)

/-- **The first error.** A text that is not accepted goes wrong behind its longest viable prefix,
and the error says what is wrong there; where the prefix alone would be right, it is a version text
itself. No text ends in a fault, and no error speaks of an invalid state. -/
theorem parse_first_error [Repertoire] (text : String) :
    (Accepted text ↔ ∃ sp : Spelling, sp.text = text) ∧
    (¬ Accepted text →
      (∃ u w, LongestViable text.toList u w) ∧
      ∀ u w, LongestViable text.toList u w →
        (∃ m, firstError u w = some m ∧ parse text = pure (.error (.text m))) ∧
        (firstError u [] = none → Accepted (.ofList u))) ∧
    (Accepted text ∨ ∃ m, parse text = pure (.error (.text m)) ∧
      ¬ "Invalid State".toList <:+: m.toList) := by
  -- Reading halts behind the longest viable prefix, and complains about what is wrong there.
  have hsplit : ∀ u w, LongestViable text.toList u w →
      firstError u w = none ∧ Accepted text ∨
        ∃ m, firstError u w = some m ∧ parse text = pure (.error (.text m)) := by
    intro u w h
    obtain ⟨happ, r, hr, hstuck⟩ := longestViable_iff.mp h
    rw [← (Reading.describes_of_foldlM hr).complaint_eq]
    refine accepted_or_parse_eq_error ?_
    rw [← happ, Reading.halt_append hr, Reading.halt_of_stuck hstuck]
  obtain ⟨u₀, w₀, h₀⟩ : ∃ u w, LongestViable text.toList u w := by
    rcases hhalt : Reading.halt .start text.toList with ⟨r, w⟩
    obtain ⟨u, happ, hr, hstuck⟩ := Reading.exists_of_halt hhalt
    exact ⟨u, w, longestViable_iff.mpr ⟨happ, r, hr, hstuck⟩⟩
  refine ⟨accepted_iff_spelling, fun hacc => ⟨⟨u₀, w₀, h₀⟩, fun u w h =>
    ⟨?_, fun hnone => ?_⟩⟩, ?_⟩
  · exact (hsplit u w h).resolve_left fun h => hacc h.2
  · obtain ⟨-, r, hr, -⟩ := longestViable_iff.mp h
    rw [← (Reading.describes_of_foldlM hr).complaint_eq, Reading.complaint_eq_none_iff] at hnone
    exact accepted_ofList_iff.mpr ⟨r, hr, hnone.1⟩
  · obtain ⟨-, hacc⟩ | ⟨m, hm, herror⟩ := hsplit u₀ w₀ h₀
    · exact .inl hacc
    · exact .inr ⟨m, herror, not_invalidState_of_firstError hm⟩

/-- The seventh digit of a numeral is the offending character. -/
theorem parse_first_error_digit :
    parse "1.1234567.0" =
      pure (.error (.text "Expected '.' but found '7' while matching '.'")) := by
  have hhalt : Reading.halt .start "1.1234567.0".toList = (.numeral 1 6, ['7', '.', '0']) := rfl
  have hacc : ¬ Accepted "1.1234567.0" := by
    obtain ⟨hnone, -⟩ | ⟨m, -, herror⟩ := accepted_or_parse_eq_error hhalt
    · cases hnone
    · exact not_accepted_of_parse_eq_error herror
  have hlongest : LongestViable "1.1234567.0".toList "1.123456".toList ['7', '.', '0'] :=
    longestViable_iff.mpr ⟨rfl, .numeral 1 6, rfl, by rintro _ ⟨⟩; rfl⟩
  obtain ⟨⟨m, hm, herror⟩, -⟩ := ((parse_first_error "1.1234567.0").2.1 hacc).2 _ _ hlongest
  rw [herror, ← Option.some.inj hm]
  rfl

end CursorParsers.Version
