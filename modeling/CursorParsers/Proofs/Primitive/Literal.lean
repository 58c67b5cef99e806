import CursorParsers.Proofs.Primitive.Streak

/-!
# Literals

A literal is compared with the text character by character. So what is found is said by the longest
common prefix of the literal and the characters that are left: it is the whole literal, or the text
ends behind it, or the next characters differ.

## Main definitions

* `IsLongestCommonPrefix`: the characters up to which two texts agree

## Main results

* `Primitive.compareChars_append`: what agrees is passed over
* `Primitive.literal_exact`: what a literal answers at any position
-/

namespace CursorParsers

/-- The characters up to which two texts agree. -/
structure IsLongestCommonPrefix (u xs ys : List Char) : Prop where
  left : u <+: xs
  right : u <+: ys
  longest : ∀ v, v <+: xs → v <+: ys → v.length ≤ u.length

/-- Two texts part if no character begins both. -/
def Part (xs ys : List Char) : Prop := ∀ a b, xs.head? = some a → ys.head? = some b → a ≠ b

section Parting

variable {u v xs ys : List Char}

/-- Two texts agree up to a place where they part. -/
theorem exists_part (xs ys : List Char) :
    ∃ u xs' ys', xs = u ++ xs' ∧ ys = u ++ ys' ∧ Part xs' ys' := by
  induction xs generalizing ys with
  | nil => exact ⟨[], [], ys, rfl, rfl, nofun⟩
  | cons x xs ih =>
    cases ys with
    | nil => exact ⟨[], x :: xs, [], rfl, rfl, nofun⟩
    | cons y ys =>
      by_cases hxy : x = y
      · subst hxy
        obtain ⟨u, xs', ys', rfl, rfl, hpart⟩ := ih ys
        exact ⟨x :: u, xs', ys', rfl, rfl, hpart⟩
      · refine ⟨[], x :: xs, y :: ys, rfl, rfl, fun a b ha hb => ?_⟩
        rwa [← Option.some.inj ha, ← Option.some.inj hb]

theorem Part.eq_nil (h : Part xs ys) (hx : v <+: xs) (hy : v <+: ys) : v = [] := by
  cases v with
  | nil => rfl
  | cons a v =>
    obtain ⟨xs', rfl⟩ := hx
    obtain ⟨ys', rfl⟩ := hy
    exact absurd rfl (h a a rfl rfl)

/-- The place where two texts part ends what they have in common. -/
theorem Part.isLongestCommonPrefix (h : Part xs ys) (u : List Char) :
    IsLongestCommonPrefix u (u ++ xs) (u ++ ys) where
  left := List.prefix_append u xs
  right := List.prefix_append u ys
  longest v hx hy := by
    by_contra hlength
    -- A longer common prefix would go on behind the place.
    obtain ⟨w, rfl⟩ := List.prefix_of_prefix_length_le (List.prefix_append u xs) hx (by omega)
    rw [List.prefix_append_right_inj] at hx hy
    simp [h.eq_nil hx hy] at hlength

end Parting

namespace Primitive

variable {t : String} {s : Stream} {c : Int}

/-- What **agrees** is passed over. -/
theorem compareChars_append (t : String) (u es cs : List Char) :
    compareChars t (u ++ es) (u ++ cs) = compareChars t es cs := by
  induction u with
  | nil => rfl
  | cons x u ih => rw [List.cons_append, List.cons_append, compareChars, if_pos rfl, ih]

/-! ### Messages -/

theorem message_literalCut (reason : Missing) (t : String) :
    (Failure.literalCut reason t).message = reason.message ++ " while matching '" ++ t ++ "'" := by
  have hopen : " while matching " ++ "'" = " while matching '" := by decide
  show reason.message ++ " while matching " ++ ("'" ++ t ++ "'") = _
  rw [← hopen]
  simp only [String.append_assoc]

theorem message_literalDiffers_chars (a b : Char) (t : String) :
    (Failure.literalDiffers a b t).message =
      "Expected '" ++ String.singleton a ++ "' but found '" ++ String.singleton b ++
        "' while matching '" ++ t ++ "'" := by
  have hopen : "Expected " ++ "'" = "Expected '" := by decide
  have hfound : "'" ++ (" but found " ++ "'") = "' but found '" := by decide
  have hwhile : "'" ++ (" while matching " ++ "'") = "' while matching '" := by decide
  show "Expected " ++ ("'" ++ String.singleton a ++ "'") ++ " but found " ++
    ("'" ++ String.singleton b ++ "'") ++ " while matching " ++ ("'" ++ t ++ "'") = _
  rw [← hopen, ← hfound, ← hwhile]
  simp only [String.append_assoc]

/-- Which of the two failures it is can be told from the message. -/
theorem message_literalDiffers_ne_literalCut (a b : Char) (t : String) :
    (Failure.literalDiffers a b t).message ≠ (Failure.literalCut .endOfInput t).message := by
  intro h
  have hsecond := congrArg (fun message => message.toList[1]?) h
  rw [message_literalDiffers_chars, message_literalCut] at hsecond
  simp only [String.toList_append, List.append_assoc] at hsecond
  have hchar : some 'x' = some 'n' := hsecond
  exact absurd hchar (by decide)

/-! ### What a literal answers -/

theorem run_literal_of_empty (s : Stream) (c : Int) :
    (literal "").parser.run s (.int c) = pure (.matched (.text "") (.int c)) := by
  have hread : (literal "").read s (.int c) = .ok (.ok (.text "", .int c)) := by
    rw [read, readLiteral, String.toList_empty, expectChars]
    simp [bind, Except.bind, pure, Except.pure]
  rw [run_parser_of_read hread]
  rfl

theorem run_literal_of_nonpos (ht : t ≠ "") (hc : c ≤ 0) :
    (literal t).parser.run s (.int c) =
      pure (.err (.text (Failure.literalCut .invalidState t).message)) := by
  obtain ⟨e, es, hes⟩ := List.exists_cons_of_ne_nil (mt String.toList_eq_nil_iff.mp ht)
  have hread : (literal t).read s (.int c) = .ok (.error (.literalCut .invalidState t)) := by
    simp only [read, readLiteral, hes, expectChars_cons_int, Stream.fetch_of_nonpos hc, bind,
      Except.bind, pure, Except.pure]
  rw [run_parser_of_read hread]
  rfl

theorem run_literal_of_compareChars_ok (hc : 1 ≤ c)
    (h : compareChars t t.toList (s.rest c) = .ok ()) :
    (literal t).parser.run s (.int c) = pure (.matched (.text t) (.int (c + t.length))) :=
  run_of_consume_ok hc (by rw [consume, h]; rfl)

theorem run_literal_of_compareChars_error (hc : 1 ≤ c) {failure : Failure}
    (h : compareChars t t.toList (s.rest c) = .error failure) :
    (literal t).parser.run s (.int c) = pure (.err (.text failure.message)) :=
  run_of_consume_error hc (by rw [consume, h]; rfl)

/-- A literal matches where the characters that are left begin with it. -/
theorem run_literal_eq_matched_iff (hc : 1 ≤ c) :
    (literal t).parser.run s (.int c) = pure (.matched (.text t) (.int (c + t.length))) ↔
      t.toList <+: s.rest c := by
  rw [← compareChars_iff (t := t)]
  refine ⟨fun hrun => ?_, run_literal_of_compareChars_ok hc⟩
  cases hcompare : compareChars t t.toList (s.rest c) with
  | ok => rfl
  | error failure =>
    rw [run_literal_of_compareChars_error hc hcompare] at hrun
    cases congrArg Run.outcome hrun

/-- Where the literal and the text differ behind what they have in common, the two characters
are reported. -/
theorem run_literal_of_differs (hc : 1 ≤ c) {u es cs : List Char} {a b : Char}
    (ht : t.toList = u ++ a :: es) (hrest : s.rest c = u ++ b :: cs) (hab : a ≠ b) :
    (literal t).parser.run s (.int c) =
      pure (.err (.text (Failure.literalDiffers a b t).message)) := by
  refine run_literal_of_compareChars_error hc ?_
  rw [ht, hrest, compareChars_append, compareChars, if_neg hab.symm]

/-- The text is said to have ended where what is left of it is a proper prefix of the
literal. -/
theorem run_literal_eq_cut_iff (hc : 1 ≤ c) :
    (literal t).parser.run s (.int c) =
        pure (.err (.text (Failure.literalCut .endOfInput t).message)) ↔
      s.rest c <+: t.toList ∧ s.rest c ≠ t.toList := by
  obtain ⟨u, es, cs, ht, hrest, hpart⟩ := exists_part t.toList (s.rest c)
  rcases es with _ | ⟨a, es⟩
  · rw [List.append_nil] at ht
    have hmatched : t.toList <+: s.rest c := ⟨cs, by rw [ht, hrest]⟩
    rw [(run_literal_eq_matched_iff hc).mpr hmatched]
    refine iff_of_false (fun hrun => by cases congrArg Run.outcome hrun) ?_
    rintro ⟨hbegins, hne⟩
    exact hne (hbegins.eq_of_length (le_antisymm hbegins.length_le hmatched.length_le))
  rcases cs with _ | ⟨b, cs⟩
  · rw [List.append_nil] at hrest
    refine iff_of_true (run_literal_of_compareChars_error hc ?_) ⟨?_, ?_⟩
    · rw [ht, hrest, ← List.append_nil u, List.append_assoc, compareChars_append]
      rfl
    · exact ⟨a :: es, by rw [ht, hrest]⟩
    · rw [ht, hrest]
      simp
  · have hab := hpart a b rfl rfl
    rw [run_literal_of_differs hc ht hrest hab]
    refine iff_of_false (fun hrun => ?_) ?_
    · have hanswer := Value.text.inj (Reply.err.inj (Except.ok.inj (congrArg Run.outcome hrun)))
      exact message_literalDiffers_ne_literalCut a b t hanswer
    · rintro ⟨hbegins, -⟩
      rw [ht, hrest, List.prefix_append_right_inj, List.cons_prefix_cons] at hbegins
      exact hab hbegins.1.symm

/-- **A literal matches exactly itself, and reports the first difference.**

The empty literal matches at every position, and any other fails below the first position as an
invalid one. From there on, what decides is the longest common prefix of the literal and the
characters that are left. If that is the whole literal, it matches. Otherwise, if nothing is left
behind it, the text has ended; and if there is a character, it is reported with the one expected.

So the text is said to have ended exactly if what is left is a proper prefix of the literal, however
far past the end the position is. -/
theorem literal_exact (t : String) (s : Stream) (c : Int) :
    (t = "" → (literal t).parser.run s (.int c) = pure (.matched (.text "") (.int c))) ∧
    (t ≠ "" → c ≤ 0 → (literal t).parser.run s (.int c) =
      pure (.err (.text ("Invalid State while matching '" ++ t ++ "'")))) ∧
    (t ≠ "" → 1 ≤ c → ∃ u, IsLongestCommonPrefix u t.toList (s.rest c) ∧
      ((literal t).parser.run s (.int c) = pure (.matched (.text t) (.int (c + t.length))) ↔
        u.length = t.length) ∧
      (u.length = t.length ↔ t.toList <+: s.rest c) ∧
      (u.length ≠ t.length → u.length = (s.rest c).length →
        (literal t).parser.run s (.int c) =
          pure (.err (.text ("End of Input while matching '" ++ t ++ "'")))) ∧
      (u.length ≠ t.length → u.length < (s.rest c).length →
        ∃ a b, t.toList[u.length]? = some a ∧ (s.rest c)[u.length]? = some b ∧ a ≠ b ∧
          (literal t).parser.run s (.int c) = pure (.err (.text ("Expected '" ++
            String.singleton a ++ "' but found '" ++ String.singleton b ++
            "' while matching '" ++ t ++ "'")))) ∧
      ((literal t).parser.run s (.int c) =
          pure (.err (.text ("End of Input while matching '" ++ t ++ "'"))) ↔
        s.rest c <+: t.toList ∧ s.rest c ≠ t.toList)) := by
  have hcut : (Failure.literalCut .endOfInput t).message =
      "End of Input while matching '" ++ t ++ "'" := message_literalCut .endOfInput t
  refine ⟨?_, fun ht hc => ?_, fun _ hc => ?_⟩
  · rintro rfl
    exact run_literal_of_empty s c
  · rw [run_literal_of_nonpos ht hc, message_literalCut]
    rfl
  obtain ⟨u, es, cs, ht, hrest, hpart⟩ := exists_part t.toList (s.rest c)
  have htext : t.length = u.length + es.length := by
    rw [← String.length_toList, ht, List.length_append]
  have hleft : (s.rest c).length = u.length + cs.length := by rw [hrest, List.length_append]
  have hwhole : u.length = t.length ↔ t.toList <+: s.rest c := by
    rw [ht, hrest, List.prefix_append_right_inj, htext, Nat.left_eq_add, List.length_eq_zero_iff]
    exact ⟨fun h => h ▸ List.nil_prefix, hpart.eq_nil List.prefix_rfl⟩
  rw [← hcut, run_literal_eq_cut_iff hc, run_literal_eq_matched_iff hc]
  refine ⟨u, ?_, hwhole.symm, hwhole, fun hne hend => ?_, fun hne hmore => ?_, Iff.rfl⟩
  · rw [ht, hrest]
    exact hpart.isLongestCommonPrefix u
  · obtain rfl : cs = [] := List.eq_nil_of_length_eq_zero (by omega)
    refine ⟨⟨es, by rw [ht, hrest, List.append_nil]⟩, fun heq => hne ?_⟩
    rw [hend, heq, String.length_toList]
  · obtain ⟨a, es, rfl⟩ : ∃ a es', es = a :: es' := List.exists_cons_of_length_pos (by omega)
    obtain ⟨b, cs, rfl⟩ : ∃ b cs', cs = b :: cs' := List.exists_cons_of_length_pos (by omega)
    have hab := hpart a b rfl rfl
    refine ⟨a, b, by simp [ht], by simp [hrest], hab, ?_⟩
    rw [run_literal_of_differs hc ht hrest hab, message_literalDiffers_chars]

/-- A difference is found before the end of the text, and the end is found far behind it. -/
theorem literal_exact_version :
    (literal "1.2").parser.run (.ofText "v1-2") (.int 2) =
        pure (.err (.text "Expected '.' but found '-' while matching '1.2'")) ∧
      (literal "1.2").parser.run (.ofText "v1-2") (.int 9) =
        pure (.err (.text "End of Input while matching '1.2'")) := by
  constructor
  · obtain ⟨u, hcommon, -, hwhole, -, hdiffers, -⟩ :=
      (literal_exact "1.2" (.ofText "v1-2") 2).2.2 (by decide) (by decide)
    have hne : u.length ≠ 3 := mt hwhole.mp (by decide)
    have hlt : u.length < 3 := lt_of_le_of_ne hcommon.right.length_le hne
    obtain ⟨a, b, ha, hb, hab, hrun⟩ := hdiffers hne hlt
    obtain hj | hj | hj : u.length = 0 ∨ u.length = 1 ∨ u.length = 2 := by omega
    · rw [hj] at ha hb
      exact absurd (Option.some.inj (ha.symm.trans hb)) hab
    · rw [hj] at ha hb
      obtain rfl : '.' = a := Option.some.inj ha
      obtain rfl : '-' = b := Option.some.inj hb
      exact hrun
    · rw [hj] at ha hb
      exact absurd (Option.some.inj (ha.symm.trans hb)) hab
  · obtain ⟨u, -, -, -, -, -, hended⟩ :=
      (literal_exact "1.2" (.ofText "v1-2") 9).2.2 (by decide) (by decide)
    exact hended.mpr (by decide)

end Primitive

end CursorParsers
