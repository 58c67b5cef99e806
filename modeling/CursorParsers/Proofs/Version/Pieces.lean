import CursorParsers.Proofs.Repetition.Characters
import CursorParsers.Proofs.Text.Digits
import CursorParsers.Proofs.Version.Scanner

/-!
# The pieces of version texts

What the parsers of the pieces answer depends on the characters that are left at their position,
and is what scanning finds at the front of these characters.

## Main definitions

* `Stands`: a position at which given characters are left
* `ReadsWords`: a repetition that reads words

## Main results

* `ReadsWords.run_of_some`, `ReadsWords.run_of_none`: its answers
* `run_number_of_some`, `run_tagText_of_some`, `run_dot_of_ok`, `run_dash_of_cons`, …: the answers
  of the pieces
-/

namespace CursorParsers.Version

variable {s : Stream} {c : Int}

/-- A position at which given characters are left. -/
def Stands (s : Stream) (position : Int) (cs : List Char) : Prop :=
  1 ≤ position ∧ s.rest position = cs

theorem Stands.add {cs : List Char} (h : Stands s c cs) (k : ℕ) :
    Stands s (c + k) (cs.drop k) :=
  ⟨by have := h.1; omega, by rw [Stream.rest_add h.1, h.2]⟩

/-! ### Words -/

section Words

variable {q : Primitive} {b : Range} {test : Char → Bool} {limit : ℕ∞} {cs rest : List Char}

/-- A repetition that reads words of given characters, up to a limit. -/
structure ReadsWords (q : Primitive) (b : Range) (test : Char → Bool) (limit : ℕ∞) : Prop where
  test : q.test? = some test
  min : b.min = .int 1
  whole : b.max.IsWhole
  limit : b.max.limit = limit

/-- Since words are not empty, their limit is a whole maximum. -/
theorem ReadsWords.max_eq (hq : ReadsWords q b test limit) : b.max = .bound limit := by
  have hgreater := b.max_not_lessEq
  rw [← hq.limit]
  obtain ⟨m, hm⟩ | hinf := hq.whole
  · rw [hq.min, hm, Number.lessEq_int, decide_eq_false_iff_not] at hgreater
    rw [hm, Number.limit_int, Number.bound_natCast, Int.toNat_of_nonneg (by omega)]
  · rw [hinf, Number.limit_infinity, Number.bound_top]

theorem ReadsWords.run_of_some [Repertoire] (hq : ReadsWords q b test limit) (hc : Stands s c cs)
    {w : Word test limit} (h : Word.scan? cs = some (w, rest)) :
    (q.parser.range b).run s (.int c) =
      pure (.matched (.text (.ofList w.chars)) (.int (c + w.chars.length))) := by
  have hfront : takeUpTo limit (s.run c test) = w.chars := by
    rw [Stream.run, hc.2]
    exact Word.front_of_scan? h
  -- A word is not empty, so it meets the minimum of one character.
  have hlen : 0 < w.chars.length := List.length_pos_iff.mpr w.ne_nil
  have hless : (Number.int w.chars.length).less (.int 1) = false := by
    rw [Number.less_int, decide_eq_false_iff_not]
    omega
  rw [Primitive.run_range_of_test hq.test hq.max_eq hc.1 hfront, hq.min, hless]
  rfl

theorem ReadsWords.run_of_none [Repertoire] (hq : ReadsWords q b test limit) (hc : Stands s c cs)
    (h : (Word.scan? cs : Option (Word test limit × List Char)) = none) :
    (q.parser.range b).run s (.int c) =
      pure (.err (.text (Failure.tooShort (.int 1) (.int 0)).message)) := by
  have hfront : takeUpTo limit (s.run c test) = [] := by
    rw [Stream.run, hc.2]
    exact Word.front_of_scan?_eq_none h
  rw [Primitive.run_range_of_test hq.test hq.max_eq hc.1 hfront, hq.min]
  rfl

end Words

/-! ### The pieces -/

variable {cs : List Char}

theorem accepts_digits {set : Charset} (h : set.text = "0-9") : set.accepts = Char.isDigit := by
  funext d
  have hsegments : set.segments = [.span '0' '9'] := by
    rw [Charset.segments, h]
    decide
  simp [Charset.accepts, hsegments, Segment.accepts, Char.isDigit, Char.le_def]

theorem accepts_tagChars {set : Charset} (h : set.text = "a-z0-9") : set.accepts = isTagChar := by
  funext d
  have hsegments : set.segments = [.span 'a' 'z', .span '0' '9'] := by
    rw [Charset.segments, h]
    decide
  simp [Charset.accepts, hsegments, Segment.accepts, isTagChar, Char.isDigit, Char.le_def]

theorem readsWords_digits {set : Charset} {b : Range} (hset : set.text = "0-9")
    (hmin : b.min = .int 1) (hmax : b.max = .int 6) :
    ReadsWords (.oneOf set) b Char.isDigit 6 where
  test := congrArg some (accepts_digits hset)
  min := hmin
  whole := .inl ⟨6, hmax⟩
  limit := by
    rw [hmax, Number.limit_int]
    rfl

theorem readsWords_tagChars {set : Charset} {b : Range} (hset : set.text = "a-z0-9")
    (hmin : b.min = .int 1) (hmax : b.max = .infinity) :
    ReadsWords (.oneOf set) b isTagChar ⊤ where
  test := congrArg some (accepts_tagChars hset)
  min := hmin
  whole := .inr hmax
  limit := by rw [hmax, Number.limit_infinity]

variable [Repertoire]

theorem run_number_of_some (hc : Stands s c cs) {n : Numeral} {rest : List Char}
    (h : Word.scan? cs = some (n, rest)) :
    number.parser.run s (.int c) = pure (.matched (.int n.value) (.int (c + n.chars.length))) := by
  -- The captured characters are digits, so reading them cannot end in a fault.
  have hint : Transform.toInteger (.text (.ofList n.chars)) = .ok (.int n.value) := by
    rw [Transform.toInteger, Text.readInteger?_of_isDigit n.accepted n.ne_nil]
    rfl
  show ((((Primitive.oneOf _).parser.range _).map _).label _).run s (.int c) = _
  rw [Parser.run_label, Parser.run_map, (readsWords_digits rfl rfl rfl).run_of_some hc h, pure_bind,
    Reply.andThen_matched, hint]
  rfl

theorem run_number_of_none (hc : Stands s c cs)
    (h : (Word.scan? cs : Option (Numeral × List Char)) = none) :
    number.parser.run s (.int c) = pure (.err (.text (missing "version number"))) := by
  show ((((Primitive.oneOf _).parser.range _).map _).label _).run s (.int c) = _
  rw [Parser.run_label, Parser.run_map, (readsWords_digits rfl rfl rfl).run_of_none hc h]
  rfl

theorem run_tagText_of_some (hc : Stands s c cs) {t : Tag} {rest : List Char}
    (h : Word.scan? cs = some (t, rest)) :
    tagText.parser.run s (.int c) = pure (.matched (.text t.text) (.int (c + t.chars.length))) := by
  show (((Primitive.oneOf _).parser.range _).label _).run s (.int c) = _
  rw [Parser.run_label, (readsWords_tagChars rfl rfl rfl).run_of_some hc h]
  rfl

theorem run_tagText_of_none (hc : Stands s c cs)
    (h : (Word.scan? cs : Option (Tag × List Char)) = none) :
    tagText.parser.run s (.int c) = pure (.err (.text (missing "pre-release tag"))) := by
  show (((Primitive.oneOf _).parser.range _).label _).run s (.int c) = _
  rw [Parser.run_label, (readsWords_tagChars rfl rfl rfl).run_of_none hc h]
  rfl

theorem run_dot_of_ok (hc : Stands s c cs) {rest : List Char} (h : scanDot cs = .ok rest) :
    dot.parser.run s (.int c) = pure (.matched .null (.int (c + 1))) := by
  have hcons : (Primitive.literal ".").consume (s.rest c) = .ok (.text ".", 1) := by
    rw [hc.2, ← cons_of_scanDot h]
    exact Primitive.consume_literal_singleton '.' _
  show (Primitive.parser (.literal ".")).discard.run s (.int c) = _
  rw [Parser.run_discard, Primitive.run_of_consume_ok hc.1 hcons]
  rfl

theorem run_dot_of_error (hc : Stands s c cs) {m : String} (h : scanDot cs = .error m) :
    dot.parser.run s (.int c) = pure (.err (.text m)) := by
  obtain ⟨failure, hcons, rfl⟩ : ∃ failure,
      (Primitive.literal ".").consume cs = .error failure ∧ failure.message = m := by
    cases cs with
    | nil => exact ⟨_, rfl, Except.error.inj h⟩
    | cons x xs =>
      rw [scanDot] at h
      split at h
      next => cases h
      next hx =>
        exact ⟨_, (Primitive.consume_literal_singleton '.' _).trans (if_neg hx), Except.error.inj h⟩
  show (Primitive.parser (.literal ".")).discard.run s (.int c) = _
  rw [Parser.run_discard, Primitive.run_of_consume_error hc.1 (by rw [hc.2]; exact hcons)]
  rfl

theorem run_dash_of_cons (hc : Stands s c ('-' :: cs)) :
    dash.parser.optional.run s (.int c) = pure (.matched .null (.int (c + 1))) := by
  have hcons : (Primitive.literal "-").consume (s.rest c) = .ok (.text "-", 1) := by
    rw [hc.2]
    exact Primitive.consume_literal_singleton '-' _
  show (Primitive.parser (.literal "-")).discard.optional.run s (.int c) = _
  rw [Parser.run_optional, Parser.run_discard, Primitive.run_of_consume_ok hc.1 hcons]
  rfl

theorem run_dash_of_head?_ne (hc : Stands s c cs) (h : cs.head? ≠ some '-') :
    dash.parser.optional.run s (.int c) = pure (.matched .null (.int c)) := by
  -- Which failure it is does not matter: the unit value stands for any.
  obtain ⟨failure, hcons⟩ : ∃ failure,
      (Primitive.literal "-").consume cs = .error failure := by
    cases cs with
    | nil => exact ⟨_, rfl⟩
    | cons x xs =>
      have hx : x ≠ '-' := fun hx => h (congrArg some hx)
      exact ⟨_, (Primitive.consume_literal_singleton '-' _).trans (if_neg hx)⟩
  show (Primitive.parser (.literal "-")).discard.optional.run s (.int c) = _
  rw [Parser.run_optional, Parser.run_discard,
    Primitive.run_of_consume_error hc.1 (by rw [hc.2]; exact hcons)]
  rfl

end CursorParsers.Version
