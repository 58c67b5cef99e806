import CursorParsers.Parser.Primitive
import CursorParsers.Proofs.Stream.Rest

/-!
# What primitives consume

Where a position stands in the text is nothing to a primitive parser: it makes something of the
characters that follow. Below the first position no primitive finds a character.

## Main definitions

* `Primitive.consume`: what a primitive makes of a list of characters
* `Primitive.test?`: the test of a primitive that reads one character

## Main results

* `Primitive.read_eq_consume`: reading at a position is consuming the rest of the stream
* `Primitive.read_of_nonpos`: reading below the first position
* `Primitive.consume_captures`: what is captured is what is consumed
-/

namespace CursorParsers.Primitive

variable {p : Primitive} {test : Char → Bool} {s : Stream} {c : Int} {v : Value} {k : Nat}

/-- One character at the front of a list. -/
def consumeChar (test : Char → Bool) (reject : Char → Failure) :
    List Char → Except Failure (Value × Nat)
  | [] => .error (.missing .endOfInput)
  | c :: _ => if test c then .ok (.ofChar c, 1) else .error (reject c)

/-- Nothing at the end of a list. -/
def consumeEnd : List Char → Except Failure (Value × Nat)
  | [] => .ok (.null, 0)
  | c :: _ => .error (.notAtEnd c)

/-- Compare the characters of a literal with the front of a list. -/
def compareChars (literal : String) : List Char → List Char → Except Failure Unit
  | [], _ => .ok ()
  | _ :: _, [] => .error (.literalCut .endOfInput literal)
  | e :: es, c :: cs =>
    if c = e then compareChars literal es cs else .error (.literalDiffers e c literal)

/-- What a primitive makes of a list of characters: a captured value and the number of
characters consumed, or a failure. -/
def consume : Primitive → List Char → Except Failure (Value × Nat)
  | .empty, _ => .ok (.null, 0)
  | .endOfInput, cs => consumeEnd cs
  | .anyChar, cs => consumeChar (fun _ => true) .rejected cs
  | .satisfying test, cs => consumeChar test .rejected cs
  | .oneOf set, cs => consumeChar set.accepts (.notInCharset set.text) cs
  | .literal t, cs => (compareChars t t.toList cs).map fun _ => (.text t, t.length)

/-- What was consumed, seen from the position where it starts. -/
def findingAt (c : Int) (found : Except Failure (Value × Nat)) : Finding :=
  found.map fun vk => (vk.1, .int (c + vk.2))

theorem consume_literal_singleton (x : Char) (cs : List Char) :
    (literal (String.singleton x)).consume cs = match cs with
      | [] => .error (.literalCut .endOfInput (String.singleton x))
      | y :: _ =>
        if y = x then .ok (.text (String.singleton x), 1)
        else .error (.literalDiffers x y (String.singleton x)) := by
  have hx : (String.singleton x).toList = [x] := String.toList_singleton x
  rw [consume, hx]
  cases cs with
  | nil => rfl
  | cons y ys =>
    rw [compareChars]
    by_cases hyx : y = x
    · simp [hyx, compareChars, Except.map]
    · simp [hyx, Except.map]

/-! ### Reading is consuming the rest -/

theorem readChar_eq_consumeChar (test : Char → Bool) (reject : Char → Failure) (s : Stream)
    (hc : 1 ≤ c) :
    readChar test reject s (.int c) =
      .ok (findingAt c (consumeChar test reject (s.rest c))) := by
  rw [readChar_int]
  cases hr : s.rest c with
  | nil => rw [Stream.fetch_of_rest_eq_nil hc hr]; rfl
  | cons x xs =>
    rw [Stream.fetch_of_rest_eq_cons hc hr]
    by_cases ht : test x
    · simp [consumeChar, findingAt, ht, Except.map]
    · simp [consumeChar, findingAt, ht, Except.map]

theorem readEnd_eq_consumeEnd (s : Stream) (hc : 1 ≤ c) :
    readEnd s (.int c) = .ok (findingAt c (consumeEnd (s.rest c))) := by
  rw [readEnd_int]
  cases hr : s.rest c with
  | nil =>
    rw [Stream.fetch_of_rest_eq_nil hc hr]
    simp [consumeEnd, findingAt, Except.map]
  | cons x xs => rw [Stream.fetch_of_rest_eq_cons hc hr]; rfl

theorem expectChars_eq_compareChars (literal : String) (s : Stream) (es : List Char)
    (hc : 1 ≤ c) :
    expectChars literal s es (.int c) = .ok (compareChars literal es (s.rest c)) := by
  induction es generalizing c with
  | nil => rw [compareChars]; rfl
  | cons e es ih =>
    -- The next character is compared with the first of the rest, and both sides move on by one.
    rw [expectChars_cons_int]
    cases hr : s.rest c with
    | nil => rw [Stream.fetch_of_rest_eq_nil hc hr]; rfl
    | cons x xs =>
      rw [Stream.fetch_of_rest_eq_cons hc hr, compareChars]
      by_cases hx : x = e
      · simp only [hx, if_true]
        rw [ih (by omega), Stream.rest_succ_of_eq_cons hc hr]
      · simp only [hx, if_false]

/-- From the first position on, **reading** at a position is consuming the rest of the stream. -/
theorem read_eq_consume (p : Primitive) (s : Stream) (hc : 1 ≤ c) :
    p.read s (.int c) = .ok (findingAt c (p.consume (s.rest c))) := by
  cases p with
  | empty => simp [read, consume, findingAt, Except.map]
  | endOfInput => exact readEnd_eq_consumeEnd s hc
  | anyChar => exact readChar_eq_consumeChar _ _ s hc
  | satisfying test => exact readChar_eq_consumeChar _ _ s hc
  | oneOf set => exact readChar_eq_consumeChar _ _ s hc
  | literal t =>
    simp only [read, readLiteral, expectChars_eq_compareChars t s t.toList hc, Value.plus_int,
      consume, bind, Except.bind]
    cases compareChars t t.toList (s.rest c) <;> rfl

/-- **Below the first position** a primitive fails, or captures nothing on the spot. -/
theorem read_of_nonpos (p : Primitive) (s : Stream) (hc : c ≤ 0) :
    (∃ failure, p.read s (.int c) = .ok (.error failure)) ∨
      ∃ v, p.read s (.int c) = .ok (.ok (v, .int c)) ∧ (v = .null ∨ v = .text "") := by
  have hf : s.fetch c = .error .invalidState := Stream.fetch_of_nonpos hc
  cases p with
  | empty => exact .inr ⟨.null, rfl, .inl rfl⟩
  | endOfInput => exact .inl ⟨_, by rw [read, readEnd_int, hf]⟩
  | anyChar => exact .inl ⟨_, by rw [read, readChar_int, hf]⟩
  | satisfying test => exact .inl ⟨_, by rw [read, readChar_int, hf]⟩
  | oneOf set => exact .inl ⟨_, by rw [read, readChar_int, hf]⟩
  | literal t =>
    -- Only the empty literal matches without looking at a character.
    cases ht : t.toList with
    | nil =>
      have he : t = "" := String.toList_eq_nil_iff.mp ht
      refine .inr ⟨.text t, ?_, .inr (by rw [he])⟩
      simp [read, readLiteral, expectChars, bind, Except.bind, pure, Except.pure, he]
    | cons e es =>
      refine .inl ⟨.literalCut .invalidState t, ?_⟩
      simp [read, readLiteral, ht, expectChars_cons_int, hf, bind, Except.bind, pure, Except.pure]

theorem run_parser_of_read {p : Primitive} {c : Value} {found : Finding}
    (h : p.read s c = .ok found) : p.parser.run s c = pure (reply found) := by
  simp [parser, h, Except.map]

theorem run_of_consume_error {failure : Failure} (hc : 1 ≤ c)
    (h : p.consume (s.rest c) = .error failure) :
    p.parser.run s (.int c) = pure (.err (.text failure.message)) := by
  rw [run_parser_of_read (p.read_eq_consume s hc), h]
  rfl

theorem run_of_consume_ok (hc : 1 ≤ c) (h : p.consume (s.rest c) = .ok (v, k)) :
    p.parser.run s (.int c) = pure (.matched v (.int (c + k))) := by
  rw [run_parser_of_read (p.read_eq_consume s hc), h]
  rfl

/-! ### What is consumed -/

theorem prefix_of_compareChars {literal : String} {es cs : List Char}
    (h : compareChars literal es cs = .ok ()) : es <+: cs := by
  induction es generalizing cs with
  | nil => exact List.nil_prefix
  | cons e es ih =>
    cases cs with
    | nil => simp [compareChars] at h
    | cons c cs =>
      rw [compareChars] at h
      split at h
      next hce => exact hce ▸ (List.prefix_cons_inj c).mpr (ih h)
      next => simp at h

theorem consumeChar_captures {test : Char → Bool} {reject : Char → Failure} {cs : List Char}
    (h : consumeChar test reject cs = .ok (v, k)) :
    k ≤ cs.length ∧ v = .text (.ofList (cs.take k)) := by
  cases cs with
  | nil => simp [consumeChar] at h
  | cons c cs =>
    rw [consumeChar] at h
    split at h
    next =>
      obtain ⟨rfl, rfl⟩ := Prod.mk.inj (Except.ok.inj h)
      refine ⟨by simp, ?_⟩
      rw [Value.ofChar, String.singleton_eq_ofList, List.take_succ_cons, List.take_zero]
    next => simp at h

/-- What a primitive captures is **the text it consumes**, or the unit value for none. -/
theorem consume_captures {p : Primitive} {cs : List Char} (h : p.consume cs = .ok (v, k)) :
    k ≤ cs.length ∧ (v = .null ∧ k = 0 ∨ v = .text (.ofList (cs.take k))) := by
  cases p with
  | empty =>
    obtain ⟨rfl, rfl⟩ := Prod.mk.inj (Except.ok.inj h)
    exact ⟨Nat.zero_le _, .inl ⟨rfl, rfl⟩⟩
  | endOfInput =>
    cases cs with
    | nil =>
      obtain ⟨rfl, rfl⟩ := Prod.mk.inj (Except.ok.inj h)
      exact ⟨Nat.zero_le _, .inl ⟨rfl, rfl⟩⟩
    | cons c cs => simp [consume, consumeEnd] at h
  | anyChar => exact (consumeChar_captures h).imp_right .inr
  | satisfying test => exact (consumeChar_captures h).imp_right .inr
  | oneOf set => exact (consumeChar_captures h).imp_right .inr
  | literal t =>
    rw [consume] at h
    cases hm : compareChars t t.toList cs with
    | error failure => simp [hm, Except.map] at h
    | ok =>
      rw [hm] at h
      obtain ⟨rfl, rfl⟩ := Prod.mk.inj (Except.ok.inj h)
      have hp : t.toList <+: cs := prefix_of_compareChars hm
      rw [← String.length_toList]
      refine ⟨hp.length_le, .inr ?_⟩
      rw [← List.prefix_iff_eq_take.mp hp, String.ofList_toList]

/-! ### One character -/

/-- The test of a primitive that reads one character. -/
def test? : Primitive → Option (Char → Bool)
  | .anyChar => some fun _ => true
  | .satisfying test => some test
  | .oneOf set => some set.accepts
  | .empty | .endOfInput | .literal _ => none

theorem consume_of_accepts (hp : p.test? = some test) {x : Char} (hx : test x) (xs : List Char) :
    p.consume (x :: xs) = .ok (.ofChar x, 1) := by
  cases p with
  | anyChar | satisfying _ | oneOf _ =>
    obtain rfl := Option.some.inj hp
    simp [consume, consumeChar, hx]
  | empty | endOfInput | literal _ => simp [test?] at hp

theorem consume_of_rejects (hp : p.test? = some test) {cs : List Char}
    (h : ∀ x ∈ cs.head?, test x = false) : ∃ failure, p.consume cs = .error failure := by
  cases p with
  | anyChar | satisfying _ | oneOf _ =>
    obtain rfl := Option.some.inj hp
    cases cs with
    | nil => exact ⟨_, rfl⟩
    | cons x xs =>
      have hx := Bool.eq_false_iff.mp (h x rfl)
      exact ⟨_, by rw [consume, consumeChar, if_neg hx]⟩
  | empty | endOfInput | literal _ => simp [test?] at hp

end CursorParsers.Primitive
