import CursorParsers.Proofs.Chain.Progress
import CursorParsers.Proofs.Number.Limit
import CursorParsers.Proofs.Repetition.Lockstep
import CursorParsers.Proofs.Repetition.Rounds

/-!
# The window of a chain

A chain looks at no character before its position, and at no more than a number of characters from
it on. That number is read off the chain: a primitive looks at the characters it consumes, and a
repetition can start its last round one character before its maximum. Two runs that have the same
characters in this window come out alike, wherever in their texts they start.

## Main definitions

* `Chain.lookahead`: how many characters a chain looks at
* `Stream.window`: the characters from a position on, up to a number of them
* `Reply.SameFrom`: answers that are the same but for where they were given

## Main results

* `Primitive.consume_congr`, `Parser.SeesWithin.range`: the windows of a primitive and of a
  repetition
* `Step.seesWithin_apply`: a step makes a parser with the window that the step computes
* `Chain.run_alike_of_window_eq`: runs with the same window come out alike
-/

namespace CursorParsers

/-- How many characters a primitive looks at. -/
def Primitive.lookahead : Primitive → ℕ∞
  | .empty => 0
  | .endOfInput | .anyChar | .satisfying _ | .oneOf _ => 1
  | .literal t => (t.length : ℕ∞)

/-- How many characters are looked at after a step. The last round of a repetition starts at
least one character before the maximum. -/
def Step.lookahead (reach : ℕ∞) : Step → ℕ∞
  | .range b => b.max.limit - 1 + reach
  | _ => reach

/-- How many characters a chain looks at. -/
def Chain.lookahead (chain : Chain) : ℕ∞ :=
  chain.steps.foldl Step.lookahead chain.base.lookahead

/-- The characters from a position on, up to a number of them. -/
def Stream.window (s : Stream) (c : Int) (reach : ℕ∞) : List Char :=
  takeUpTo reach (s.rest c)

/-- Two answers that are the same but for the positions at which they were given: the same
error, or the same value captured and the next position at the same distance. -/
inductive Reply.SameFrom (c d : Int) : Reply → Reply → Prop
  | err (e : Value) : SameFrom c d (.err e) (.err e)
  | matched (v : Value) (k : Int) :
      SameFrom c d (.matched v (.int (c + k))) (.matched v (.int (d + k)))

/-! ### Characters ahead -/

/-- Two lists that have the same characters at the first places. -/
def AgreeUpTo (reach : ℕ∞) (cs ds : List Char) : Prop := ∀ i : ℕ, i < reach → cs[i]? = ds[i]?

theorem getElem?_takeUpTo {reach : ℕ∞} (cs : List Char) {i : ℕ} (hi : i < reach) :
    (takeUpTo reach cs)[i]? = cs[i]? := by
  obtain ⟨ys, happ, -, hys⟩ := takeUpTo_append reach cs
  conv => rhs; rw [← happ]
  obtain rfl | hlen := hys
  · rw [List.append_nil]
  · rw [List.getElem?_append_left]
    rw [← hlen] at hi
    exact_mod_cast hi

theorem Stream.agreeUpTo_of_window_eq {s t : Stream} {c d : Int} {reach : ℕ∞}
    (h : s.window c reach = t.window d reach) : AgreeUpTo reach (s.rest c) (t.rest d) := by
  intro i hi
  rw [← getElem?_takeUpTo _ hi, ← getElem?_takeUpTo (t.rest d) hi]
  exact congrArg (·[i]?) h

theorem AgreeUpTo.drop {reach ahead : ℕ∞} {cs ds : List Char} (h : AgreeUpTo (ahead + reach) cs ds)
    {k : ℕ} (hk : k ≤ ahead) : AgreeUpTo reach (cs.drop k) (ds.drop k) := by
  intro i hi
  rw [List.getElem?_drop, List.getElem?_drop]
  refine h (k + i) ?_
  rw [Nat.cast_add]
  exact ENat.add_lt_add_of_le_of_lt (ENat.natCast_ne_top k) hk hi

/-- Lists that agree on one character both end there, or both go on with the same one. -/
theorem AgreeUpTo.head_cases {reach : ℕ∞} {cs ds : List Char} (h : AgreeUpTo reach cs ds)
    (hreach : 0 < reach) :
    (cs = [] ∧ ds = []) ∨ ∃ x xs ys, cs = x :: xs ∧ ds = x :: ys := by
  have h0 := h 0 (by exact_mod_cast hreach)
  cases cs with
  | nil =>
    cases ds with
    | nil => exact .inl ⟨rfl, rfl⟩
    | cons d ds => simp at h0
  | cons c cs =>
    cases ds with
    | nil => simp at h0
    | cons d ds =>
      obtain rfl : c = d := by simpa using h0
      exact .inr ⟨c, cs, ds, rfl, rfl⟩

/-! ### Primitives -/

namespace Primitive

theorem consumeChar_congr {test : Char → Bool} {reject : Char → Failure} {cs ds : List Char}
    (h : AgreeUpTo 1 cs ds) : consumeChar test reject cs = consumeChar test reject ds := by
  rcases h.head_cases one_pos with ⟨rfl, rfl⟩ | ⟨x, xs, ys, rfl, rfl⟩
  · rfl
  · rfl

-- The end of the text lies in the window as a character would: both lists end, or neither does.
theorem consumeEnd_congr {cs ds : List Char} (h : AgreeUpTo 1 cs ds) :
    consumeEnd cs = consumeEnd ds := by
  rcases h.head_cases one_pos with ⟨rfl, rfl⟩ | ⟨x, xs, ys, rfl, rfl⟩
  · rfl
  · rfl

theorem compareChars_congr {literal : String} {es cs ds : List Char}
    (h : AgreeUpTo es.length cs ds) :
    compareChars literal es cs = compareChars literal es ds := by
  induction es generalizing cs ds with
  | nil => rw [compareChars, compareChars]
  | cons e es ih =>
    rcases h.head_cases (by simp) with ⟨rfl, rfl⟩ | ⟨x, xs, ys, rfl, rfl⟩
    · rfl
    · have htail : AgreeUpTo es.length xs ys := by
        intro i hi
        have hnext := h (i + 1) (by simpa using hi)
        simpa using hnext
      rw [compareChars, compareChars, ih htail]

/-- A primitive **looks at no more** than its lookahead. -/
theorem consume_congr {p : Primitive} {cs ds : List Char} (h : AgreeUpTo p.lookahead cs ds) :
    p.consume cs = p.consume ds := by
  cases p with
  | empty => rfl
  | endOfInput => exact consumeEnd_congr h
  | anyChar => exact consumeChar_congr h
  | satisfying test => exact consumeChar_congr h
  | oneOf set => exact consumeChar_congr h
  | literal t =>
    have hlen : AgreeUpTo t.toList.length cs ds := by
      rw [String.length_toList]
      exact h
    rw [consume, consume, compareChars_congr hlen]

end Primitive

/-! ### Parsers -/

/-- A parser that sees no further than a number of characters: with the same characters ahead,
two runs come out alike. -/
def Parser.SeesWithin (reach : ℕ∞) (p : Parser) : Prop :=
  ∀ (s t : Stream) (c d : Int), 1 ≤ c → 1 ≤ d → AgreeUpTo reach (s.rest c) (t.rest d) →
    (p.run s (.int c)).Alike (Reply.SameFrom c d) (p.run t (.int d))

theorem Primitive.seesWithin_parser (p : Primitive) : p.parser.SeesWithin p.lookahead := by
  intro s t c d hc hd h
  rw [run_parser_of_read (p.read_eq_consume s hc), run_parser_of_read (p.read_eq_consume t hd),
    consume_congr h]
  cases p.consume (t.rest d) with
  | error failure => exact .pure (.err _)
  | ok found => exact .pure (.matched found.1 found.2)

namespace Parser.SeesWithin

variable {p : Parser} {reach : ℕ∞}

theorem optional (hp : p.SeesWithin reach) : p.optional.SeesWithin reach := by
  intro s t c d hc hd h
  rw [run_optional, run_optional]
  refine (hp s t c d hc hd h).bind fun r r' hr => .pure ?_
  cases hr with
  | err e => simpa using Reply.SameFrom.matched (c := c) (d := d) .null 0
  | matched v k => exact .matched v k

theorem discard (hp : p.SeesWithin reach) : p.discard.SeesWithin reach := by
  intro s t c d hc hd h
  rw [run_discard, run_discard]
  refine (hp s t c d hc hd h).bind fun r r' hr => ?_
  cases hr with
  | err e => exact .pure (.err e)
  | matched v k => exact .pure (.matched .null k)

theorem label [Repertoire] (hp : p.SeesWithin reach) (expectation : String) :
    (p.label expectation).SeesWithin reach := by
  intro s t c d hc hd h
  rw [run_label, run_label]
  refine (hp s t c d hc hd h).bind fun r r' hr => .pure ?_
  cases hr with
  | err e => exact .err _
  | matched v k => exact .matched v k

theorem map (hp : p.SeesWithin reach) (f : Transform) : (p.map f).SeesWithin reach := by
  intro s t c d hc hd h
  rw [run_map, run_map]
  refine (hp s t c d hc hd h).bind fun r r' hr => ?_
  cases hr with
  | err e => exact .pure (.err e)
  | matched v k =>
    rw [Reply.andThen_matched, Reply.andThen_matched]
    refine (Run.Alike.refl (fun _ => rfl) (Run.ofExcept (f v))).bind fun w w' hw => ?_
    subst hw
    exact .pure (.matched w k)

theorem trace (hp : p.SeesWithin reach) (name : String) : (p.trace name).SeesWithin reach := by
  intro s t c d hc hd h
  rw [run_trace, run_trace]
  -- The records name the positions, which differ, and do not count.
  refine Run.Alike.bind (R := fun _ _ => True) trivial fun _ _ _ => ?_
  refine (hp s t c d hc hd h).bind fun r r' hr => ?_
  refine Run.Alike.bind (R := fun _ _ => True) ?_ fun _ _ _ => .pure hr
  cases hr with
  | err e => exact trivial
  | matched v k => exact trivial

/-- Two probes at the same distance from their starts come out alike, and find matches that end
at the same distance. -/
theorem probe_alike (hp : p.SeesWithin reach) {max : Number} {s t : Stream} {c d : Int}
    (hc : 1 ≤ c) (hd : 1 ≤ d) (h : AgreeUpTo (max.limit - 1 + reach) (s.rest c) (t.rest d))
    (k : ℕ) :
    (p.probe s max (.int c) (.int (c + k))).Alike
      (Option.Rel fun m m' => m.value = m'.value ∧
        ∃ j : ℕ, m.next = .int (c + j) ∧ m'.next = .int (d + j))
      (p.probe t max (.int d) (.int (d + k))) := by
  have hdist : ∀ e : Int, e + k - e = k := fun e => by omega
  simp only [probe, Value.minus_int, Run.ofExcept_ok, pure_bind, hdist]
  by_cases hk : (Number.int k).less max
  · simp only [hk, if_true]
    -- This round starts before the maximum, so what it looks at lies in the window.
    have hahead : AgreeUpTo reach (s.rest (c + k)) (t.rest (d + k)) := by
      rw [Stream.rest_add hc, Stream.rest_add hd]
      exact h.drop (ENat.le_sub_one_of_lt (Number.less_iff_lt_limit.mp hk))
    refine (hp s t _ _ (by omega) (by omega) hahead).bind fun r r' hr => ?_
    cases hr with
    | err e => exact .pure .none
    | matched v j =>
      have hend : ∀ e : Int, e + k + j - e = k + j := fun e => by omega
      have hpos : ∀ e : Int, (e + k < e + k + j) = (0 < j) := fun e => by simp
      show Run.Alike _ (Run.ofExcept (accept max (.int c) (.int (c + k)) ⟨v, .int (c + k + j)⟩))
        (Run.ofExcept (accept max (.int d) (.int (d + k)) ⟨v, .int (d + k + j)⟩))
      simp only [accept_int, Run.ofExcept_ok, hend, hpos]
      split
      next hj =>
        have hnat : ∀ e : Int, e + k + j = e + (k + j).toNat := fun e => by omega
        exact .pure (.some ⟨rfl, (k + j).toNat, congrArg Value.int (hnat c),
          congrArg Value.int (hnat d)⟩)
      next => exact .pure .none
  · simp only [hk]
    exact .pure Option.Rel.none

theorem range [Repertoire] (hp : p.SeesWithin reach) {E : Fault → Prop} {Q : Condition}
    (hk : p.Keeps E Q) (b : Range) : (p.range b).SeesWithin (b.max.limit - 1 + reach) := by
  intro s t c d hc hd h
  -- The two repetitions have different numbers of rounds; the greater one suffices for both.
  have hs := (hk.advances b s c).outcome_ne_unfinished
  have ht := (hk.advances b t d).outcome_ne_unfinished
  rw [run_range_of_le hs (le_max_left _ (p.allowance b t (.int d))),
    run_range_of_le ht (le_max_right (p.allowance b s (.int c)) _)]
  have hstart : ∃ j : ℕ, Value.int c = .int (c + j) ∧ Value.int d = .int (d + j) :=
    ⟨0, by simp, by simp⟩
  -- The positions stay at the same distance from their starts.
  refine (advances_alike (I := fun x y => ∃ j : ℕ, x = .int (c + j) ∧ y = .int (d + j))
    (R := fun m m' => m.value = m'.value) ?_ hstart _).bind fun ms ms' hms => ?_
  · rintro _ _ ⟨k, rfl, rfl⟩
    exact hp.probe_alike hc hd h k
  · obtain ⟨j, hj, hj'⟩ := finish_rel
      (I := fun x y => ∃ j : ℕ, x = .int (c + j) ∧ y = .int (d + j)) hstart
      (hms.imp fun _ _ hm => hm.2)
    have hdist : ∀ e : Int, e + j - e = j := fun e => by omega
    rw [conclude_int hj, conclude_int hj', captured_eq_of_forall₂ (hms.imp fun _ _ hm => hm.1)]
    simp only [hdist, Run.ofExcept_ok]
    split
    next => exact .pure (.err _)
    next => exact .pure (.matched _ _)

end Parser.SeesWithin

/-- A **step** makes a parser that sees as far as the step computes. -/
theorem Step.seesWithin_apply [Repertoire] {p : Parser} {reach : ℕ∞} (hp : p.SeesWithin reach)
    {E : Fault → Prop} {Q : Condition} (hk : p.Keeps E Q) (step : Step) :
    (step.apply p).SeesWithin (step.lookahead reach) := by
  cases step with
  | optional => exact hp.optional
  | discard => exact hp.discard
  | range b => exact hp.range hk b
  | label t => exact hp.label t
  | trace name => exact hp.trace name
  | map f => exact hp.map f

theorem Parser.Keeps.apply_any [Repertoire] {p : Parser}
    (hk : p.Keeps (fun _ => True) fun _ _ _ _ => True) (step : Step) :
    (step.apply p).Keeps (fun _ => True) fun _ _ _ _ => True := step.keeps_any.apply hk

theorem Parser.SeesWithin.extend [Repertoire] {p : Parser} {reach : ℕ∞} (hp : p.SeesWithin reach)
    (hk : p.Keeps (fun _ => True) fun _ _ _ _ => True) (steps : List Step) :
    (p.extend steps).SeesWithin (steps.foldl Step.lookahead reach) := by
  induction steps generalizing p reach with
  | nil => exact hp
  | cons step steps ih => exact ih (Step.seesWithin_apply hp hk step) (hk.apply_any step)

/-- A chain sees no further than its lookahead. -/
theorem Chain.seesWithin_parser [Repertoire] (chain : Chain) :
    chain.parser.SeesWithin chain.lookahead :=
  chain.base.seesWithin_parser.extend
    ((chain.base.keeps_captures _).mono fun _ _ _ _ _ => trivial) chain.steps

/-- **Window locality.** Two runs of a chain that have the same characters in the window of the
chain come out alike. In particular, a text put in front of another, with the position moved along,
changes nothing but the next position. -/
theorem Chain.run_alike_of_window_eq [Repertoire] (chain : Chain) :
    (∀ (s t : Stream) (c d : Int), 1 ≤ c → 1 ≤ d →
      s.window c chain.lookahead = t.window d chain.lookahead →
      (chain.parser.run s (.int c)).Alike (Reply.SameFrom c d) (chain.parser.run t (.int d))) ∧
    ∀ (u text : String) (c : Int), 1 ≤ c →
      (chain.parser.run (.ofText text) (.int c)).Alike (Reply.SameFrom c (u.length + c))
        (chain.parser.run (.ofText (u ++ text)) (.int (u.length + c))) := by
  refine ⟨fun s t c d hc hd h => ?_, fun u text c hc => ?_⟩
  · exact chain.seesWithin_parser s t c d hc hd (Stream.agreeUpTo_of_window_eq h)
  · refine chain.seesWithin_parser _ _ _ _ hc (by omega) fun i _ => ?_
    rw [Stream.rest_ofText_append u text hc]

/-- A repetition that looks at five characters finds the same four in both texts, at the same
distance; and an end that is missed by far is tolerated on the spot. -/
theorem Chain.run_alike_of_window_eq_pairs :
    let pairs : Chain := ⟨.literal "ab", [.range ⟨.int 2, .int 4, rfl, rfl⟩]⟩
    let tolerant : Chain := ⟨.endOfInput, [.optional, .discard]⟩
    ((pairs.parser.run (.ofText "xababa!") (.int 2)).Alike (Reply.SameFrom 2 1)
        (pairs.parser.run (.ofText "ababa?") (.int 1)) ∧
      (pairs.parser.run (.ofText "xababa!") (.int 2)).outcome =
        .ok (.matched (.text "abab") (.int 6))) ∧
    (tolerant.parser.run (.ofText "ab") (.int 5)).Alike (Reply.SameFrom 5 8)
        (tolerant.parser.run (.ofText "xyzab") (.int 8)) ∧
      (tolerant.parser.run (.ofText "ab") (.int 5)).outcome = .ok (.matched .null (.int 5)) := by
  intro pairs tolerant
  have hreach : pairs.lookahead = (5 : ℕ) := by
    show (Number.int 4).limit - 1 + (String.length "ab" : ℕ∞) = (5 : ℕ)
    rw [Number.limit_int]
    rfl
  have hwindow : (Stream.ofText "xababa!").window 2 pairs.lookahead =
      (Stream.ofText "ababa?").window 1 pairs.lookahead := by
    rw [hreach, Stream.window, Stream.window, takeUpTo_natCast, takeUpTo_natCast]
    rfl
  exact ⟨⟨(Chain.run_alike_of_window_eq pairs).1 _ _ 2 1 (by decide) (by decide) hwindow, rfl⟩,
    (Chain.run_alike_of_window_eq tolerant).2 "xyz" "ab" 5 (by decide), rfl⟩

end CursorParsers
