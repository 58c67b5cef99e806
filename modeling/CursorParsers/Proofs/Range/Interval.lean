import CursorParsers.Parser.Primitive
import CursorParsers.Parser.Scripted
import CursorParsers.Proofs.Number.Order
import CursorParsers.Proofs.Repetition.Advancing
import CursorParsers.Proofs.Repetition.Course

/-!
# Ranges as intervals

A range is meant to be an interval: its minimum is not negative and less than its maximum. What is
tested is the opposite of these comparisons, and the two tests agree on all numbers that have a
value. Not-a-number passes every such test, so as a bound it makes a range that is no interval.

What a repetition consumes is tested in the same way. Within an interval that puts it between the
bounds, and this is all that is asked of the inner parser: it may be any parse function.

## Main definitions

* `Range.Proper`: bounds that make an interval

## Main results

* `Range.exists_build_iff_proper`: numbers that have a value make a range if they make an interval
* `Parser.Repeats.within_max`: a repetition does not leave its maximum
* `Range.interval_iff`: exactly when a range is an interval, and what repetitions consume within it
-/

namespace CursorParsers

/-! ### Not-a-number -/

namespace Number

variable {m n : Number}

theorem value?_eq_none_iff : n.value? = none ↔ n = .float .nan := by
  rcases n with _ | _ | _ | _ <;> simp [value?, Floating.value?]

theorem isSome_value?_iff : n.value?.isSome ↔ n ≠ .float .nan := by
  rw [Option.isSome_iff_ne_none, ne_eq, value?_eq_none_iff]

theorem less_nan (n : Number) : n.less (.float .nan) = false := by
  unfold less compareWith
  cases n.value? <;> rfl

theorem lessEq_nan (n : Number) : n.lessEq (.float .nan) = false := by
  unfold lessEq compareWith
  cases n.value? <;> rfl

theorem ne_nan_of_lessEq (h : m.lessEq n) : m ≠ .float .nan ∧ n ≠ .float .nan := by
  constructor
  · rintro rfl
    exact Bool.false_ne_true h
  · rintro rfl
    exact Bool.false_ne_true ((lessEq_nan m).symm.trans h)

theorem less_of_lessEq_of_less {k : Number} (hkm : k.lessEq m) (hmn : m.less n) : k.less n := by
  unfold lessEq less compareWith at *
  cases hx : k.value? with
  | none => simp [hx] at hkm
  | some x =>
    cases hy : m.value? with
    | none => simp [hy] at hmn
    | some y =>
      cases hz : n.value? with
      | none => simp [hy, hz] at hmn
      | some z =>
        simp only [hx, hy, hz, Bool.not_eq_true', decide_eq_true_eq, decide_eq_false_iff_not]
          at hkm hmn ⊢
        rcases Extended.lt_trichotomy x y with h | rfl | h
        · exact Extended.lt_trans h hmn
        · exact hmn
        · exact absurd h hkm

end Number

/-! ### Building a range -/

namespace Range

variable {min max : Number}

/-- Bounds that make an interval: the minimum is not negative, and less than the maximum. -/
def Proper (min max : Number) : Prop := (Number.int 0).lessEq min ∧ min.less max

theorem exists_build_iff :
    (∃ b, build min max = .ok b) ↔ min.less (.int 0) = false ∧ max.lessEq min = false := by
  constructor
  · rintro ⟨b, hb⟩
    obtain ⟨rfl, rfl⟩ := build_eq_ok_iff.mp hb
    exact ⟨b.min_not_negative, b.max_not_lessEq⟩
  · rintro ⟨hmin, hmax⟩
    exact ⟨⟨min, max, hmin, hmax⟩, build_eq_ok_iff.mpr ⟨rfl, rfl⟩⟩

/-- Numbers **that have a value** make a range if they make an interval, and only then. -/
theorem exists_build_iff_proper (hmin : min ≠ .float .nan) (hmax : max ≠ .float .nan) :
    (∃ b, build min max = .ok b) ↔ Proper min max := by
  have hmin' := Number.isSome_value?_iff.mpr hmin
  have hmax' := Number.isSome_value?_iff.mpr hmax
  have hle : max.lessEq min = false ↔ min.less max := by
    rw [← Bool.not_eq_true, Number.lessEq_iff_less_eq_false hmax' hmin', Bool.not_eq_false]
  rw [exists_build_iff, Proper, Number.int_lessEq_iff hmin', hle]

theorem exists_build_of_nan (hmin : min = .float .nan) (max : Number) :
    ∃ b, build min max = .ok b := by
  rw [exists_build_iff, hmin]
  exact ⟨rfl, Number.lessEq_nan max⟩

/-- Only a negative minimum excludes not-a-number as a maximum. -/
theorem exists_build_iff_of_nan (hmax : max = .float .nan) :
    (∃ b, build min max = .ok b) ↔ min.less (.int 0) = false := by
  rw [exists_build_iff, hmax]
  exact and_iff_left rfl

theorem exists_error_iff :
    (∃ cause, build min max = .error cause) ↔ ¬ ∃ b, build min max = .ok b := by
  cases build min max <;> simp

theorem zero_less_max {b : Range} (hmin : b.min ≠ .float .nan) (hmax : b.max ≠ .float .nan) :
    (Number.int 0).less b.max := by
  have hbuilt : ∃ r, build b.min b.max = .ok r :=
    exists_build_iff.mpr ⟨b.min_not_negative, b.max_not_lessEq⟩
  obtain ⟨hzero, hless⟩ := (exists_build_iff_proper hmin hmax).mp hbuilt
  exact Number.less_of_lessEq_of_less hzero hless

/-- Not-a-number is no bound of an interval. -/
theorem Proper.ne_nan (h : Proper min max) : min ≠ .float .nan ∧ max ≠ .float .nan := by
  refine ⟨(Number.ne_nan_of_lessEq h.1).2, ?_⟩
  rintro rfl
  exact Bool.false_ne_true ((Number.less_nan min).symm.trans h.2)

end Range

/-! ### What a repetition consumes -/

namespace Parser

variable {p : Parser} {s : Stream} {max : Number} {start position : Value} {ms : List Match}
  {rs : List Record}

/-- A repetition **does not leave its maximum**: from a position within it, it ends within it. -/
theorem Repeats.within_max (h : p.Repeats s max start position ms rs)
    (hposition : ∃ d, position.minus start = .ok d ∧ max.less d = false) :
    ∃ d, (finish position ms).minus start = .ok d ∧ max.less d = false := by
  induction h with
  | stop _ => exact hposition
  | more hprobe _ ih =>
    obtain ⟨-, -, hnext⟩ := probe_eq_some_iff.mp (congrArg Run.outcome hprobe)
    rw [finish_cons]
    exact ih hnext

/-- A success of a repetition ends where its course ends, not short of its minimum. -/
theorem exists_repeats_of_run_range [Repertoire] {b : Range} {payload : Value}
    (h : ((p.range b).run s start).outcome = .ok (.ok payload)) :
    ∃ ms rs k, p.Repeats s b.max start start ms rs ∧
      payload = .pair (.text (captured ms)) (finish start ms) ∧
      (finish start ms).minus start = .ok k ∧ k.less b.min = false := by
  obtain ⟨ms, hms, hconclude⟩ := Run.exists_of_outcome_bind h
  obtain ⟨rs, hrepeats⟩ := exists_repeats_of_advances hms
  have hanswer := Run.eq_ok_of_outcome_ofExcept hconclude
  rw [conclude] at hanswer
  cases hk : (finish start ms).minus start with
  | error cause => simp [hk, bind, Except.bind] at hanswer
  | ok k =>
    cases hless : k.less b.min with
    | true => simp [hk, hless, bind, Except.bind, pure, Except.pure] at hanswer
    | false =>
      simp only [hk, hless, bind, Except.bind, pure, Except.pure, Bool.false_eq_true, if_false,
        Except.ok.injEq, Reply.matched, Reply.ok.injEq] at hanswer
      exact ⟨ms, rs, k, hrepeats, hanswer.symm, hk, hless⟩

end Parser

namespace Range

/-- **A range is an interval**, unless not-a-number is one of its bounds.

Building a range succeeds exactly for the bounds of an interval if the minimum is a number that has
a value, and so is the maximum or else the minimum is negative. It is refused whenever it does not
succeed.

A success of a repetition, whatever its parser does, has consumed a number of characters between the
bounds, both included, exactly if both bounds have a value. (A parser may name a next position that
is not-a-number; nothing can be said of the distance to such a position.) -/
theorem interval_iff [Repertoire] (min max : Number) :
    (((∃ b, build min max = .ok b) ↔ Proper min max) ↔
      min ≠ .float .nan ∧ (max = .float .nan → min.less (.int 0))) ∧
    ((∃ cause, build min max = .error cause) ↔ ¬ ∃ b, build min max = .ok b) ∧
    ∀ b, build min max = .ok b → ∀ (p : Parser) (s : Stream) (c : Int) (payload : Value),
      ((p.range b).run s (.int c)).outcome = .ok (.ok payload) →
      ∃ v next k, payload = .pair v next ∧ next.minus (.int c) = .ok k ∧
        (k ≠ .float .nan →
          (min.lessEq k ∧ k.lessEq max ↔ min ≠ .float .nan ∧ max ≠ .float .nan)) := by
  refine ⟨?_, exists_error_iff, ?_⟩
  · by_cases hmin : min = .float .nan
    · have hbuilt := exists_build_of_nan hmin max
      exact iff_of_false (fun h => (h.mp hbuilt).ne_nan.1 hmin) fun h => h.1 hmin
    · by_cases hmax : max = .float .nan
      · have hproper : ¬ Proper min max := fun h => h.ne_nan.2 hmax
        rw [iff_false_right hproper, exists_build_iff_of_nan hmax, Bool.not_eq_false]
        simp [hmin, hmax]
      · simp [exists_build_iff_proper, hmin, hmax]
  · intro b hb p s c payload hrun
    obtain ⟨rfl, rfl⟩ := build_eq_ok_iff.mp hb
    obtain ⟨ms, rs, k, hrepeats, rfl, hk, hless⟩ := Parser.exists_repeats_of_run_range hrun
    refine ⟨_, _, k, rfl, hk, fun hnan => ⟨fun h => ?_, fun ⟨hmin, hmax⟩ => ?_⟩⟩
    · exact ⟨(Number.ne_nan_of_lessEq h.1).1, (Number.ne_nan_of_lessEq h.2).2⟩
    · rw [← Number.isSome_value?_iff] at hnan hmin hmax
      -- The repetition starts within its maximum, where nothing is consumed.
      have hstart : b.max.less (.int (c - c)) = false := by
        rw [Int.sub_self]
        exact b.zero_within_max hmin
      obtain ⟨d, hd, hwithin⟩ := hrepeats.within_max ⟨_, Value.minus_int c c, hstart⟩
      rw [hk] at hd
      obtain rfl := Except.ok.inj hd
      rw [Number.lessEq_iff_less_eq_false hmin hnan, Number.lessEq_iff_less_eq_false hnan hmax]
      exact ⟨hless, hwithin⟩

/-- An integer and an infinity as the bounds, and a parser that moves past the end of the text. -/
theorem interval_iff_leaping :
    ∃ b, build (.int 1) .infinity = .ok b ∧
      (((Parser.leaping 2 (.text "x")).range b).run (.ofText "abc") (.int 1)).outcome =
        .ok (.ok (.pair (.text "xx") (.int 5))) ∧
      b.min.lessEq (.int 4) ∧ (Number.int 4).lessEq b.max := by
  have hrange := interval_iff (.int 1) .infinity
  obtain ⟨b, hb⟩ := (hrange.1.mpr ⟨by decide, by decide⟩).mpr ⟨rfl, rfl⟩
  refine ⟨b, hb, ?_⟩
  obtain ⟨hmin, hmax⟩ := build_eq_ok_iff.mp hb
  have hrun : (((Parser.leaping 2 (.text "x")).range b).run (.ofText "abc") (.int 1)).outcome =
      .ok (.ok (.pair (.text "xx") (.int 5))) := by
    rcases b with ⟨min, max, hnot, hlt⟩
    subst hmin hmax
    rfl
  refine ⟨hrun, ?_⟩
  obtain ⟨v, next, k, hpair, hk, hwithin⟩ := hrange.2.2 b hb _ _ _ _ hrun
  obtain ⟨-, rfl⟩ : Value.text "xx" = v ∧ Value.int 5 = next := by simpa [Value.pair] using hpair
  obtain rfl := Except.ok.inj hk
  rw [hmin, hmax]
  exact (hwithin (by decide)).mpr ⟨by decide, by decide⟩

/-- **Not-a-number as a maximum** is not excluded, although nothing is less than it. A repetition
within it consumes nothing, and that is not less or equal either. -/
theorem exists_build_not_proper :
    ∃ b, build (.int 0) (.float .nan) = .ok b ∧ ¬ Proper (.int 0) (.float .nan) ∧
      ((Primitive.anyChar.parser.range b).run (.ofText "ab") (.int 1)).outcome =
        .ok (.matched (.text "") (.int 1)) ∧
      ¬ (Number.int 0).lessEq b.max := by
  refine ⟨⟨.int 0, .float .nan, rfl, rfl⟩, rfl, ?_, rfl, by decide⟩
  exact fun h => h.ne_nan.2 rfl

end Range

end CursorParsers
