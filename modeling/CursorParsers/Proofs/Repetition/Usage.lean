import CursorParsers.Proofs.Chain.Capture
import CursorParsers.Proofs.Range.Whole
import CursorParsers.Proofs.Repetition.Largest

/-!
# The matches that a repetition uses

To know what a repetition answers it is enough to exhibit successive matches within the maximum that
no probe continues: these are the matches it uses, however they were found. How many rounds the
repetition was given does not matter as long as they suffice, and so an answer is spoken of that is
given with any number of rounds from some number on. With a finite maximum, and for chains, the
repetition has rounds enough by itself.

## Main definitions

* `Reply.repeated`: the answer for a number of characters
* `Parser.Uses`: the matches that a repetition uses, and the characters they consume
* `Parser.Settles`: the answer of a repetition that has rounds enough

## Main results

* `Parser.Uses.settles`, `Parser.Uses.outcome_range`: the answer, by the matches that are used
* `Parser.Answers.exists_uses`, `Parser.Settles.exists_uses`: there are such matches if the maximum
  is finite, and if there is an answer
* `Parser.Keeps.outcome_range_of_uses`: the answer of a repetition that captures what it consumes
-/

namespace CursorParsers

/-- The answer of a repetition that has consumed some characters from a position on. If they are
fewer than the minimum, it is a failure. -/
def Reply.repeated (min : ℕ) (start : Int) (consumed : ℕ) (captured : String) : Reply :=
  if consumed < min then
    .err (.text ("Expected at least " ++ toString min ++ " characters, matched " ++
      toString consumed))
  else .matched (.text captured) (.int (start + consumed))

@[simp] theorem Reply.repeated_zero (start : Int) (consumed : ℕ) (captured : String) :
    Reply.repeated 0 start consumed captured =
      .matched (.text captured) (.int (start + consumed)) :=
  if_neg (Nat.not_lt_zero _)

namespace Parser

variable {p : Parser} {s : Stream} {max : Number} {c d : Int} {ms : List Match} {m k : ℕ} {M : ℕ∞}
  {r r' : Reply}

/-- The matches that a repetition uses, and the number of characters that they consume: they end
within the maximum, and no probe finds another behind them. -/
structure Uses (p : Parser) (s : Stream) (max : Number) (c : Int) (ms : List Match) (k : ℕ) :
    Prop where
  successive : p.Successive s (.int c) ms (.int (c + k))
  within : max.less (.int k) = false
  stops : (p.probe s max (.int c) (.int (c + k))).outcome = .ok none

/-- A repetition settles on an answer if it gives it with any number of rounds from some number
on. -/
def Settles [Repertoire] (p : Parser) (b : Range) (s : Stream) (c : Int) (r : Reply) : Prop :=
  ∃ n, ∀ k, n ≤ k → (((p.withRounds k).range b).run s (.int c)).outcome = .ok r

theorem Settles.unique [Repertoire] {b : Range} (h : p.Settles b s c r) (h' : p.Settles b s c r') :
    r = r' := by
  obtain ⟨n, hn⟩ := h
  obtain ⟨n', hn'⟩ := h'
  have hr := hn (max n n') (le_max_left n n')
  rw [hn' (max n n') (le_max_right n n')] at hr
  exact (Except.ok.inj hr).symm

theorem Answers.withRounds (hp : p.Answers s) (k : ℕ) : (p.withRounds k).Answers s := hp

/-- Successive matches are those of the parse function, whatever rounds it is allowed. -/
theorem Successive.of_run_eq {q : Parser} {x y : Value} (h : p.Successive s x ms y)
    (hrun : q.run = p.run) : q.Successive s x ms y := by
  induction h with
  | nil c => exact .nil c
  | cons hm _ ih =>
    rw [Advances, ← hrun] at hm
    exact .cons hm ih

theorem Successive.withRounds {x y : Value} (h : p.Successive s x ms y) (k : ℕ) :
    (p.withRounds k).Successive s x ms y := h.of_run_eq rfl

theorem conclusion_whole (hm : m < M) (c : Int) (k : ℕ) (captured : String) :
    (if (Number.int (c + k - c)).less (Range.whole m M hm).min then
      .err (.text (Failure.tooShort (Range.whole m M hm).min (.int (c + k - c))).message)
    else .matched (.text captured) (.int (c + k))) = Reply.repeated m c k captured := by
  rw [Range.min_whole, add_sub_cancel_left, Number.less_int, Reply.repeated]
  by_cases h : k < m
  · rw [if_pos (decide_eq_true (by omega)), if_pos h]
    rfl
  · rw [if_neg (by simpa using h), if_neg h]

namespace Uses

theorem nil (p : Parser) (s : Stream) (c : Int) : p.Uses s (.bound 0) c [] 0 where
  successive := by
    rw [Nat.cast_zero, add_zero]
    exact .nil _
  within := rfl
  stops := by
    refine congrArg Run.outcome (probe_of_not_less ?_)
    rw [add_sub_cancel_left]
    rfl

theorem within_sub (h : p.Uses s max c ms k) : max.less (.int (c + k - c)) = false := by
  rw [add_sub_cancel_left]
  exact h.within

/-- A repetition **settles** on the answer that its matches make up. -/
theorem settles [Repertoire] (hp : p.Answers s) (h : p.Uses s (.bound M) c ms k) (hm : m < M) :
    p.Settles (.whole m M hm) s c (.repeated m c k (captured ms)) := by
  refine ⟨ms.length, fun n hn => ?_⟩
  rw [← conclusion_whole hm]
  exact (hp.withRounds n).outcome_range (Number.isSome_value?_bound M) (h.successive.withRounds n)
    h.within_sub h.stops fun _ => hn

/-- With a **finite maximum**, the repetition gives that answer with its own number of rounds. -/
theorem outcome_range [Repertoire] (hp : p.Answers s) (h : p.Uses s (.bound M) c ms k) (hM : M ≠ ⊤)
    (hm : m < M) :
    ((p.range (.whole m M hm)).run s (.int c)).outcome = .ok (.repeated m c k (captured ms)) := by
  rw [← conclusion_whole hm]
  exact hp.outcome_range (Number.isSome_value?_bound M) h.successive h.within_sub h.stops
    fun htop => absurd htop (Number.value?_bound_ne_posInf hM)

end Uses

/-! ### There are such matches -/

theorem Answers.exists_uses_of_successive (hp : p.Answers s)
    (h : p.Successive s (.int c) ms (.int d)) (hwithin : max.less (.int (d - c)) = false)
    (hstops : (p.probe s max (.int c) (.int d)).outcome = .ok none) :
    ∃ ms k, p.Uses s max c ms k := by
  -- The matches lead on, so the distance between the positions is a number of characters.
  have hle := hp.add_length_le h
  obtain ⟨k, rfl⟩ : ∃ k : ℕ, d = c + k := ⟨(d - c).toNat, by omega⟩
  rw [add_sub_cancel_left] at hwithin
  exact ⟨ms, k, h, hwithin, hstops⟩

/-- A **finite maximum** brings a repetition to an end, so it uses some matches. -/
theorem Answers.exists_uses (hp : p.Answers s) (hM : M ≠ ⊤) (hpos : 0 < M) (c : Int) :
    ∃ ms k, p.Uses s (.bound M) c ms k := by
  have hmax := Number.isSome_value?_bound M
  have hfinite := hp.finite_admissible hmax (Number.value?_bound_ne_posInf hM) c
  obtain ⟨ms, d, hms, hle, hgreatest⟩ :=
    exists_greatest_admissible (b := .whole 0 M hpos) rfl hmax hfinite
  exact hp.exists_uses_of_successive hms ((Number.int_lessEq_iff hmax).mp hle)
    (hp.probe_of_greatest hmax hms hgreatest)

/-- The course of a repetition consists of successive matches, within the maximum, that no probe
continues. -/
theorem Answers.exists_successive_of_repeats (hp : p.Answers s) {rs : List Record}
    (h : p.Repeats s max (.int c) (.int d) ms rs) (hwithin : max.less (.int (d - c)) = false) :
    ∃ e, p.Successive s (.int d) ms (.int e) ∧ max.less (.int (e - c)) = false ∧
      (p.probe s max (.int c) (.int e)).outcome = .ok none := by
  generalize hposition : Value.int d = position at h
  induction h generalizing d with
  | stop hprobe =>
    subst hposition
    exact ⟨d, .nil _, hwithin, congrArg Run.outcome hprobe⟩
  | more hprobe _ ih =>
    subst hposition
    obtain ⟨-, hm, x, hx, hnext⟩ := probe_eq_some_iff.mp (congrArg Run.outcome hprobe)
    obtain ⟨n, hn, -⟩ := hp.exists_int hm
    rw [hn, Value.minus_int] at hx
    obtain rfl := Except.ok.inj hx
    obtain ⟨e, he, hend⟩ := ih hnext hn.symm
    exact ⟨e, .cons hm (hn ▸ he), hend⟩

variable [Repertoire]

/-- A repetition that **settles** on an answer uses some matches. -/
theorem Settles.exists_uses (hp : p.Answers s) {hm : m < M} (h : p.Settles (.whole m M hm) s c r) :
    ∃ ms k, p.Uses s (.bound M) c ms k := by
  obtain ⟨n, hn⟩ := h
  obtain ⟨ms, hms, -⟩ := Run.exists_of_outcome_bind (hn n le_rfl)
  obtain ⟨rs, hrepeats⟩ := exists_repeats_of_advances ((advances_withRounds ..) ▸ hms)
  have hzero : (Number.bound M).less (.int (c - c)) = false := by
    rw [Int.sub_self]
    exact (Range.whole m M hm).zero_within_max rfl
  obtain ⟨d, hd, hwithin, hstops⟩ := hp.exists_successive_of_repeats hrepeats hzero
  exact hp.exists_uses_of_successive hd hwithin hstops

/-- With a finite maximum a repetition settles on the answer that it gives. -/
theorem Answers.settles_iff (hp : p.Answers s) (hM : M ≠ ⊤) (hm : m < M) :
    p.Settles (.whole m M hm) s c r ↔
      ((p.range (.whole m M hm)).run s (.int c)).outcome = .ok r := by
  obtain ⟨ms, k, h⟩ := hp.exists_uses hM (pos_of_gt hm) c
  have hsettles := h.settles hp hm
  rw [h.outcome_range hp hM hm]
  constructor
  · intro hr
    rw [hr.unique hsettles]
  · intro hr
    rwa [← Except.ok.inj hr]

/-! ### Parsers that do not leave the text -/

/-- A parser that keeps to a condition without a fault answers at every position. -/
theorem Keeps.answers {Q : Condition} (hp : p.Keeps (fun _ => False) Q) (s : Stream) :
    p.Answers s := by
  intro c
  obtain ⟨r, hr, hmeets⟩ := (hp.ensures s c).exists_ok
  cases hmeets with
  | err message => exact .inl ⟨_, hr⟩
  | matched hq => exact .inr ⟨_, _, hr⟩

/-- A repetition of a parser that captures what it consumes **captures the text** that its matches
lead through. It always has rounds enough. -/
theorem Keeps.outcome_range_of_uses (hp : p.Keeps (fun _ => False) Captures) {b : Range}
    (hmax : b.max.value?.isSome) (h : p.Uses s b.max c ms k) :
    ((p.range b).run s (.int c)).outcome =
      .ok (if (Number.int k).less b.min then
        .err (.text (Failure.tooShort b.min (.int k)).message)
      else .matched (.text (.ofList (s.slice c (c + k)))) (.int (c + k))) := by
  obtain ⟨rs, hrepeats⟩ : ∃ rs, p.Repeats s b.max (.int c) (.int c) ms rs :=
    (hp.answers s).repeats hmax h.successive h.within_sub h.stops
  have hadvances := hp.advances b s c
  have hfinished := hadvances.outcome_ne_unfinished
  have hends := hadvances.ends
  rw [hrepeats.advances_eq hfinished] at hends
  -- The path of the matches ends where they end, so it is the text up to there that is captured.
  obtain ⟨stop, path⟩ := hends
  obtain rfl : stop = c + k :=
    Value.int_inj.mp (path.finish_eq.symm.trans h.successive.finish_eq)
  rw [← path.captured_eq_slice, hrepeats.run_range hfinished, Run.outcome_bind_of_ok rfl,
    conclude_int path.finish_eq, add_sub_cancel_left]
  rfl

theorem Keeps.outcome_whole_of_uses (hp : p.Keeps (fun _ => False) Captures)
    (h : p.Uses s (.bound M) c ms k) (hm : m < M) :
    ((p.range (.whole m M hm)).run s (.int c)).outcome =
      .ok (.repeated m c k (.ofList (s.slice c (c + k)))) := by
  rw [← conclusion_whole hm, add_sub_cancel_left]
  exact hp.outcome_range_of_uses (b := .whole m M hm) (Number.isSome_value?_bound M) h

end Parser

end CursorParsers
