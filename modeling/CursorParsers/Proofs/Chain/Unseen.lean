import CursorParsers.Proofs.Chain.Independence

/-!
# What a repetition does not see

A repetition asks two things of its parser: whether a match advances, and if so, what it captures
and where it ends. Whether the parser fails or stays where it is makes no difference, because either
stops the repetition. So below a repetition a parser may be replaced by any that advances alike, and
steps that only change what becomes of a failure, or leave records, can be left out.

The relation has to be kept by every step on the way to the repetition, not only by the steps that
are left out. A transformation is applied to matches that do not advance as well, so it keeps the
relation only if it does not end in a fault there.

## Main definitions

* `Parser.AdvancesLike`: parsers that advance alike
* `Step.isUnseen`: a step that a repetition does not see
* `Omits`: steps of which some of these are left out

## Main results

* `Parser.AdvancesLike.apply_left`: an unseen step can be left out
* `Parser.AdvancesLike.apply`: a total step keeps the relation
* `Chain.range_of_omits`: repetitions of chains that differ in unseen steps
-/

namespace CursorParsers

/-! ### Answers that stay -/

namespace Reply

variable {c : Int} {r r' : Reply}

theorem AdvanceAlike.symm (h : r.AdvanceAlike Eq c r') : r'.AdvanceAlike Eq c r := by
  rcases h with ⟨hr, hr'⟩ | ⟨rfl, hn⟩
  · exact .stay hr' hr
  · exact .advance rfl hn

theorem Stays.orNull (h : r.Stays c) : (r.orNull (.int c)).Stays c := by
  rcases h with e | ⟨v, hn⟩
  · exact .matched .null (Int.le_refl c)
  · exact .matched v hn

theorem Stays.labelled [Repertoire] (h : r.Stays c) (expectation : String) :
    (r.labelled expectation).Stays c := by
  rcases h with e | ⟨v, hn⟩
  · exact .err _
  · exact .matched v hn

/-- Going on with a match that stays is staying, whatever is captured instead. -/
theorem Stays.andThen (h : r.Stays c) {k : Value → Value → Run Reply}
    (hk : ∀ v n, ∃ w, (k v n).outcome = .ok (.matched w n)) :
    ∃ r', (r.andThen k).outcome = .ok r' ∧ r'.Stays c := by
  rcases h with e | ⟨v, hn⟩
  · exact ⟨.err e, rfl, .err e⟩
  · obtain ⟨w, hw⟩ := hk v _
    exact ⟨_, hw, .matched w hn⟩

/-- Going on with answers that advance alike makes answers that advance alike again, if no match
leads to a fault or to another position. -/
theorem AdvanceAlike.andThen (h : r.AdvanceAlike Eq c r') {k : Value → Value → Run Reply}
    (hk : ∀ v n, ∃ w, (k v n).outcome = .ok (.matched w n)) :
    (r.andThen k).Alike (AdvanceAlike Eq c) (r'.andThen k) := by
  rcases h with ⟨hr, hr'⟩ | @⟨v, _, rfl, n, hn⟩
  · obtain ⟨a, ha, hca⟩ := hr.andThen hk
    obtain ⟨b, hb, hcb⟩ := hr'.andThen hk
    exact .of_ok ha hb (.stay hca hcb)
  · obtain ⟨w, hw⟩ := hk v (.int n)
    exact .of_ok hw hw (.advance rfl hn)

theorem AdvanceAlike.outcome_report (h : r.AdvanceAlike Eq c r') (name : String) :
    (Parser.report name (.int c) r).outcome = .ok () := by
  rcases h with ⟨⟨_⟩ | ⟨_, _⟩, -⟩ | ⟨rfl, -⟩ <;> rfl

end Reply

namespace Parser

/-- Parsers that advance alike at every integer position: both do, to the same position and with
the same captured value, or neither of them does. -/
structure AdvancesLike (p q : Parser) : Prop where
  alike (s : Stream) (c : Int) :
    (p.run s (.int c)).Alike (Reply.AdvanceAlike Eq c) (q.run s (.int c))
  rounds : p.rounds = q.rounds

namespace AdvancesLike

variable {p q : Parser} {step : Step}

theorem of_like {E : Value → Value → Prop} (h : p.Like E Eq q) : p.AdvancesLike q where
  alike s c := (h.alike s c).mono fun _ _ hr => hr.advanceAlike c
  rounds := h.rounds

theorem symm (h : p.AdvancesLike q) : q.AdvancesLike p where
  alike s c := (h.alike s c).symm fun _ _ hr => hr.symm
  rounds := h.rounds.symm

/-- Repetitions of parsers that advance alike correspond, with equal errors and captured
values. -/
theorem range [Repertoire] (h : p.AdvancesLike q) (b : Range) :
    (p.range b).Like Eq Eq (q.range b) where
  alike := range_alike h.alike h.rounds
    (fun _ _ hms => congrArg Value.text (captured_eq_of_forall₂ hms)) b
  rounds := h.rounds

/-! ### Unseen steps -/

theorem optional_left (h : p.AdvancesLike q) : p.optional.AdvancesLike q where
  alike s c := by
    rw [run_optional, ← bind_pure (q.run s (.int c))]
    refine (h.alike s c).bind fun r r' hr => .pure ?_
    rcases hr with ⟨hr, hr'⟩ | ⟨rfl, hn⟩
    · exact .stay hr.orNull hr'
    · exact .advance rfl hn
  rounds := h.rounds

theorem label_left [Repertoire] (h : p.AdvancesLike q) (t : String) :
    (p.label t).AdvancesLike q where
  alike s c := by
    rw [run_label, ← bind_pure (q.run s (.int c))]
    refine (h.alike s c).bind fun r r' hr => .pure ?_
    rcases hr with ⟨hr, hr'⟩ | ⟨rfl, hn⟩
    · exact .stay (hr.labelled t) hr'
    · exact .advance rfl hn
  rounds := h.rounds

theorem trace_left (h : p.AdvancesLike q) (name : String) : (p.trace name).AdvancesLike q where
  alike s c := by
    rw [run_trace, ← pure_bind () fun _ => q.run s (.int c), ← bind_pure (q.run s (.int c))]
    refine Run.Alike.bind (R := fun _ _ => True) trivial fun _ _ _ => ?_
    refine (h.alike s c).bind fun r r' hr => ?_
    -- The record of the answer is left without a fault, and the answer is passed on.
    exact .of_ok (Run.outcome_bind_of_ok (hr.outcome_report name) _) rfl hr
  rounds := h.rounds

end AdvancesLike

end Parser

/-- A step that a repetition does not see: it changes what becomes of a failure, or leaves
records. -/
def Step.isUnseen : Step → Bool
  | .optional | .label _ | .trace _ => true
  | .discard | .range _ | .map _ => false

namespace Parser.AdvancesLike

variable {p q : Parser} {step : Step}

/-- An **unseen step** can be left out. -/
theorem apply_left [Repertoire] (h : p.AdvancesLike q) (hstep : step.isUnseen) :
    (step.apply p).AdvancesLike q := by
  cases step with
  | optional => exact h.optional_left
  | label t => exact h.label_left t
  | trace name => exact h.trace_left name
  | discard | range b | map f => cases hstep

/-! ### Steps on both sides -/

theorem discard (h : p.AdvancesLike q) : p.discard.AdvancesLike q.discard where
  alike s c := by
    rw [run_discard, run_discard]
    exact (h.alike s c).bind fun r r' hr => hr.andThen fun _ _ => ⟨.null, rfl⟩
  rounds := h.rounds

theorem map (h : p.AdvancesLike q) {f : Transform} (hf : ∀ v, ∃ w, f v = .ok w) :
    (p.map f).AdvancesLike (q.map f) where
  alike s c := by
    rw [run_map, run_map]
    refine (h.alike s c).bind fun r r' hr => hr.andThen fun v n => ?_
    obtain ⟨w, hw⟩ := hf v
    exact ⟨w, by rw [hw]; rfl⟩
  rounds := h.rounds

/-- A **total step** makes parsers that advance alike from parsers that do. -/
theorem apply [Repertoire] (h : p.AdvancesLike q) (hstep : step.IsTotal) :
    (step.apply p).AdvancesLike (step.apply q) := by
  by_cases hunseen : step.isUnseen
  -- An unseen step is left out on one side, and then on the other.
  · exact ((h.apply_left hunseen).symm.apply_left hunseen).symm
  · cases step with
    | optional | label t | trace name => exact absurd rfl hunseen
    | discard => exact h.discard
    | range b => exact .of_like (h.range b)
    | map f => exact h.map hstep

end Parser.AdvancesLike

/-! ### Steps left out -/

/-- Steps of which some unseen ones are left out. -/
inductive Omits : List Step → List Step → Prop
  | nil : Omits [] []
  | keep (step : Step) {steps kept : List Step} (h : Omits steps kept) :
      Omits (step :: steps) (step :: kept)
  | leave {step : Step} (hstep : step.isUnseen) {steps kept : List Step} (h : Omits steps kept) :
      Omits (step :: steps) kept

theorem Parser.AdvancesLike.extend [Repertoire] {p q : Parser} {steps kept : List Step}
    (hpq : p.AdvancesLike q) (h : Omits steps kept) (htotal : ∀ step ∈ steps, step.IsTotal) :
    (p.extend steps).AdvancesLike (q.extend kept) := by
  induction h generalizing p q with
  | nil => exact hpq
  | keep step h ih =>
    obtain ⟨hstep, hsteps⟩ := List.forall_mem_cons.mp htotal
    exact ih (hpq.apply hstep) hsteps
  | leave hstep h ih => exact ih (hpq.apply_left hstep) (List.forall_mem_cons.mp htotal).2

namespace Chain

theorem advancesLike_self [Repertoire] (chain : Chain) : chain.parser.AdvancesLike chain.parser :=
  .of_like (.of_keeps chain.keeps_within (fun _ => rfl) fun _ => rfl)

/-- **Unseen steps.** Let some of the steps `optional`, `label` and `trace` be left out of a chain,
wherever they stand in it, and let its transformations give a result on every value. Then the
repetitions of the two chains have an answer, and it is the same.

In particular such a step directly below a repetition makes no difference, whether or not the
transformations give a result. -/
theorem range_of_omits [Repertoire] :
    (∀ (base : Primitive) (steps kept : List Step), Omits steps kept →
      (∀ step ∈ steps, step.IsTotal) → ∀ (b : Range) (s : Stream) (c : Int),
      ∃ r, (((Chain.parser ⟨base, steps⟩).range b).run s (.int c)).outcome = .ok r ∧
        (((Chain.parser ⟨base, kept⟩).range b).run s (.int c)).outcome = .ok r) ∧
    ∀ (chain : Chain) (step : Step), step.isUnseen → ∀ (b : Range) (s : Stream) (c : Int),
      (((step.apply chain.parser).range b).run s (.int c)).outcome =
        ((chain.parser.range b).run s (.int c)).outcome := by
  constructor
  · intro base steps kept h htotal b s c
    have hbase : base.parser.AdvancesLike base.parser := advancesLike_self ⟨base, []⟩
    have houtcome := ((hbase.extend h htotal).range b).outcome_eq s c
    -- No step ends in a fault, so there is an answer.
    have hkeeps : (Chain.parser ⟨base, steps⟩).Keeps (fun _ => False) fun _ _ _ _ => True :=
      keeps_of_total htotal
    obtain ⟨r, hr, -⟩ :=
      ((hkeeps.range b fun _ _ _ _ _ => trivial).ensures s c).exists_ok
    exact ⟨r, hr, houtcome ▸ hr⟩
  · intro chain step hstep b s c
    exact ((chain.advancesLike_self.apply_left hstep).range b).outcome_eq s c

/-- A tolerated and named character that becomes a list, in a repetition that is traced and
tolerated; and a transformation that ends in a fault below a step that tolerates failures. -/
theorem range_of_omits_digits :
    let tolerant : Chain := ⟨.oneOf ⟨"0-9", by decide⟩, [.label "digit", .optional, .map .single,
      .trace "list", .range ⟨.int 2, .int 3, rfl, rfl⟩, .optional]⟩
    let plain : Chain := ⟨.oneOf ⟨"0-9", by decide⟩,
      [.map .single, .range ⟨.int 2, .int 3, rfl, rfl⟩]⟩
    let numeral : Chain := ⟨.anyChar, [.map .toInteger]⟩
    let found : Reply := .matched (.text "['1']['2']['3']['4']['5']") (.int 6)
    let atLeastFour : Range := ⟨.int 4, .infinity, rfl, rfl⟩
    ((tolerant.parser.range atLeastFour).run (.ofText "12345x") (.int 1)).outcome = .ok found ∧
      ((plain.parser.range atLeastFour).run (.ofText "12345x") (.int 1)).outcome = .ok found ∧
      ((numeral.parser.optional.range ⟨.int 0, .int 2, rfl, rfl⟩).run
        (.ofText "ab") (.int 2)).outcome = .error (.fault (.notAnInteger "b")) := by
  intro tolerant plain numeral found atLeastFour
  have homits : Omits tolerant.steps plain.steps :=
    .leave rfl (.leave rfl (.keep _ (.leave rfl (.keep _ (.leave rfl .nil)))))
  have htotal : ∀ step ∈ tolerant.steps, step.IsTotal := by
    simp [tolerant, Step.IsTotal, Transform.single, Transform.total]
  obtain ⟨r, htolerant, hplain⟩ := range_of_omits.1 tolerant.base tolerant.steps plain.steps homits
    htotal atLeastFour (.ofText "12345x") 1
  have hfound : ((plain.parser.range atLeastFour).run (.ofText "12345x") (.int 1)).outcome =
      .ok found := rfl
  obtain rfl := Except.ok.inj (hplain.symm.trans hfound)
  refine ⟨htolerant, hfound, ?_⟩
  exact (range_of_omits.2 numeral .optional rfl ⟨.int 0, .int 2, rfl, rfl⟩ (.ofText "ab") 2).trans rfl

end Chain

end CursorParsers
