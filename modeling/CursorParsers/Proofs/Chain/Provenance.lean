import CursorParsers.Proofs.Chain.Progress
import CursorParsers.Proofs.Parser.Correspondence
import CursorParsers.Proofs.Repetition.Course

/-!
# Where the error of a chain comes from

Two kinds of steps lose the error of what is below them: `optional` turns every failure into a
match, and a repetition fails only for what it has consumed itself. The other steps let a failure
through, and a label puts its text in front of the message. So the error of a chain is decided by
the last step that loses errors, or by the primitive if there is none, and by the labels after it.

## Main definitions

* `Step.resets`: a step that loses the error of what is below it
* `Step.expectation?`: the text of a label
* `expecting`: a message with the texts of labels in front
* `Chain.Undisturbed`: a run of a chain that no transformation ends in a fault

## Main results

* `Reply.Carried`: what steps that let failures through make of an answer
* `Chain.failure_provenance`: which error a chain gives, and when
-/

namespace CursorParsers

/-- A step that loses the error of what is below it. -/
def Step.resets : Step → Bool
  | .optional | .range _ => true
  | .discard | .label _ | .trace _ | .map _ => false

/-- The text of a label. -/
def Step.expectation? : Step → Option String
  | .label t => some t
  | _ => none

/-- A step that is no label. -/
def Step.isNoLabel : Step → Bool
  | .label _ => false
  | _ => true

/-- A message with the texts of labels in front, that of the last label first. -/
def expecting (ts : List String) (message : String) : String :=
  ts.foldl (fun m t => "Expected " ++ t ++ ": " ++ m) message

theorem expecting_append (ts ts' : List String) (message : String) :
    expecting (ts ++ ts') message = expecting ts' (expecting ts message) := List.foldl_append

/-- What steps that let failures through **make of an answer**: the labels among them stand in front
of the message of a failure, and a success stays one. -/
inductive Reply.Carried (ts : List String) : Reply → Reply → Prop
  | err (message : String) : Carried ts (.err (.text message)) (.err (.text (expecting ts message)))
  | ok (payload payload' : Value) : Carried ts (.ok payload) (.ok payload')

theorem Reply.Carried.trans {ts ts' : List String} {r r' r'' : Reply} (h : r.Carried ts r')
    (h' : r'.Carried ts' r'') : r.Carried (ts ++ ts') r'' := by
  cases h with
  | err message =>
    cases h'
    rw [← expecting_append]
    exact .err message
  | ok payload _ =>
    cases h'
    exact .ok _ _

theorem Reply.Carried.exists_err_iff {ts : List String} {r r' : Reply} (h : r.Carried ts r') :
    (∃ e, r' = .err e) ↔ ∃ e, r = .err e := by
  cases h with
  | err message => exact ⟨fun _ => ⟨_, rfl⟩, fun _ => ⟨_, rfl⟩⟩
  | ok payload payload' => simp

theorem Reply.Carried.eq_err {ts : List String} {message : String} {r : Reply}
    (h : (Reply.err (.text message)).Carried ts r) : r = .err (.text (expecting ts message)) := by
  cases h
  rfl

namespace Parser

variable {p : Parser} {s : Stream} {c : Int} {E : Fault → Prop} {Q : Condition} {r : Reply}

theorem exists_payload_of_run_optional (h : (p.optional.run s (.int c)).outcome = .ok r) :
    ∃ payload, r = .ok payload := by
  obtain ⟨r₀, -, hr⟩ := Run.exists_of_outcome_bind h
  obtain rfl := Except.ok.inj hr
  cases r₀ with
  | ok payload => exact ⟨payload, rfl⟩
  | err e => exact ⟨_, rfl⟩

/-- Going on after a parser carries on its answer if it does so for each form of answer. -/
theorem Keeps.exists_carried_of_bind [Repertoire] (hp : p.Keeps E Q) {f : Reply → Run Reply}
    {ts : List String} (herr : ∀ message r, (f (.err (.text message))).outcome = .ok r →
      r = .err (.text (expecting ts message)))
    (hok : ∀ v n r, (f (.matched v (.int n))).outcome = .ok r → ∃ payload, r = .ok payload)
    (h : (p.run s (.int c) >>= f).outcome = .ok r) :
    ∃ r₀, (p.run s (.int c)).outcome = .ok r₀ ∧ r₀.Carried ts r := by
  obtain ⟨r₀, hr₀, hr⟩ := Run.exists_of_outcome_bind h
  refine ⟨r₀, hr₀, ?_⟩
  have hends := (hp.ensures s c).ends
  rw [hr₀] at hends
  cases hends with
  | err message =>
    obtain rfl := herr message r hr
    exact .err message
  | @matched v n _ =>
    obtain ⟨payload, rfl⟩ := hok v n r hr
    exact .ok _ payload

/-- A step that does not reset carries on the answer of the parser below it. -/
theorem Keeps.exists_carried_of_apply [Repertoire] (hp : p.Keeps E Q) {step : Step}
    (hstep : step.resets = false) (h : ((step.apply p).run s (.int c)).outcome = .ok r) :
    ∃ r₀, (p.run s (.int c)).outcome = .ok r₀ ∧ r₀.Carried step.expectation?.toList r := by
  cases step with
  | optional => cases hstep
  | range b => cases hstep
  | discard =>
    refine hp.exists_carried_of_bind (fun message r hr => ?_) (fun v n r hr => ?_) h
    · exact (Except.ok.inj hr).symm
    · exact ⟨_, (Except.ok.inj hr).symm⟩
  | label t =>
    refine hp.exists_carried_of_bind (fun message r hr => ?_) (fun v n r hr => ?_) h
    · exact (Except.ok.inj hr).symm
    · exact ⟨_, (Except.ok.inj hr).symm⟩
  | trace name =>
    obtain ⟨_, -, h⟩ := Run.exists_of_outcome_bind h
    refine hp.exists_carried_of_bind (fun message r hr => ?_) (fun v n r hr => ?_) h
    · exact (Except.ok.inj hr).symm
    · exact ⟨_, (Except.ok.inj hr).symm⟩
  | map f =>
    refine hp.exists_carried_of_bind (fun message r hr => ?_) (fun v n r hr => ?_) h
    · exact (Except.ok.inj hr).symm
    · dsimp only at hr
      rw [Reply.andThen_matched] at hr
      obtain ⟨w, -, hr⟩ := Run.exists_of_outcome_bind hr
      exact ⟨_, (Except.ok.inj hr).symm⟩

theorem Keeps.exists_carried_of_extend [Repertoire]
    (hp : p.Keeps (fun _ => True) fun _ _ _ _ => True) {steps : List Step}
    (hsteps : ∀ step ∈ steps, step.resets = false)
    (h : ((p.extend steps).run s (.int c)).outcome = .ok r) :
    ∃ r₀, (p.run s (.int c)).outcome = .ok r₀ ∧
      r₀.Carried (steps.filterMap Step.expectation?) r := by
  induction steps generalizing p with
  | nil =>
    have hends := (hp.ensures s c).ends
    rw [Parser.extend_nil] at h
    rw [h] at hends
    refine ⟨r, h, ?_⟩
    cases hends with
    | err message => exact .err message
    | matched _ => exact .ok _ _
  | cons step steps ih =>
    rw [extend_cons] at h
    obtain ⟨r₁, hr₁, hcarried⟩ := ih (step.keeps_any.apply hp)
      (fun st hst => hsteps st (List.mem_cons_of_mem step hst)) h
    obtain ⟨r₀, hr₀, hcarried₀⟩ := hp.exists_carried_of_apply (hsteps step List.mem_cons_self) hr₁
    refine ⟨r₀, hr₀, ?_⟩
    -- The label of the first step is behind those of the others in the message.
    have hlabels : (step :: steps).filterMap Step.expectation? =
        step.expectation?.toList ++ steps.filterMap Step.expectation? := by
      cases ht : step.expectation? with
      | none => simp [ht]
      | some t => simp [ht]
    rw [hlabels]
    exact hcarried₀.trans hcarried

end Parser

/-! ### Labels that are lost -/

/-- Labels below a step that resets make no difference, whatever follows it. -/
theorem Parser.outcome_extend_of_filter_isNoLabel_eq [Repertoire] {p : Parser} {E : Fault → Prop}
    {Q : Condition} (hp : p.Keeps E Q) {before before' : List Step}
    (heq : before.filter Step.isNoLabel = before'.filter Step.isNoLabel) {last : Step}
    (hlast : last.resets) (after : List Step) (s : Stream) (c : Int) :
    ((p.extend (before ++ last :: after)).run s (.int c)).outcome =
      ((p.extend (before' ++ last :: after)).run s (.int c)).outcome := by
  have hrefl : p.Like (fun _ _ => True) Eq p := .of_keeps hp (fun _ => trivial) fun _ => rfl
  -- Up to the step that resets, the two chains differ in their errors only.
  have hbefore : (p.extend before).Like (fun _ _ => True) Eq (p.extend before') := by
    refine hrefl.extend_of_filter_eq ⟨fun _ => trivial, fun _ => trivial, fun _ _ => trivial⟩
      eq_equivalence heq (fun st _ _ _ _ h => ?_) fun st _ hlabel _ _ h => ?_
    · exact h.apply (fun _ => trivial) (fun _ _ _ _ => trivial) st
    · cases st with
      | label t => exact h.label_left t fun _ _ _ => trivial
      | _ => cases hlabel
  have hreset : (last.apply (p.extend before)).Like Eq Eq (last.apply (p.extend before')) := by
    cases last with
    | optional => exact hbefore.optional rfl
    | range b =>
      exact hbefore.range (fun _ _ hms => congrArg Value.text (captured_eq_of_forall₂ hms)) b
    | _ => cases hlast
  rw [extend_append, extend_append, extend_cons, extend_cons]
  exact (hreset.extend (fun _ => rfl) (fun t e e' he => by rw [he]) after).outcome_eq s c

/-! ### The error of a chain -/

namespace Chain

/-- A run of the chain that no transformation of it ends in a fault. -/
def Undisturbed [Repertoire] (chain : Chain) (s : Stream) (c : Int) : Prop :=
  ∀ cause, chain.Raises cause → (chain.parser.run s (.int c)).outcome ≠ .error (.fault cause)

variable {base : Primitive} {before after : List Step} {s : Stream} {c : Int}

theorem Undisturbed.exists_ok [Repertoire] {chain : Chain} (h : chain.Undisturbed s c) :
    ∃ r, (chain.parser.run s (.int c)).outcome = .ok r := by
  have hends := (chain.keeps_within.ensures s c).ends
  cases ho : (chain.parser.run s (.int c)).outcome with
  | ok r => exact ⟨r, rfl⟩
  | error e =>
    rw [ho] at hends
    cases e with
    | fault cause => exact absurd ho (h cause hends)
    | unfinished => exact hends.elim

theorem keeps_any [Repertoire] (chain : Chain) :
    chain.parser.Keeps (fun _ => True) fun _ _ _ _ => True :=
  ⟨fun s c => (chain.keeps_within.ensures s c).mono (fun _ _ => trivial) fun _ hr => hr,
    chain.keeps_within.rounds⟩

/-- What the steps after the last one that resets make of its answer. -/
theorem Undisturbed.exists_carried [Repertoire] {last : Step}
    (h : Chain.Undisturbed ⟨base, before ++ last :: after⟩ s c)
    (hafter : ∀ step ∈ after, step.resets = false) :
    ∃ r₀ r, ((last.apply (base.parser.extend before)).run s (.int c)).outcome = .ok r₀ ∧
      ((Chain.parser ⟨base, before ++ last :: after⟩).run s (.int c)).outcome = .ok r ∧
      r₀.Carried (after.filterMap Step.expectation?) r := by
  obtain ⟨r, hr⟩ := h.exists_ok
  have hlast := last.keeps_any.apply (Chain.keeps_any ⟨base, before⟩)
  have hrun := hr
  rw [Chain.parser, Parser.extend_append, Parser.extend_cons] at hrun
  obtain ⟨r₀, hr₀, hcarried⟩ := hlast.exists_carried_of_extend hafter hrun
  exact ⟨r₀, r, hr₀, hr, hcarried⟩

/-- **Failure provenance.** Let no transformation end a run of a chain in a fault.

If the last step that resets is `optional`, the chain does not fail. If it is a repetition, the
chain fails exactly when that repetition consumes fewer characters than its minimum, and the message
says so. If no step resets, the chain fails exactly when its primitive does, with the message of the
primitive. The labels after the step that resets stand in front of the message; labels before it
make no difference. -/
theorem failure_provenance [Repertoire] (base : Primitive) (after : List Step)
    (hafter : ∀ step ∈ after, step.resets = false) (s : Stream) (c : Int) :
    (∀ before, Undisturbed ⟨base, before ++ .optional :: after⟩ s c →
      ∃ payload, ((Chain.parser ⟨base, before ++ .optional :: after⟩).run s (.int c)).outcome =
        .ok (.ok payload)) ∧
    (∀ before b, Undisturbed ⟨base, before ++ .range b :: after⟩ s c →
      (∃ k, (base.parser.extend before).Consumes b s c k) ∧
      ∀ k, (base.parser.extend before).Consumes b s c k →
        ((∃ e, ((Chain.parser ⟨base, before ++ .range b :: after⟩).run s (.int c)).outcome =
            .ok (.err e)) ↔ (Number.int k).less b.min) ∧
        ((Number.int k).less b.min →
          ((Chain.parser ⟨base, before ++ .range b :: after⟩).run s (.int c)).outcome =
            .ok (.err (.text (expecting (after.filterMap Step.expectation?)
              ("Expected at least " ++ b.min.text ++ " characters, matched " ++
                (Number.int k).text)))))) ∧
    (Undisturbed ⟨base, after⟩ s c →
      ((∃ e, ((Chain.parser ⟨base, after⟩).run s (.int c)).outcome = .ok (.err e)) ↔
        ∃ e, (base.parser.run s (.int c)).outcome = .ok (.err e)) ∧
      ∀ message, (base.parser.run s (.int c)).outcome = .ok (.err (.text message)) →
        ((Chain.parser ⟨base, after⟩).run s (.int c)).outcome =
          .ok (.err (.text (expecting (after.filterMap Step.expectation?) message)))) ∧
    ∀ before before' last, last.resets = true →
      before.filter Step.isNoLabel = before'.filter Step.isNoLabel →
      ((Chain.parser ⟨base, before ++ last :: after⟩).run s (.int c)).outcome =
        ((Chain.parser ⟨base, before' ++ last :: after⟩).run s (.int c)).outcome := by
  refine ⟨fun before h => ?_, fun before b h => ?_, fun h => ?_,
    fun before before' last hl heq => ?_⟩
  · obtain ⟨r₀, r, hr₀, hr, hcarried⟩ := h.exists_carried hafter
    obtain ⟨payload, rfl⟩ := Parser.exists_payload_of_run_optional hr₀
    cases hcarried with
    | ok _ payload' => exact ⟨payload', hr⟩
  · obtain ⟨r₀, r, hr₀, hr, hcarried⟩ := h.exists_carried hafter
    obtain ⟨k₀, hk₀, hcases⟩ := (keeps_any ⟨base, before⟩).run_range_cases hr₀
    refine ⟨⟨k₀, hk₀⟩, fun k hk => ?_⟩
    obtain rfl := hk.unique hk₀
    simp only [hr, Except.ok.injEq, hcarried.exists_err_iff]
    obtain ⟨hless, rfl⟩ | ⟨hless, v, rfl⟩ := hcases
    · exact ⟨⟨fun _ => hless, fun _ => ⟨_, rfl⟩⟩, fun _ => hcarried.eq_err⟩
    · simp [hless, Reply.matched]
  · obtain ⟨r, hr⟩ := h.exists_ok
    obtain ⟨r₀, hr₀, hcarried⟩ := (keeps_any ⟨base, []⟩).exists_carried_of_extend hafter hr
    have hbase : (base.parser.run s (.int c)).outcome = .ok r₀ := hr₀
    simp only [hr, hbase, Except.ok.injEq, hcarried.exists_err_iff, true_and]
    rintro message rfl
    exact hcarried.eq_err
  · exact Parser.outcome_extend_of_filter_isNoLabel_eq (base.keeps_captures fun _ => True) heq hl
      after s c

/-- A repetition between labels: the digit before the letter is not enough. -/
theorem failure_provenance_year :
    ((Chain.parser ⟨.oneOf ⟨"0-9", by decide⟩, [.label "digit",
        .range ⟨.int 2, .int 4, rfl, rfl⟩, .discard, .label "number",
        .label "year"]⟩).run (.ofText "7x") (.int 1)).outcome =
      .ok (.err (.text
        "Expected year: Expected number: Expected at least 2 characters, matched 1")) := by
  have hundisturbed : Undisturbed ⟨.oneOf ⟨"0-9", by decide⟩, [.label "digit",
      .range ⟨.int 2, .int 4, rfl, rfl⟩, .discard, .label "number",
      .label "year"]⟩ (.ofText "7x") 1 := by
    rintro cause ⟨f, v, hmem, -⟩
    simp at hmem
  have hafter : ∀ step ∈ [Step.discard, .label "number", .label "year"], step.resets = false := by
    simp [Step.resets]
  obtain ⟨-, hfails⟩ := (failure_provenance (.oneOf ⟨"0-9", by decide⟩)
    [.discard, .label "number", .label "year"] hafter (.ofText "7x") 1).2.1 [.label "digit"]
    ⟨.int 2, .int 4, rfl, rfl⟩ hundisturbed
  exact (hfails 1 ⟨[⟨.text "7", .int 2⟩], _, .more rfl (.stop rfl), rfl⟩).2 (by decide +kernel)

end Chain

end CursorParsers
