import Mathlib.Data.List.Induction
import CursorParsers.Proofs.Chain.Progress
import CursorParsers.Proofs.Log.Nesting
import CursorParsers.Proofs.Parser.Correspondence
import CursorParsers.Proofs.Repetition.Records

/-!
# Tracing

The traces of a chain do nothing but leave records. These nest: every invocation of a traced part of
the chain leaves one record when it is entered and one of its outcome, and whatever the parts inside
it leave lies between the two. Repetitions invoke the parts below them many times, so it is a
sequence of such brackets that passes from step to step.

A fault of a transformation cuts the log short. All parts of the chain around the transformation
have been entered by then, and none of them has been left, so the traces after the transformation
are exactly those that stay unclosed.

## Main definitions

* `Chain.untraced`: a chain without its traces
* `traceNames`: the names of the traces among some steps, the outermost first
* `Chain.CutShort`: the log of a run that a transformation has interrupted

## Main results

* `Parser.Keeps.run_trace_cases`: what a trace adds to the records of its parser
* `Chain.leaves_nested`: a chain leaves a nested log, or one that is cut short
* `Chain.tracing`: both, and what parsing a whole text leaves
-/

namespace CursorParsers

/-- A step that is no trace. -/
def Step.isNoTrace : Step → Bool
  | .trace _ => false
  | _ => true

/-- The name of a trace. -/
def Step.traceName? : Step → Option String
  | .trace name => some name
  | _ => none

/-- The names of the traces among some steps, the outermost first. -/
def traceNames (steps : List Step) : List String := (steps.filterMap Step.traceName?).reverse

theorem traceNames_append (steps more : List Step) :
    traceNames (steps ++ more) = traceNames more ++ traceNames steps := by
  simp [traceNames]

theorem traceNames_append_map (before after : List Step) (f : Transform) :
    traceNames (before ++ .map f :: after) = traceNames after ++ traceNames before := by
  rw [traceNames_append, traceNames, List.filterMap_cons_none rfl]
  rfl

theorem traceNames_concat_of_isNoTrace (steps : List Step) {step : Step} (h : step.isNoTrace) :
    traceNames (steps ++ [step]) = traceNames steps := by
  rw [traceNames_append]
  cases step with
  | trace name => cases h
  | _ => rfl

/-! ### What the steps add to a log -/

namespace Parser

variable {p : Parser} {s : Stream} {E : Fault → Prop} {Q : Condition} {N : List Record → Prop}
  {B C : Fault → List Record → Prop} {c : Int}

theorem optional_leaves (h : (p.run s (.int c)).Leaves N B) :
    (p.optional.run s (.int c)).Leaves N B := by
  rw [run_optional]
  exact h.bind_of_pure fun r _ => ⟨_, rfl⟩

variable [Repertoire]

theorem label_leaves (h : (p.run s (.int c)).Leaves N B) (t : String) :
    ((p.label t).run s (.int c)).Leaves N B := by
  rw [run_label]
  exact h.bind_of_pure fun r _ => ⟨_, rfl⟩

theorem Keeps.discard_leaves (hp : p.Keeps E Q) (h : (p.run s (.int c)).Leaves N B) :
    (p.discard.run s (.int c)).Leaves N B := by
  rw [run_discard]
  refine h.bind_of_pure fun r hr => ?_
  have hends := (hp.ensures s c).ends
  rw [hr] at hends
  rcases hends with message | @⟨v, n, hq⟩
  · exact ⟨_, rfl⟩
  · exact ⟨_, rfl⟩

/-- A transformation leaves no record, also where it ends in a fault. -/
theorem Keeps.map_leaves (hp : p.Keeps E Q) {f : Transform} (h : (p.run s (.int c)).Leaves N B)
    (hB : ∀ cause rs, B cause rs → C cause rs)
    (hf : ∀ v n cause rs, (p.run s (.int c)).outcome = .ok (.matched v (.int n)) →
      f v = .error cause → N rs → C cause rs) :
    ((p.map f).run s (.int c)).Leaves N C := by
  rw [run_map]
  refine h.bind (K := (· = []))
    (D := fun cause rs => rs = [] ∧ ∀ rs, N rs → C cause rs) (fun r hr => ?_)
    (fun rs rs' hrs hrs' => ?_) hB fun cause rs rs' hrs hcut => ?_
  · have hends := (hp.ensures s c).ends
    rw [hr] at hends
    rcases hends with message | @⟨v, n, hq⟩
    · exact .pure rfl
    · rw [Reply.andThen_matched]
      rcases hv : f v with cause | w
      · exact .of_fault rfl ⟨rfl, fun rs hrs => hf v n cause rs hr hv hrs⟩
      · exact .of_ok rfl rfl
  · rwa [hrs', List.append_nil]
  · rw [hcut.1, List.append_nil]
    exact hcut.2 rs hrs

/-- A **trace** leaves a record before those of its parser, and unless a fault interrupts the
parser, the record of the answer behind them. -/
theorem Keeps.run_trace_cases (hp : p.Keeps E Q) (name : String) (s : Stream) (c : Int) :
    (∃ v n, c ≤ n ∧ (p.run s (.int c)).outcome = .ok (.matched v (.int n)) ∧
      (p.trace name).run s (.int c) = ⟨.entered name (.int c) ::
        ((p.run s (.int c)).records ++ [.matched name v (.int n)]), .ok (.matched v (.int n))⟩) ∨
    (∃ e, (p.run s (.int c)).outcome = .ok (.err e) ∧
      (p.trace name).run s (.int c) = ⟨.entered name (.int c) ::
        ((p.run s (.int c)).records ++ [.failed name (.int c) e]), .ok (.err e)⟩) ∨
    ∃ cause, (p.run s (.int c)).outcome = .error (.fault cause) ∧
      (p.trace name).run s (.int c) =
        ⟨.entered name (.int c) :: (p.run s (.int c)).records, .error (.fault cause)⟩ := by
  have hends := (hp.ensures s c).ends
  have hrun : (p.trace name).run s (.int c) = Run.log (.entered name (.int c)) >>= fun _ =>
    p.run s (.int c) >>= fun r => report name (.int c) r >>= fun _ => pure r := rfl
  rcases ho : (p.run s (.int c)).outcome with (cause | _) | r
  · refine .inr (.inr ⟨cause, rfl, ?_⟩)
    rw [hrun, Run.bind_of_error ho]
    rfl
  · rw [ho] at hends
    exact hends.elim
  · rw [ho] at hends
    rcases hends with message | @⟨v, n, hq⟩
    · refine .inr (.inl ⟨.text message, rfl, ?_⟩)
      rw [hrun, Run.eq_of_outcome ho]
      rfl
    · refine .inl ⟨v, n, hq.1.le, rfl, ?_⟩
      rw [hrun, Run.eq_of_outcome ho]
      rfl

end Parser

/-! ### The log of a chain -/

variable [Repertoire]

namespace Chain

variable {base : Primitive} {s : Stream} {steps : List Step} {cause : Fault} {rs : List Record}

/-- The chain without its traces. -/
def untraced (chain : Chain) : Chain := ⟨chain.base, chain.steps.filter Step.isNoTrace⟩

/-- The log of a run that one of the transformations has interrupted: it was applied to a value
that the steps before it had captured, and the traces after it are those that were entered and not
left. -/
def CutShort (base : Primitive) (s : Stream) (steps : List Step) (cause : Fault)
    (rs : List Record) : Prop :=
  ∃ before f after, steps = before ++ .map f :: after ∧
    (∃ d v n, ((Chain.parser ⟨base, before⟩).run s (.int d)).outcome =
      .ok (.matched v (.int n)) ∧ f v = .error cause) ∧
    Unclosed (traceNames after) (traceNames before) rs

namespace CutShort

theorem concat (h : CutShort base s steps cause rs) {step : Step} (hstep : step.isNoTrace) :
    CutShort base s (steps ++ [step]) cause rs := by
  obtain ⟨before, f, after, rfl, hfault, hrs⟩ := h
  refine ⟨before, f, after ++ [step], by rw [List.append_assoc, List.cons_append], hfault, ?_⟩
  rwa [traceNames_concat_of_isNoTrace after hstep]

/-- A trace around the interrupted part stays unclosed. -/
theorem entered (h : CutShort base s steps cause rs) (name : String) (c : Int) :
    CutShort base s (steps ++ [.trace name]) cause (.entered name (.int c) :: rs) := by
  obtain ⟨before, f, after, rfl, hfault, hrs⟩ := h
  refine ⟨before, f, after ++ [.trace name], by rw [List.append_assoc, List.cons_append], hfault,
    ?_⟩
  rw [traceNames_append]
  exact .entered (.nil _) hrs

theorem append_left (h : CutShort base s steps cause rs) {done : List Record}
    (hdone : Nested (traceNames steps) done) : CutShort base s steps cause (done ++ rs) := by
  obtain ⟨before, f, after, rfl, hfault, hrs⟩ := h
  rw [traceNames_append_map] at hdone
  exact ⟨before, f, after, rfl, hfault, hrs.append_left hdone⟩

end CutShort

/-- A chain leaves a **nested log**, or one that a transformation has cut short. -/
theorem leaves_nested (base : Primitive) (s : Stream) (steps : List Step) (c : Int) :
    ((Chain.parser ⟨base, steps⟩).run s (.int c)).Leaves (Nested (traceNames steps))
      (CutShort base s steps) := by
  -- The last step is the outermost, so the induction is from the end of the steps.
  induction steps using List.reverseRecOn generalizing c with
  | nil =>
    obtain ⟨found, hread⟩ := base.exists_read_int s c
    show (base.parser.run s (.int c)).Leaves _ _
    rw [Primitive.run_parser_of_read hread]
    exact .pure (.nil _)
  | append_singleton steps step ih =>
    have hkeeps := (Chain.mk base steps).keeps_within
    have hparser : Chain.parser ⟨base, steps ++ [step]⟩ =
        step.apply (Chain.parser ⟨base, steps⟩) := Parser.extend_append _ _ _
    rw [hparser]
    by_cases hstep : step.isNoTrace
    · rw [traceNames_concat_of_isNoTrace steps hstep]
      have hcut : ∀ cause rs, CutShort base s steps cause rs →
          CutShort base s (steps ++ [step]) cause rs := fun _ _ h => h.concat hstep
      cases step with
      | optional => exact (Parser.optional_leaves (ih c)).mono (fun _ h => h) hcut
      | discard => exact (hkeeps.discard_leaves (ih c)).mono (fun _ h => h) hcut
      | label t => exact (Parser.label_leaves (ih c) t).mono (fun _ h => h) hcut
      | trace name => cases hstep
      | range b =>
        exact (hkeeps.range_leaves b (.nil _) (fun _ _ => Nested.append)
          (fun _ _ _ hdone h => h.append_left hdone) ih c).mono (fun _ h => h) hcut
      | map f =>
        refine hkeeps.map_leaves (ih c) hcut fun v n cause rs hv hf hrs => ?_
        exact ⟨steps, f, [], rfl, ⟨c, v, n, hv, hf⟩, .closed hrs⟩
    · cases step with
      | trace name =>
        rw [traceNames_append]
        show ((Parser.trace name _).run s (.int c)).Leaves _ _
        obtain ⟨v, n, hcn, ho, hrun⟩ | ⟨e, ho, hrun⟩ | ⟨cause, ho, hrun⟩ :=
          hkeeps.run_trace_cases name s c
        · rw [hrun]
          exact .of_ok rfl (((ih c).records_of_ok ho).singleton (.matched v hcn))
        · rw [hrun]
          exact .of_ok rfl (((ih c).records_of_ok ho).singleton (.failed e))
        · rw [hrun]
          exact .of_fault rfl (((ih c).records_of_fault ho).entered name c)
      | _ => exact absurd rfl hstep

/-! ### Transparency -/

/-- Without its traces a chain has the same outcome. -/
theorem outcome_untraced (chain : Chain) (s : Stream) (c : Int) :
    (chain.untraced.parser.run s (.int c)).outcome = (chain.parser.run s (.int c)).outcome := by
  have hbase : chain.base.parser.Like Eq Eq chain.base.parser :=
    .of_keeps (chain.base.keeps_captures fun _ => True) (fun _ => rfl) fun _ => rfl
  refine Eq.symm (Parser.Like.outcome_eq (hbase.extend_filter ?_ ?_) s c)
  · intro step _ _ p q h
    exact h.apply (fun _ => rfl) (fun t e e' he => by rw [he]) step
  · intro step _ hstep p q h
    cases step with
    | trace name => exact h.trace_left name
    | _ => cases hstep

/-- **Tracing.** At any integer position, a chain has the same outcome as without its traces.

If it has an answer, its records form a nested log. Otherwise a transformation has ended in a fault,
and the records are the front of a nested log in which exactly the traces after the transformation
have not been left.

A trace around the chain puts the record of entering before the records of the chain and the record
of its answer behind them, unless there is no answer. Parsing a whole text leaves one record behind
those of the chain, with the length of the text and the payload of a success, or with the error of a
failure, and none if there is no answer. -/
theorem tracing (chain : Chain) (s : Stream) (c : Int) :
    (chain.untraced.parser.run s (.int c)).outcome = (chain.parser.run s (.int c)).outcome ∧
    ((∃ r, (chain.parser.run s (.int c)).outcome = .ok r ∧
        Nested (traceNames chain.steps) (chain.parser.run s (.int c)).records) ∨
      ∃ before f after d v n cause, chain.steps = before ++ .map f :: after ∧
        ((Chain.parser ⟨chain.base, before⟩).run s (.int d)).outcome =
          .ok (.matched v (.int n)) ∧
        f v = .error cause ∧ (chain.parser.run s (.int c)).outcome = .error (.fault cause) ∧
        Unclosed (traceNames after) (traceNames before) (chain.parser.run s (.int c)).records ∧
        ∃ rest, rest.length = (traceNames after).length ∧
          Nested (traceNames chain.steps) ((chain.parser.run s (.int c)).records ++ rest)) ∧
    (∀ name : String,
      (∃ v n, c ≤ n ∧ (chain.parser.run s (.int c)).outcome = .ok (.matched v (.int n)) ∧
        (chain.parser.trace name).run s (.int c) = ⟨.entered name (.int c) ::
          ((chain.parser.run s (.int c)).records ++ [.matched name v (.int n)]),
          .ok (.matched v (.int n))⟩) ∨
      (∃ e, (chain.parser.run s (.int c)).outcome = .ok (.err e) ∧
        (chain.parser.trace name).run s (.int c) = ⟨.entered name (.int c) ::
          ((chain.parser.run s (.int c)).records ++ [.failed name (.int c) e]), .ok (.err e)⟩) ∨
      ∃ cause, (chain.parser.run s (.int c)).outcome = .error (.fault cause) ∧
        (chain.parser.trace name).run s (.int c) = ⟨.entered name (.int c) ::
          (chain.parser.run s (.int c)).records, .error (.fault cause)⟩) ∧
    ∀ text : String,
      (∃ payload, (chain.parser.run (.ofText text) (.int 1)).outcome = .ok (.ok payload) ∧
        chain.parser.parse text = ⟨(chain.parser.run (.ofText text) (.int 1)).records ++
          [.parsed text.length payload], .ok (.ok payload)⟩) ∨
      (∃ e, (chain.parser.run (.ofText text) (.int 1)).outcome = .ok (.err e) ∧
        chain.parser.parse text = ⟨(chain.parser.run (.ofText text) (.int 1)).records ++
          [.notParsed e], .ok (.err e)⟩) ∨
      ∃ cause, (chain.parser.run (.ofText text) (.int 1)).outcome = .error (.fault cause) ∧
        chain.parser.parse text = chain.parser.run (.ofText text) (.int 1) := by
  refine ⟨chain.outcome_untraced s c, ?_, fun name => chain.keeps_within.run_trace_cases name s c,
    fun text => ?_⟩
  · have hleaves := leaves_nested chain.base s chain.steps c
    have hfinishes := (chain.keeps_within.ensures s c).outcome_ne_unfinished
    rcases ho : (chain.parser.run s (.int c)).outcome with (cause | _) | r
    · obtain ⟨before, f, after, hsteps, ⟨d, v, n, hv, hf⟩, hrs⟩ := hleaves.records_of_fault ho
      refine .inr ⟨before, f, after, d, v, n, cause, hsteps, hv, hf, rfl, hrs, ?_⟩
      rw [hsteps, traceNames_append_map]
      exact hrs.exists_nested
    · exact absurd ho hfinishes
    · exact .inl ⟨r, rfl, hleaves.records_of_ok ho⟩
  · have hfinishes := (chain.keeps_within.ensures (.ofText text) 1).outcome_ne_unfinished
    rcases ho : (chain.parser.run (.ofText text) (.int 1)).outcome with (cause | _) | payload | e
    · refine .inr (.inr ⟨cause, rfl, ?_⟩)
      rw [Parser.parse, Run.bind_of_error ho, Run.eq_of_outcome ho]
    · exact absurd ho hfinishes
    · refine .inl ⟨payload, rfl, ?_⟩
      rw [Parser.parse, Run.eq_of_outcome ho]
      rfl
    · refine .inr (.inl ⟨e, rfl, ?_⟩)
      rw [Parser.parse, Run.eq_of_outcome ho]
      rfl

end Chain

end CursorParsers
