import CursorParsers.Proofs.Chain.Progress
import CursorParsers.Proofs.Parser.Correspondence

/-!
# Consumption does not depend on captured values

What a chain captures is looked at by nothing but its own transformations. So dropping, transforming
or tracing the captured value anywhere in a chain, also below a repetition, changes neither whether
the chain matches nor where the match ends, nor the error of a failure.

## Main definitions

* `Step.consumes`: a step that does more than change the captured value or leave records
* `Step.IsTotal`: a step that does not end in a fault

## Main results

* `Chain.run_of_filter_consumes_eq`: chains that consume by the same steps
-/

namespace CursorParsers

/-- A step that does more than change the captured value or leave records. -/
def Step.consumes : Step → Bool
  | .optional | .range _ | .label _ => true
  | .discard | .trace _ | .map _ => false

/-- A step that does not end in a fault: a transformation has to give a result on every
value. -/
def Step.IsTotal : Step → Prop
  | .map f => ∀ v, ∃ w, f v = .ok w
  | _ => True

/-- Two parsers that consume the same: at every position they fail with the same error, or match
up to the same position. -/
abbrev Parser.SameConsumption : Parser → Parser → Prop := Parser.Like Eq fun _ _ => True

namespace Parser.SameConsumption

variable {p q : Parser} {step : Step}

theorem apply_of_consumes [Repertoire] (h : step.consumes) (hpq : p.SameConsumption q) :
    (step.apply p).SameConsumption (step.apply q) := by
  cases step with
  | optional => exact hpq.optional trivial
  | range b => exact hpq.range (fun _ _ _ => trivial) b
  | label t => exact hpq.label t fun e e' he => by rw [he]
  | discard => cases h
  | trace name => cases h
  | map f => cases h

theorem apply_left [Repertoire] (h : step.consumes = false) (ht : step.IsTotal)
    (hpq : p.SameConsumption q) : (step.apply p).SameConsumption q := by
  cases step with
  | discard => exact hpq.discard_left fun _ _ _ => trivial
  | trace name => exact hpq.trace_left name
  | map f => exact hpq.map_left ht fun _ _ _ _ _ => trivial
  | optional => cases h
  | range b => cases h
  | label t => cases h

end Parser.SameConsumption

/-- Chains on the same primitive whose steps differ in the captured values only consume the
same. -/
theorem Chain.sameConsumption [Repertoire] (base : Primitive) {steps steps' : List Step}
    (hsteps : steps.filter Step.consumes = steps'.filter Step.consumes)
    (htotal : ∀ step ∈ steps ++ steps', step.IsTotal) :
    (Chain.parser ⟨base, steps⟩).SameConsumption (Chain.parser ⟨base, steps'⟩) := by
  have hrefl : base.parser.SameConsumption base.parser :=
    .of_keeps (base.keeps_captures fun _ => True) (fun _ => rfl) fun _ => trivial
  exact hrefl.extend_of_filter_eq eq_equivalence
    ⟨fun _ => trivial, fun _ => trivial, fun _ _ => trivial⟩ hsteps
    (fun _ _ hc _ _ hpq => Parser.SameConsumption.apply_of_consumes hc hpq)
    fun st hst hc _ _ hpq => Parser.SameConsumption.apply_left hc (htotal st hst) hpq

theorem Chain.keeps_of_total [Repertoire] {chain : Chain} (h : ∀ step ∈ chain.steps, step.IsTotal) :
    chain.parser.Keeps (fun _ => False) fun _ _ _ _ => True := by
  have hnever : ∀ cause, chain.Raises cause → False := by
    rintro cause ⟨f, v, hmem, hf⟩
    obtain ⟨w, hw⟩ := h _ hmem v
    rw [hw] at hf
    cases hf
  exact ⟨fun s c => (chain.keeps_within.ensures s c).mono hnever fun _ hr => hr,
    chain.keeps_within.rounds⟩

/-- **Independence of captured values.** Let two chains on the same primitive have the same steps
once every `discard`, `trace` and `map` is deleted from both, and let their transformations give a
result on every value. At any integer position, either both fail with the same error, or both match
and end at the same position. -/
theorem Chain.run_of_filter_consumes_eq [Repertoire] (base : Primitive) {steps steps' : List Step}
    (hsteps : steps.filter Step.consumes = steps'.filter Step.consumes)
    (htotal : ∀ step ∈ steps ++ steps', step.IsTotal) (s : Stream) (c : Int) :
    (∃ message,
        ((Chain.parser ⟨base, steps⟩).run s (.int c)).outcome = .ok (.err (.text message)) ∧
        ((Chain.parser ⟨base, steps'⟩).run s (.int c)).outcome = .ok (.err (.text message))) ∨
      ∃ v v' n,
        ((Chain.parser ⟨base, steps⟩).run s (.int c)).outcome = .ok (.matched v (.int n)) ∧
        ((Chain.parser ⟨base, steps'⟩).run s (.int c)).outcome = .ok (.matched v' (.int n)) := by
  have hkeeps : (Chain.parser ⟨base, steps⟩).Keeps (fun _ => False) fun _ _ _ _ => True :=
    Chain.keeps_of_total fun st hst => htotal st (List.mem_append_left _ hst)
  obtain ⟨r, hr, hmeets⟩ := (hkeeps.ensures s c).exists_ok
  obtain ⟨_, r', hr₀, hr', hcorr⟩ | ⟨e, hr₀, -⟩ :=
    ((Chain.sameConsumption base hsteps htotal).alike s c).ok_or_error
  · obtain rfl := Except.ok.inj (hr.symm.trans hr₀)
    cases hmeets with
    | err message =>
      cases hcorr with
      | err he => exact .inl ⟨message, hr, he ▸ hr'⟩
    | matched _ =>
      cases hcorr with
      | matched _ => exact .inr ⟨_, _, _, hr, hr'⟩
  -- No step ends in a fault, so the first chain has an answer.
  · rw [hr] at hr₀
    cases hr₀

/-- A character discarded below two repetitions, and one that becomes a list and is traced: they
capture different texts and end at the same position. -/
theorem Chain.run_of_filter_consumes_eq_nested :
    let discarding : Chain := ⟨.anyChar, [.discard, .range ⟨.int 0, .int 2, rfl, rfl⟩,
      .range ⟨.int 3, .infinity, rfl, rfl⟩]⟩
    let listing : Chain := ⟨.anyChar, [.map .single, .range ⟨.int 0, .int 2, rfl, rfl⟩,
      .trace "two", .range ⟨.int 3, .infinity, rfl, rfl⟩]⟩
    ∃ v v' n,
      (discarding.parser.run (.ofText "abcde") (.int 2)).outcome = .ok (.matched v (.int n)) ∧
      (listing.parser.run (.ofText "abcde") (.int 2)).outcome = .ok (.matched v' (.int n)) ∧
      v = .text "" ∧ v' = .text "['b']['c']['d']['e']" ∧ n = 6 := by
  intro discarding listing
  have htotal : ∀ step ∈ discarding.steps ++ listing.steps, step.IsTotal := by
    simp [discarding, listing, Step.IsTotal, Transform.single, Transform.total]
  have hdiscarding : (discarding.parser.run (.ofText "abcde") (.int 2)).outcome =
      .ok (.matched (.text "") (.int 6)) := rfl
  have hlisting : (listing.parser.run (.ofText "abcde") (.int 2)).outcome =
      .ok (.matched (.text "['b']['c']['d']['e']") (.int 6)) := rfl
  obtain ⟨message, h, -⟩ | ⟨v, v', n, h, h'⟩ :=
    Chain.run_of_filter_consumes_eq .anyChar (by rfl) htotal (.ofText "abcde") 2
  · cases hdiscarding.symm.trans h
  · cases hdiscarding.symm.trans h
    cases hlisting.symm.trans h'
    exact ⟨_, _, _, h, h', rfl, rfl, rfl⟩

end CursorParsers
