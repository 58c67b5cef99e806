import CursorParsers.Parser.Scripted
import CursorParsers.Proofs.Chain.Tracing
import CursorParsers.Proofs.Range.Interval
import CursorParsers.Proofs.Repetition.Invocations

/-!
# Malformed successes

A parse function that is given from outside may answer with a payload that cannot be taken apart
into a captured value and the next position. The steps `optional` and `label` do not look inside a
success, so it comes through them as it is. Every other step takes the payload apart and ends in a
fault; for a repetition this is so because its first probe is below the maximum. No step behind that
one turns the fault into an answer, and a trace that has recorded that it was entered has no outcome
to record.

That a transformation is not applied cannot be seen from a run, since it leaves nothing behind. So
transformations are looked at that leave records of the values they are applied to.

## Main definitions

* `Step.passesOn`: a step that does not look inside a success
* `entering`: the records of entering the traces among some steps
* `Parser.mapNoting`, `Parser.extendNoting`: transformations that note what they are applied to

## Main results

* `Step.run_applyNoting_of_error`: what a step makes of a parser that is interrupted
* `Step.run_applyNoting_of_unsplit`: what a step makes of a payload that cannot be taken apart
* `Parser.malformed_success`: what several steps make of a union that has not two entries
-/

namespace CursorParsers

/-- A step that passes a success on without looking inside. -/
def Step.passesOn : Step → Bool
  | .optional | .label _ => true
  | .discard | .range _ | .trace _ | .map _ => false

/-- The records of entering the traces among some steps at a position, the outermost first. -/
def entering (c : Int) (steps : List Step) : List Record :=
  (traceNames steps).map fun name => .entered name (.int c)

theorem entering_cons (c : Int) (step : Step) (steps : List Step) :
    entering c (step :: steps) = entering c steps ++ entering c [step] := by
  rw [entering, ← List.singleton_append, traceNames_append, List.map_append]
  rfl

theorem entering_of_passesOn {step : Step} (h : step.passesOn) (c : Int) :
    entering c [step] = [] := by
  cases step with
  | optional => rfl
  | label t => rfl
  | _ => cases h

/-! ### Transformations that are observed -/

namespace Parser

/-- The parser whose captured value is transformed, where the transformation notes the value
that it is applied to. -/
def mapNoting (notes : Value → List Record) (f : Transform) (p : Parser) : Parser :=
  p.follow fun _ r => r.andThen fun v n => do
    let w ← (⟨notes v, .ok ()⟩ : Run Unit) >>= fun _ => Run.ofExcept (f v)
    pure (.matched w n)

end Parser

/-- The parser that a step makes from another, if transformations note what they are applied
to. -/
def Step.applyNoting [Repertoire] (notes : Value → List Record) (p : Parser) : Step → Parser
  | .map f => p.mapNoting notes f
  | step => step.apply p

/-- A parser after several steps, in which transformations note what they are applied to. -/
def Parser.extendNoting [Repertoire] (notes : Value → List Record) (p : Parser)
    (steps : List Step) : Parser :=
  steps.foldl (Step.applyNoting notes) p

theorem Step.applyNoting_nil [Repertoire] (p : Parser) (step : Step) :
    step.applyNoting (fun _ => []) p = step.apply p := by
  cases step with
  | map f => rfl
  | _ => rfl

theorem Parser.extendNoting_nil [Repertoire] (p : Parser) (steps : List Step) :
    p.extendNoting (fun _ => []) steps = p.extend steps := by
  unfold extendNoting extend
  congr 1
  funext p step
  exact step.applyNoting_nil p

/-! ### Interrupted parsers -/

theorem Run.bind_of_fault {α β : Type} {x : Run α} {f : α → Run β} {rs : List Record} {a : α}
    {cause : Fault} (hx : x = ⟨rs, .ok a⟩) (hf : f a = Run.fault cause) :
    x >>= f = ⟨rs, .error (.fault cause)⟩ := by
  subst hx
  show (⟨rs ++ (f a).records, (f a).outcome⟩ : Run β) = _
  rw [hf]
  exact Run.ext (List.append_nil rs) rfl

namespace Parser

variable {p : Parser} {s : Stream} {x payload : Value} {rs : List Record} {e : Interrupt}
  {cause : Fault} {b : Range}

theorem run_follow_of_error (h : p.run s x = ⟨rs, .error e⟩) (treat : Value → Reply → Run Reply) :
    (p.follow treat).run s x = ⟨rs, .error e⟩ := by
  rw [run_follow, h]
  rfl

theorem run_follow_of_pure {r : Reply} (h : p.run s x = ⟨rs, .ok r⟩)
    (treat : Value → Reply → Reply) :
    (p.follow fun c r => pure (treat c r)).run s x = ⟨rs, .ok (treat x r)⟩ := by
  rw [run_follow, h]
  exact Run.ext (List.append_nil rs) rfl

theorem run_trace_of_error (h : p.run s x = ⟨rs, .error e⟩) (name : String) :
    (p.trace name).run s x = ⟨.entered name x :: rs, .error e⟩ := by
  rw [run_trace, h]
  rfl

theorem run_range_of_probe_error [Repertoire] (h : p.probe s b.max x x = ⟨rs, .error e⟩) :
    (p.range b).run s x = ⟨rs, .error e⟩ := by
  have hadvances := advances_of_probe_error (congrArg Run.outcome h) (p.allowance b s x)
  rw [h] at hadvances
  show p.advances s b.max x (p.allowance b s x) x >>= _ = _
  rw [hadvances]
  rfl

theorem run_range_of_error [Repertoire] (hbelow : below b.max x x)
    (h : p.run s x = ⟨rs, .error e⟩) : (p.range b).run s x = ⟨rs, .error e⟩ := by
  apply run_range_of_probe_error
  rw [probe_of_below hbelow, h]
  rfl

/-! ### Payloads that cannot be taken apart -/

theorem run_andThen_of_unsplit (h : p.run s x = ⟨rs, .ok (.ok payload)⟩)
    (hsplit : payload.split = .error cause) (k : Value → Value → Run Reply) :
    (p.follow fun _ r => r.andThen k).run s x = ⟨rs, .error (.fault cause)⟩ :=
  Run.bind_of_fault h (Reply.andThen_of_split hsplit k)

theorem run_trace_of_unsplit (h : p.run s x = ⟨rs, .ok (.ok payload)⟩)
    (hsplit : payload.split = .error cause) (name : String) :
    (p.trace name).run s x = ⟨.entered name x :: rs, .error (.fault cause)⟩ := by
  have hreport : report name x (.ok payload) = Run.fault cause := by
    rw [report, hsplit]
    rfl
  have hinner : (p.run s x >>= fun r => report name x r >>= fun _ => pure r) =
      ⟨rs, .error (.fault cause)⟩ := Run.bind_of_fault h (by rw [hreport]; rfl)
  rw [run_trace, hinner]
  rfl

theorem run_range_of_unsplit [Repertoire] (hbelow : below b.max x x)
    (h : p.run s x = ⟨rs, .ok (.ok payload)⟩) (hsplit : payload.split = .error cause) :
    (p.range b).run s x = ⟨rs, .error (.fault cause)⟩ := by
  have hconsider : consider b.max x x (.ok payload) = Run.fault cause := by
    rw [consider, hsplit]
    rfl
  apply run_range_of_probe_error
  rw [probe_of_below hbelow]
  exact Run.bind_of_fault h hconsider

end Parser

/-! ### One step -/

/-- A step tries its parser at once: a repetition does if its maximum is positive. -/
def Step.Tries (step : Step) : Prop := ∀ b, step = .range b → (Number.int 0).less b.max

namespace Step

variable {p : Parser} {s : Stream} {c : Int} {payload : Value} {rs : List Record} {e : Interrupt}
  {cause : Fault} {step : Step}

theorem Tries.below {b : Range} (h : (Step.range b).Tries) (c : Int) :
    Parser.below b.max (.int c) (.int c) := by
  rw [Parser.below_int, Int.sub_self]
  exact h b rfl

variable [Repertoire]

/-- A parser that is **interrupted** interrupts every step on it. -/
theorem run_applyNoting_of_error (h : p.run s (.int c) = ⟨rs, .error e⟩)
    (hstep : step.Tries) (notes : Value → List Record) :
    (step.applyNoting notes p).run s (.int c) = ⟨entering c [step] ++ rs, .error e⟩ := by
  cases step with
  | optional => exact Parser.run_follow_of_error h _
  | discard => exact Parser.run_follow_of_error h _
  | range b => exact Parser.run_range_of_error (hstep.below c) h
  | label t => exact Parser.run_follow_of_error h _
  | trace name => exact Parser.run_trace_of_error h name
  | map f => exact Parser.run_follow_of_error h _

theorem run_applyNoting_of_passesOn (h : p.run s (.int c) = ⟨rs, .ok (.ok payload)⟩)
    (hstep : step.passesOn) (notes : Value → List Record) :
    (step.applyNoting notes p).run s (.int c) = ⟨rs, .ok (.ok payload)⟩ := by
  cases step with
  | optional => exact Parser.run_follow_of_pure h fun c r => r.orNull c
  | label t => exact Parser.run_follow_of_pure h fun _ r => r.labelled t
  | _ => cases hstep

/-- Every other step **ends in a fault** on a payload that cannot be taken apart. -/
theorem run_applyNoting_of_unsplit (h : p.run s (.int c) = ⟨rs, .ok (.ok payload)⟩)
    (hsplit : payload.split = .error cause) (hstep : step.passesOn = false) (htries : step.Tries)
    (notes : Value → List Record) :
    (step.applyNoting notes p).run s (.int c) =
      ⟨entering c [step] ++ rs, .error (.fault cause)⟩ := by
  cases step with
  | optional => cases hstep
  | label t => cases hstep
  | discard => exact Parser.run_andThen_of_unsplit h hsplit _
  | range b => exact Parser.run_range_of_unsplit (htries.below c) h hsplit
  | trace name => exact Parser.run_trace_of_unsplit h hsplit name
  | map f => exact Parser.run_andThen_of_unsplit h hsplit _

end Step

/-! ### Several steps -/

namespace Parser

variable {p : Parser} {s : Stream} {c : Int} {payload : Value} {rs : List Record} {e : Interrupt}
  {cause : Fault} {steps : List Step}

/-- A parser that is interrupted interrupts any steps on it, and each trace among them is
entered. -/
theorem run_extendNoting_of_error [Repertoire] (h : p.run s (.int c) = ⟨rs, .error e⟩)
    (hsteps : ∀ step ∈ steps, step.Tries) (notes : Value → List Record) :
    (p.extendNoting notes steps).run s (.int c) = ⟨entering c steps ++ rs, .error e⟩ := by
  induction steps generalizing p rs with
  | nil => exact h
  | cons step steps ih =>
    obtain ⟨hstep, hrest⟩ := List.forall_mem_cons.mp hsteps
    rw [entering_cons, List.append_assoc]
    exact ih (step.run_applyNoting_of_error h hstep notes) hrest

theorem run_extendNoting_of_passesOn [Repertoire] (h : p.run s (.int c) = ⟨rs, .ok (.ok payload)⟩)
    (hsteps : ∀ step ∈ steps, step.passesOn) (notes : Value → List Record) :
    (p.extendNoting notes steps).run s (.int c) = ⟨rs, .ok (.ok payload)⟩ := by
  induction steps generalizing p with
  | nil => exact h
  | cons step steps ih =>
    obtain ⟨hstep, hrest⟩ := List.forall_mem_cons.mp hsteps
    exact ih (step.run_applyNoting_of_passesOn h hstep notes) hrest

/-- Steps of which one takes the payload apart end in a fault. -/
theorem run_extendNoting_of_unsplit [Repertoire] (h : p.run s (.int c) = ⟨rs, .ok (.ok payload)⟩)
    (hsplit : payload.split = .error cause) (hsteps : ∀ step ∈ steps, step.Tries)
    (hany : ∃ step ∈ steps, step.passesOn = false) (notes : Value → List Record) :
    (p.extendNoting notes steps).run s (.int c) =
      ⟨entering c steps ++ rs, .error (.fault cause)⟩ := by
  induction steps generalizing p with
  | nil => simp at hany
  | cons step steps ih =>
    obtain ⟨hstep, hrest⟩ := List.forall_mem_cons.mp hsteps
    rw [entering_cons, List.append_assoc]
    cases hpass : step.passesOn with
    | true =>
      have hlater : ∃ step ∈ steps, step.passesOn = false := by
        obtain ⟨other, hmem, hother⟩ := hany
        rcases List.mem_cons.mp hmem with rfl | hmem
        · rw [hpass] at hother
          cases hother
        · exact ⟨other, hmem, hother⟩
      rw [entering_of_passesOn hpass, List.nil_append]
      exact ih (step.run_applyNoting_of_passesOn h hpass notes) hrest hlater
    | false =>
      exact run_extendNoting_of_error
        (step.run_applyNoting_of_unsplit h hsplit hpass hstep notes) hrest notes

/-- **A malformed success is not misread.** Let a parser answer at an integer position with a union
that has not two entries, and let the repetitions among some steps on it have bounds that are
numbers with a value.

If every step passes successes on, the union comes out as it is. Otherwise the steps end in a fault
that tells the number of entries; each trace among them has left the record of being entered, the
outermost first, and no other. No transformation among the steps is applied to anything: none leaves
a note, whatever it would note. -/
theorem malformed_success [Repertoire] {us : List Value}
    (hp : p.run s (.int c) = ⟨rs, .ok (.ok (.union us))⟩) (hus : us.length ≠ 2)
    (hsteps : ∀ b, .range b ∈ steps → b.min ≠ .float .nan ∧ b.max ≠ .float .nan) :
    ((∀ step ∈ steps, step.passesOn) →
      (p.extend steps).run s (.int c) = ⟨rs, .ok (.ok (.union us))⟩) ∧
    ((∃ step ∈ steps, step.passesOn = false) →
      (p.extend steps).run s (.int c) =
        ⟨(traceNames steps).map (fun name => .entered name (.int c)) ++ rs,
          .error (.fault (.malformedSuccess us.length))⟩ ∧
      (us.length < 2 → (Fault.malformedSuccess us.length).message =
        "not enough values to unpack (expected 2, got " ++ toString us.length ++ ")") ∧
      (2 < us.length → (Fault.malformedSuccess us.length).message =
        "too many values to unpack (expected 2)")) ∧
    ∀ notes, (p.extendNoting notes steps).run s (.int c) = (p.extend steps).run s (.int c) := by
  have htries : ∀ step ∈ steps, step.Tries := by
    rintro step hstep b rfl
    obtain ⟨hmin, hmax⟩ := hsteps b hstep
    exact Range.zero_less_max hmin hmax
  have hpassed (hall : ∀ step ∈ steps, step.passesOn) := run_extendNoting_of_passesOn hp hall
  have hended := run_extendNoting_of_unsplit hp (Value.split_union hus) htries
  refine ⟨fun hall => ?_, fun hany => ⟨?_, fun hless => ?_, fun hmore => ?_⟩, fun notes => ?_⟩
  · rw [← extendNoting_nil]
    exact hpassed hall _
  · rw [← extendNoting_nil]
    exact hended hany _
  · exact if_pos hless
  · exact if_neg (Nat.not_lt.mpr (Nat.le_of_lt hmore))
  · rw [← extendNoting_nil]
    by_cases hall : ∀ step ∈ steps, step.passesOn
    · rw [hpassed hall, hpassed hall]
    · have hany : ∃ step ∈ steps, step.passesOn = false := by simpa using hall
      rw [hended hany, hended hany]

/-- A union of three entries behind two traces, a transformation and a repetition. -/
theorem malformed_success_triple :
    let entries := [Value.int 1, .int 2, .int 3]
    let steps : List Step := [.optional, .label "a pair", .trace "inner", .map .toInteger,
      .range ⟨.int 0, .infinity, rfl, rfl⟩, .optional, .trace "outer"]
    entries.length ≠ 2 ∧ (∀ b, .range b ∈ steps → b.min ≠ .float .nan ∧ b.max ≠ .float .nan) ∧
    ((constant (.ok (.union entries))).extend steps).run (.ofText "ab") (.int 1) =
      ⟨[.entered "outer" (.int 1), .entered "inner" (.int 1)],
        .error (.fault (.malformedSuccess 3))⟩ := by
  intro entries steps
  have hentries : entries.length ≠ 2 := by decide
  have hsteps : ∀ b, .range b ∈ steps → b.min ≠ .float .nan ∧ b.max ≠ .float .nan := by
    intro b hb
    obtain rfl : b = ⟨.int 0, .infinity, rfl, rfl⟩ := by simpa [steps] using hb
    exact ⟨by decide, by decide⟩
  have hrun : (constant (.ok (.union entries))).run (.ofText "ab") (.int 1) =
      ⟨[], .ok (.ok (.union entries))⟩ := rfl
  have hend := (malformed_success hrun hentries hsteps).2.1
  exact ⟨hentries, hsteps, (hend ⟨.map .toInteger, by simp [steps], rfl⟩).1⟩

end Parser

end CursorParsers
