import CursorParsers.Parser.Chain
import CursorParsers.Proofs.Primitive.Consumption
import CursorParsers.Proofs.Repetition.Path

/-!
# Invariants of chains

A condition on matches says which values may be captured between which positions. A chain keeps to
it if its primitive does and every step does, and whether a step does is a question about the
condition alone. Along with any such condition goes that no match leaves the text, which is what
brings repetitions to an end.

## Main definitions

* `Parser.Keeps`: a parser whose matches meet a condition and do not leave the text
* `Step.Keeps`: what a condition has to allow for a step

## Main results

* `Step.Keeps.apply`: a step that keeps to a condition makes a parser that does
* `Parser.Keeps.extend`: several such steps do
* `Primitive.keeps_captures`: a primitive captures what lies between the two positions
-/

namespace CursorParsers

/-- A condition on where a match starts in a stream, what it captures and where it ends. -/
abbrev Condition := Stream → Int → Value → Int → Prop

/-- A condition on matches that do not leave the text. -/
def Condition.within (Q : Condition) (s : Stream) (c : Int) (v : Value) (n : Int) : Prop :=
  s.Moves c n ∧ Q s c v n

variable [Repertoire]

/-- A parser that keeps to a condition at integer positions: whatever it does there, it answers
with a text as error or a match that meets the condition, or is interrupted by a fault in `E`. -/
structure Parser.Keeps (E : Fault → Prop) (Q : Condition) (p : Parser) : Prop where
  ensures (s : Stream) (c : Int) : (p.run s (.int c)).Ensures E (Reply.Meets (Q.within s c))
  rounds : p.rounds = Stream.remainingFrom

/-- What a condition allows a step to do: capture the unit value on the spot, forget what was
captured, join what was captured along a path, or transform it. -/
def Step.Keeps (E : Fault → Prop) (Q : Condition) : Step → Prop
  | .optional => ∀ s c, Q s c .null c
  | .discard => ∀ s c v n, Q s c v n → Q s c .null n
  | .range _ => ∀ s c ms n, Path (Q.within s) c ms n → Q s c (.text (Parser.captured ms)) n
  | .label _ => True
  | .trace _ => True
  | .map f => (∀ v cause, f v = .error cause → E cause) ∧
      ∀ s c v w n, Q s c v n → f v = .ok w → Q s c w n

namespace Parser.Keeps

variable {E : Fault → Prop} {Q Q' : Condition} {p : Parser}

theorem mono (hp : p.Keeps E Q) (h : ∀ s c v n, Q s c v n → Q' s c v n) : p.Keeps E Q' where
  ensures s c := (hp.ensures s c).mono (fun _ he => he) fun _ hr =>
    hr.mono fun v n hq => ⟨hq.1, h s c v n hq.2⟩
  rounds := hp.rounds

theorem optional (hp : p.Keeps E Q) (h : ∀ s c, Q s c .null c) : p.optional.Keeps E Q where
  ensures s c := by
    rw [run_optional]
    refine (hp.ensures s c).bind fun r hr => .pure ?_
    cases hr with
    | err message => exact .matched ⟨.refl s c, h s c⟩
    | matched hq => exact .matched hq
  rounds := hp.rounds

theorem discard (hp : p.Keeps E Q) (h : ∀ s c v n, Q s c v n → Q s c .null n) :
    p.discard.Keeps E Q where
  ensures s c := by
    rw [run_discard]
    refine (hp.ensures s c).bind fun r hr => ?_
    cases hr with
    | err message => exact .pure (.err message)
    | @matched v n hq =>
      rw [Reply.andThen_matched]
      exact .pure (.matched ⟨hq.1, h s c v n hq.2⟩)
  rounds := hp.rounds

theorem label (hp : p.Keeps E Q) (expectation : String) : (p.label expectation).Keeps E Q where
  ensures s c := by
    rw [run_label]
    refine (hp.ensures s c).bind fun r hr => .pure ?_
    cases hr with
    | err message => exact .err _
    | matched hq => exact .matched hq
  rounds := hp.rounds

theorem trace (hp : p.Keeps E Q) (name : String) : (p.trace name).Keeps E Q where
  ensures s c := by
    rw [run_trace]
    have hentered : (Record.entered name (.int c)).Writable := ⟨_, rfl⟩
    refine (Run.Ensures.log hentered).bind fun _ _ => (hp.ensures s c).bind fun r hr => ?_
    cases hr with
    | err message =>
      have hfailed : (Record.failed name (.int c) (.text message)).Writable := ⟨_, rfl⟩
      exact (Run.Ensures.log hfailed).bind fun _ _ => .pure (.err message)
    | @matched v n hq =>
      have hmatched : (Record.matched name v (.int n)).Writable := ⟨_, rfl⟩
      exact (Run.Ensures.log hmatched).bind fun _ _ => .pure (.matched hq)
  rounds := hp.rounds

theorem map (hp : p.Keeps E Q) {f : Transform} (hf : ∀ v cause, f v = .error cause → E cause)
    (h : ∀ s c v w n, Q s c v n → f v = .ok w → Q s c w n) : (p.map f).Keeps E Q where
  ensures s c := by
    rw [run_map]
    refine (hp.ensures s c).bind fun r hr => ?_
    cases hr with
    | err message => exact .pure (.err message)
    | @matched v n hq =>
      rw [Reply.andThen_matched]
      refine (Run.Ensures.ofExcept (fun w hw => hw) (hf v)).bind fun w hw => ?_
      exact .pure (.matched ⟨hq.1, h s c v w n hq.2 hw⟩)
  rounds := hp.rounds

/-- A repetition of the parser follows a path of its matches, and has rounds enough. -/
theorem advances (hp : p.Keeps E Q) (b : Range) (s : Stream) (c : Int) :
    (p.advances s b.max (.int c) (p.allowance b s (.int c)) (.int c)).Ensures E fun ms =>
      ∃ stop, Path (Q.within s) c ms stop := by
  have hk : s.remaining c ≤ p.allowance b s (.int c) := by
    rw [allowance, hp.rounds, Stream.remainingFrom_int]
    exact Nat.le_add_left _ _
  exact advances_ensures b.max (hp.ensures s) (fun _ _ _ hq => hq.1) hk

theorem range (hp : p.Keeps E Q) (b : Range)
    (h : ∀ s c ms n, Path (Q.within s) c ms n → Q s c (.text (captured ms)) n) :
    (p.range b).Keeps E Q where
  ensures s c := by
    -- The path ends at an integer position, so the consumed characters can be counted.
    refine (hp.advances b s c).bind fun ms hms => ?_
    obtain ⟨stop, path⟩ := hms
    rw [conclude_int path.finish_eq, Run.ofExcept_ok]
    split
    next => exact .pure (.err _)
    next => exact .pure (.matched ⟨path.moves fun _ _ _ hq => hq.1, h s c ms stop path⟩)
  rounds := hp.rounds

end Parser.Keeps

/-- A **step** that keeps to a condition makes a parser that does from one that does. -/
theorem Step.Keeps.apply {E : Fault → Prop} {Q : Condition} {p : Parser} {step : Step}
    (hstep : step.Keeps E Q) (hp : p.Keeps E Q) : (step.apply p).Keeps E Q := by
  cases step with
  | optional => exact hp.optional hstep
  | discard => exact hp.discard hstep
  | range b => exact hp.range b hstep
  | label t => exact hp.label t
  | trace name => exact hp.trace name
  | map f => exact hp.map hstep.1 hstep.2

theorem Step.keeps_any (step : Step) : step.Keeps (fun _ => True) fun _ _ _ _ => True := by
  cases step with
  | optional => exact fun _ _ => trivial
  | discard => exact fun _ _ _ _ _ => trivial
  | range b => exact fun _ _ _ _ _ => trivial
  | label t => trivial
  | trace name => trivial
  | map f => exact ⟨fun _ _ _ => trivial, fun _ _ _ _ _ _ _ => trivial⟩

/-- **Several steps** that keep to a condition make a parser that does. -/
theorem Parser.Keeps.extend {E : Fault → Prop} {Q : Condition} {p : Parser} {steps : List Step}
    (hp : p.Keeps E Q) (h : ∀ step ∈ steps, step.Keeps E Q) : (p.extend steps).Keeps E Q := by
  induction steps generalizing p with
  | nil => exact hp
  | cons step steps ih =>
    rw [Parser.extend_cons]
    exact ih ((h step List.mem_cons_self).apply hp) fun st hst => h st (List.mem_cons_of_mem _ hst)

/-! ### Primitives -/

/-- What lies between two positions, as a text, or the unit value on the spot. -/
def Captures : Condition := fun s c v n =>
  v = .null ∧ n = c ∨ v = .text (.ofList (s.slice c n))

/-- A **primitive** captures what lies between where it starts and where it ends. -/
theorem Primitive.keeps_captures (E : Fault → Prop) (p : Primitive) :
    p.parser.Keeps E Captures where
  ensures s c := by
    by_cases hc : 1 ≤ c
    -- From the first position on a primitive is a function of the rest of the stream.
    · rw [run_parser_of_read (p.read_eq_consume s hc)]
      refine .pure ?_
      cases hfound : p.consume (s.rest c) with
      | error failure => exact .err _
      | ok found =>
        obtain ⟨v, k⟩ := found
        obtain ⟨hk, hv⟩ := consume_captures hfound
        rw [Stream.length_rest hc, Stream.remaining] at hk
        refine .matched ⟨?_, ?_⟩
        · show s.Moves c (c + k)
          unfold Stream.Moves
          omega
        · obtain ⟨rfl, rfl⟩ | rfl := hv
          · exact .inl ⟨rfl, Int.add_zero c⟩
          · exact .inr (by rw [Stream.slice_add])
    · obtain ⟨failure, hread⟩ | ⟨v, hread, hv⟩ := p.read_of_nonpos s (c := c) (by omega)
      · rw [run_parser_of_read hread]
        exact .pure (.err _)
      · rw [run_parser_of_read hread]
        refine .pure (.matched ⟨.refl s c, ?_⟩)
        obtain rfl | rfl := hv
        · exact .inl ⟨rfl, rfl⟩
        · exact .inr (by rw [Stream.slice_self])
  rounds := rfl

end CursorParsers
