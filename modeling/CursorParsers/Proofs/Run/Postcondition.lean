import CursorParsers.Run

/-!
# Postconditions of runs

What a run ensures whatever it does: it comes to an end, only faults of a given kind interrupt it,
its result meets a condition, and every record it leaves can be written, so that listening to the
log at any level changes nothing.

## Main definitions

* `Record.Writable`: a record that has a message
* `Run.Ensures`: a run that keeps to a condition on its faults and one on its result
* `Run.Finishes`: a run that is not left unfinished

## Main results

* `Run.Ensures.bind`: a composite run ensures what its second part ensures after the first
* `Run.Ensures.heard`: such a run is not changed by listening to it
-/

namespace CursorParsers

/-- A record that can be written. -/
def Record.Writable [Repertoire] (r : Record) : Prop := ∃ line, r.message = .ok line

theorem Record.Writable.fault?_eq_none [Repertoire] {r : Record} (h : r.Writable)
    (threshold : Level) : r.fault? threshold = none := by
  obtain ⟨line, hl⟩ := h
  simp [Record.fault?, hl]

namespace Run

variable {α β : Type} {E E' : Fault → Prop} {P Q : α → Prop} {R : β → Prop}

/-- An outcome that is a result under a condition, or a fault under another. -/
def Ends (E : Fault → Prop) (Q : α → Prop) : Except Interrupt α → Prop
  | .ok a => Q a
  | .error (.fault cause) => E cause
  | .error .unfinished => False

/-- A run that ensures `Q` of its result unless a fault in `E` interrupts it, and leaves only
records that can be written. -/
structure Ensures [Repertoire] (E : Fault → Prop) (Q : α → Prop) (x : Run α) : Prop where
  writable : ∀ r ∈ x.records, r.Writable
  ends : Ends E Q x.outcome

namespace Ensures

variable [Repertoire]

theorem pure {a : α} (h : Q a) : Ensures E Q (Pure.pure a) := ⟨by simp, h⟩

theorem fault {cause : Fault} (h : E cause) : Ensures E Q (Run.fault cause : Run α) :=
  ⟨by simp [Run.fault], h⟩

theorem log {r : Record} (h : r.Writable) : Ensures E (fun _ => True) (Run.log r) :=
  ⟨by simpa [Run.log] using h, trivial⟩

theorem ofExcept {x : Except Fault α} (hok : ∀ a, x = .ok a → Q a)
    (herror : ∀ cause, x = .error cause → E cause) : Ensures E Q (Run.ofExcept x) := by
  cases x with
  | ok a => exact .pure (hok a rfl)
  | error cause => exact .fault (herror cause rfl)

theorem mono {x : Run α} (hx : x.Ensures E P) (hE : ∀ cause, E cause → E' cause)
    (hQ : ∀ a, P a → Q a) : x.Ensures E' Q := by
  refine ⟨hx.writable, ?_⟩
  have h := hx.ends
  revert h
  rcases x.outcome with (cause | _) | a <;> intro h
  · exact hE cause h
  · exact h
  · exact hQ a h

/-- A run ensures what its **second part** ensures after any result the first part can have. -/
theorem bind {x : Run α} {f : α → Run β} (hx : x.Ensures E P)
    (hf : ∀ a, P a → (f a).Ensures E R) : (x >>= f).Ensures E R := by
  have h := hx.ends
  cases ho : x.outcome with
  -- An interrupted first part is the whole run: its records stay, and nothing follows them.
  | error e =>
    rw [bind_of_error ho]
    rw [ho] at h
    refine ⟨hx.writable, ?_⟩
    cases e with
    | fault cause => exact h
    | unfinished => exact h
  | ok a =>
    rw [ho] at h
    refine ⟨?_, ?_⟩
    · rw [records_bind_of_ok ho]
      intro r hr
      rcases List.mem_append.mp hr with hr | hr
      · exact hx.writable r hr
      · exact (hf a h).writable r hr
    · rw [outcome_bind_of_ok ho]
      exact (hf a h).ends

theorem map {x : Run α} {f : α → β} (hx : x.Ensures E P) (hf : ∀ a, P a → R (f a)) :
    (f <$> x).Ensures E R := by
  rw [← bind_pure_comp]
  exact hx.bind fun a h => .pure (hf a h)

theorem outcome_ne_unfinished {x : Run α} (hx : x.Ensures E Q) :
    x.outcome ≠ .error .unfinished := by
  intro h
  have he := hx.ends
  rw [h] at he
  exact he

theorem exists_ok {x : Run α} (hx : x.Ensures (fun _ => False) Q) :
    ∃ a, x.outcome = .ok a ∧ Q a := by
  have h := hx.ends
  cases ho : x.outcome with
  | error e =>
    rw [ho] at h
    cases e with
    | fault cause => exact h.elim
    | unfinished => exact h.elim
  | ok a =>
    rw [ho] at h
    exact ⟨a, rfl, h⟩

/-- **Listening changes nothing** where all records can be written. -/
theorem heard {x : Run α} (hx : x.Ensures E Q) (threshold : Level) : x.heard threshold = x :=
  heard_of_forall fun r hr => (hx.writable r hr).fault?_eq_none threshold

end Ensures

/-! ### Runs that finish -/

/-- A run that finishes, with a result or in a fault. -/
def Finishes (x : Run α) : Prop := x.outcome ≠ .error .unfinished

namespace Finishes

theorem pure (a : α) : (Pure.pure a : Run α).Finishes := fun h => by cases h

theorem ofExcept (x : Except Fault α) : (Run.ofExcept x).Finishes := by
  cases x with
  | ok a => exact .pure a
  | error cause =>
    intro h
    cases h

theorem bind {x : Run α} {f : α → Run β} (hx : x.Finishes)
    (hf : ∀ a, x.outcome = .ok a → (f a).Finishes) : (x >>= f).Finishes := by
  cases ho : x.outcome with
  | ok a =>
    rw [Finishes, outcome_bind_of_ok ho]
    exact hf a ho
  | error e =>
    rw [Finishes, bind_of_error ho]
    exact fun h => hx (ho.trans (congrArg _ (Except.error.inj h)))

theorem map {x : Run α} (hx : x.Finishes) (f : α → β) : (f <$> x).Finishes := by
  rw [← bind_pure_comp]
  exact hx.bind fun a _ => .pure (f a)

end Finishes

end Run

end CursorParsers
