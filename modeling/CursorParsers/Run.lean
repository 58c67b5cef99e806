import CursorParsers.Log

/-!
# Runs

A run leaves records and comes to an outcome. It can be interrupted by a fault; the records left
until then stay. Only a repetition that outlasts its bound on rounds is left unfinished.

## Main definitions

* `Run`: records and outcome of a computation
* `Run.log`, `Run.fault`, `Run.unfinished`: the basic runs
* `Run.heard`: a run whose records are written at once

## Main results

* the `LawfulMonad` instance: runs compose by appending their records
* `Run.records_bind_of_ok`, `Run.bind_of_error`: the records of a composite run
-/

namespace CursorParsers

/-- Why a run has no result. -/
inductive Interrupt where
  | fault (cause : Fault)
  | unfinished

/-- A computation that leaves records: those it left, and its result or what interrupted it. -/
structure Run (α : Type) where
  records : List Record
  outcome : Except Interrupt α

namespace Run

variable {α β : Type}

theorem ext {x y : Run α} (hr : x.records = y.records) (ho : x.outcome = y.outcome) : x = y := by
  cases x
  cases y
  simp_all

/-- The run that only has a result. -/
protected def pure (a : α) : Run α := ⟨[], .ok a⟩

/-- The run that goes on with the result of another, if that has one. -/
protected def bind (x : Run α) (f : α → Run β) : Run β :=
  match x.outcome with
  | .ok a => ⟨x.records ++ (f a).records, (f a).outcome⟩
  | .error e => ⟨x.records, .error e⟩

/-- The run with its result, if any, changed. -/
protected def map (f : α → β) (x : Run α) : Run β := ⟨x.records, x.outcome.map f⟩

instance : Monad Run where
  map := Run.map
  pure := Run.pure
  bind := Run.bind

/-- The run that leaves one record. -/
def log (r : Record) : Run Unit := ⟨[r], .ok ()⟩

/-- The run that is interrupted by a fault. -/
def fault (cause : Fault) : Run α := ⟨[], .error (.fault cause)⟩

/-- The run that has run out of rounds. -/
def unfinished : Run α := ⟨[], .error .unfinished⟩

/-- A result or fault as a run. -/
def ofExcept : Except Fault α → Run α
  | .ok a => pure a
  | .error cause => fault cause

/-- The run as it goes when its records at or above a level are written at once: a record that
cannot be written interrupts it. -/
def heard [Repertoire] (threshold : Level) (x : Run α) : Run α :=
  match x.records.findSome? (Record.fault? threshold) with
  | none => x
  | some cause =>
    ⟨x.records.takeWhile fun r => (r.fault? threshold).isNone, .error (.fault cause)⟩

/-! ### Equations -/

theorem heard_of_forall [Repertoire] {threshold : Level} {x : Run α}
    (h : ∀ r ∈ x.records, r.fault? threshold = none) : x.heard threshold = x := by
  simp [heard, List.findSome?_eq_none_iff.mpr h]

@[simp] theorem ofExcept_ok (a : α) : ofExcept (.ok a) = pure a := rfl

@[simp] theorem ofExcept_error (cause : Fault) :
    (ofExcept (.error cause) : Run α) = fault cause := rfl

@[simp] theorem records_pure (a : α) : (pure a : Run α).records = [] := rfl

@[simp] theorem outcome_pure (a : α) : (pure a : Run α).outcome = .ok a := rfl

@[simp] theorem records_map (f : α → β) (x : Run α) : (f <$> x).records = x.records := rfl

@[simp] theorem outcome_map (f : α → β) (x : Run α) : (f <$> x).outcome = x.outcome.map f := rfl

theorem bind_def (x : Run α) (f : α → Run β) : x >>= f = Run.bind x f := rfl

theorem records_bind_of_ok {x : Run α} {a : α} (h : x.outcome = .ok a) (f : α → Run β) :
    (x >>= f).records = x.records ++ (f a).records := by
  simp [bind_def, Run.bind, h]

theorem outcome_bind_of_ok {x : Run α} {a : α} (h : x.outcome = .ok a) (f : α → Run β) :
    (x >>= f).outcome = (f a).outcome := by
  simp [bind_def, Run.bind, h]

theorem bind_of_error {x : Run α} {e : Interrupt} (h : x.outcome = .error e) (f : α → Run β) :
    x >>= f = ⟨x.records, .error e⟩ := by
  simp [bind_def, Run.bind, h]

instance : LawfulMonad Run := LawfulMonad.mk' Run
  (by
    intro α x
    rcases x with ⟨rs, e | a⟩ <;> rfl)
  (fun _ _ => rfl)
  (by
    intro α β γ x f g
    rcases x with ⟨rs, e | a⟩
    · rfl
    · change Run.bind (Run.bind ⟨rs, .ok a⟩ f) g =
        Run.bind ⟨rs, .ok a⟩ fun a => Run.bind (f a) g
      cases h : (f a).outcome with
      | error e => simp [Run.bind, h]
      | ok b => simp [Run.bind, h, List.append_assoc])
  (fun _ _ => rfl)
  (fun _ _ => rfl)
  (fun _ _ => rfl)
  (by
    intro α β f x
    rcases x with ⟨rs, e | a⟩
    · rfl
    · exact ext (List.append_nil rs) rfl)

end Run

end CursorParsers
