import CursorParsers.Run

/-!
# What runs leave

A condition on the records of a run, for a run that has a result and for one that a fault
interrupts. The records of a composite run are those of its parts, so such conditions are proved
part by part: what is asked of the whole has to follow from what is asked of the parts.

## Main definitions

* `Run.Leaves`: a run whose records meet a condition that depends on how it comes out

## Main results

* `Run.Leaves.bind`: the records of a composite run
* `Run.Leaves.bind_of_pure`: going on without records leaves the same
-/

namespace CursorParsers.Run

variable {α β : Type} {N K M : List Record → Prop} {B D C : Fault → List Record → Prop}

/-- A run that leaves records as `N` asks if it has a result, and as `B` asks if a fault
interrupts it. -/
def Leaves (N : List Record → Prop) (B : Fault → List Record → Prop) (x : Run α) : Prop :=
  match x.outcome with
  | .ok _ => N x.records
  | .error (.fault cause) => B cause x.records
  | .error .unfinished => True

namespace Leaves

variable {x : Run α} {f : α → Run β}

theorem of_ok {a : α} (hx : x.outcome = .ok a) (h : N x.records) : x.Leaves N B := by
  simpa [Leaves, hx] using h

theorem of_fault {cause : Fault} (hx : x.outcome = .error (.fault cause)) (h : B cause x.records) :
    x.Leaves N B := by
  simpa [Leaves, hx] using h

theorem of_unfinished (hx : x.outcome = .error .unfinished) : x.Leaves N B := by
  simp [Leaves, hx]

theorem records_of_ok (h : x.Leaves N B) {a : α} (hx : x.outcome = .ok a) : N x.records := by
  simpa [Leaves, hx] using h

theorem records_of_fault (h : x.Leaves N B) {cause : Fault}
    (hx : x.outcome = .error (.fault cause)) : B cause x.records := by
  simpa [Leaves, hx] using h

theorem mono (h : x.Leaves N B) (hN : ∀ rs, N rs → M rs)
    (hB : ∀ cause rs, B cause rs → C cause rs) : x.Leaves M C := by
  rcases ho : x.outcome with (cause | _) | a
  · exact of_fault ho (hB cause _ (h.records_of_fault ho))
  · exact of_unfinished ho
  · exact of_ok ho (hN _ (h.records_of_ok ho))

theorem pure {a : α} (h : N []) : (Pure.pure a : Run α).Leaves N B := h

/-- The records of a **composite run** are those of its first part, and after a result those of its
second part behind them. -/
theorem bind (hx : x.Leaves N B) (hf : ∀ a, x.outcome = .ok a → (f a).Leaves K D)
    (hM : ∀ rs rs', N rs → K rs' → M (rs ++ rs')) (hC : ∀ cause rs, B cause rs → C cause rs)
    (hD : ∀ cause rs rs', N rs → D cause rs' → C cause (rs ++ rs')) :
    (x >>= f).Leaves M C := by
  rcases ho : x.outcome with (cause | _) | a
  · rw [bind_of_error ho]
    exact hC cause _ (hx.records_of_fault ho)
  · rw [bind_of_error ho]
    exact of_unfinished rfl
  · have hrs := hx.records_of_ok ho
    have hfa := hf a ho
    rcases hy : (f a).outcome with (cause | _) | b
    · refine of_fault ((outcome_bind_of_ok ho f).trans hy) ?_
      rw [records_bind_of_ok ho]
      exact hD cause _ _ hrs (hfa.records_of_fault hy)
    · exact of_unfinished ((outcome_bind_of_ok ho f).trans hy)
    · refine of_ok ((outcome_bind_of_ok ho f).trans hy) ?_
      rw [records_bind_of_ok ho]
      exact hM _ _ hrs (hfa.records_of_ok hy)

/-- Going on **without records** and without a fault leaves what was left before. -/
theorem bind_of_pure (hx : x.Leaves N B) (hf : ∀ a, x.outcome = .ok a → ∃ b, f a = Pure.pure b) :
    (x >>= f).Leaves N B := by
  refine hx.bind (K := (· = [])) (D := fun _ _ => False) (fun a ha => ?_)
    (fun rs rs' hrs hrs' => ?_) (fun _ _ h => h) fun _ _ _ _ h => h.elim
  · obtain ⟨b, hb⟩ := hf a ha
    rw [hb]
    exact .pure rfl
  · rwa [hrs', List.append_nil]

theorem map (hx : x.Leaves N B) (g : α → β) : (g <$> x).Leaves N B := by
  rw [← bind_pure_comp]
  exact hx.bind_of_pure fun a _ => ⟨g a, rfl⟩

end Leaves

end CursorParsers.Run
