import CursorParsers.Run

/-!
# Runs that come out alike

Two runs come out alike when the same cause interrupts them, or when neither is interrupted and
their results are in relation. What records they leave does not matter.

## Main definitions

* `Run.Alike`: runs whose outcomes correspond

## Main results

* `Run.Alike.bind`: composite runs come out alike if their parts do
* `Run.alike_eq_iff`: runs that come out alike with equal results have the same outcome
-/

namespace CursorParsers.Run

variable {α β γ δ : Type} {R : α → β → Prop} {S : γ → δ → Prop}

theorem eq_of_outcome {x : Run α} {o : Except Interrupt α} (h : x.outcome = o) :
    x = ⟨x.records, o⟩ := h ▸ rfl

/-- Two runs that come out alike: the same interruption, or results in relation. -/
def Alike (R : α → β → Prop) (x : Run α) (y : Run β) : Prop :=
  match x.outcome, y.outcome with
  | .ok a, .ok b => R a b
  | .error e, .error e' => e = e'
  | _, _ => False

namespace Alike

theorem of_ok {x : Run α} {y : Run β} {a : α} {b : β} (hx : x.outcome = .ok a)
    (hy : y.outcome = .ok b) (h : R a b) : x.Alike R y := by
  simpa [Alike, hx, hy] using h

theorem of_error {x : Run α} {y : Run β} {e : Interrupt} (hx : x.outcome = .error e)
    (hy : y.outcome = .error e) : x.Alike R y := by
  simp [Alike, hx, hy]

theorem pure {a : α} {b : β} (h : R a b) : Alike R (Pure.pure a) (Pure.pure b) := h

theorem ok_or_error {x : Run α} {y : Run β} (h : x.Alike R y) :
    (∃ a b, x.outcome = .ok a ∧ y.outcome = .ok b ∧ R a b) ∨
      ∃ e, x.outcome = .error e ∧ y.outcome = .error e := by
  unfold Alike at h
  split at h
  next a b hx hy => exact .inl ⟨a, b, hx, hy, h⟩
  next e e' hx hy => exact .inr ⟨e, hx, h ▸ hy⟩
  next => exact h.elim

theorem mono {R' : α → β → Prop} {x : Run α} {y : Run β} (h : x.Alike R y)
    (hR : ∀ a b, R a b → R' a b) : x.Alike R' y := by
  obtain ⟨a, b, hx, hy, hab⟩ | ⟨e, hx, hy⟩ := h.ok_or_error
  · exact of_ok hx hy (hR a b hab)
  · exact of_error hx hy

theorem symm {R' : β → α → Prop} {x : Run α} {y : Run β} (h : x.Alike R y)
    (hR : ∀ a b, R a b → R' b a) : y.Alike R' x := by
  obtain ⟨a, b, hx, hy, hab⟩ | ⟨e, hx, hy⟩ := h.ok_or_error
  · exact of_ok hy hx (hR a b hab)
  · exact of_error hy hx

theorem trans {T : β → γ → Prop} {U : α → γ → Prop} {x : Run α} {y : Run β} {z : Run γ}
    (h : x.Alike R y) (h' : y.Alike T z) (hU : ∀ a b c, R a b → T b c → U a c) :
    x.Alike U z := by
  obtain ⟨a, b, hx, hy, hab⟩ | ⟨e, hx, hy⟩ := h.ok_or_error
  · obtain ⟨b', c, hy', hz, hbc⟩ | ⟨e, hy', -⟩ := h'.ok_or_error
    · obtain rfl := Except.ok.inj (hy.symm.trans hy')
      exact of_ok hx hz (hU a b c hab hbc)
    · rw [hy] at hy'
      cases hy'
  · obtain ⟨b, c, hy', -, -⟩ | ⟨e', hy', hz⟩ := h'.ok_or_error
    · rw [hy] at hy'
      cases hy'
    · obtain rfl := Except.error.inj (hy.symm.trans hy')
      exact of_error hx hz

theorem refl {R : α → α → Prop} (hR : ∀ a, R a a) (x : Run α) : x.Alike R x := by
  cases hx : x.outcome with
  | ok a => exact of_ok hx hx (hR a)
  | error e => exact of_error hx hx

/-- Runs that go on alike after results in relation come out **alike as a whole**. -/
theorem bind {x : Run α} {y : Run β} {f : α → Run γ} {g : β → Run δ} (h : x.Alike R y)
    (hfg : ∀ a b, R a b → (f a).Alike S (g b)) : (x >>= f).Alike S (y >>= g) := by
  obtain ⟨a, b, hx, hy, hab⟩ | ⟨e, hx, hy⟩ := h.ok_or_error
  -- Both go on, or both are interrupted for the same cause.
  · have hz := hfg a b hab
    simpa only [Alike, outcome_bind_of_ok hx, outcome_bind_of_ok hy] using hz
  · exact of_error (by rw [bind_of_error hx]) (by rw [bind_of_error hy])

theorem map {x : Run α} {y : Run β} {f : α → γ} {g : β → δ} (h : x.Alike R y)
    (hfg : ∀ a b, R a b → S (f a) (g b)) : (f <$> x).Alike S (g <$> y) := by
  rw [← bind_pure_comp, ← bind_pure_comp]
  exact h.bind fun a b hab => .pure (hfg a b hab)

end Alike

/-- Two runs that come out alike **with equal results** have the same outcome. -/
theorem alike_eq_iff {x y : Run α} : x.Alike Eq y ↔ x.outcome = y.outcome := by
  constructor
  · intro h
    obtain ⟨a, b, hx, hy, rfl⟩ | ⟨e, hx, hy⟩ := h.ok_or_error
    · rw [hx, hy]
    · rw [hx, hy]
  · intro h
    cases hx : x.outcome with
    | ok a => exact .of_ok hx (h ▸ hx) rfl
    | error e => exact .of_error hx (h ▸ hx)

end CursorParsers.Run
