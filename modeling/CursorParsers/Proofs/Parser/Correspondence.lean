import Mathlib.Data.List.Forall2
import CursorParsers.Parser.Chain
import CursorParsers.Proofs.Chain.Invariant
import CursorParsers.Proofs.Repetition.Lockstep

/-!
# Parsers that correspond

Two parsers correspond if at every integer position they come out alike: with errors in relation,
or with the same next position and captured values in relation. What a step makes of parsers that
correspond corresponds again, and a repetition loses sight of much: it never looks at the error of
a failure, nor at a match that does not advance.

So a step that does no more than the relations allow can be left out of a chain.

## Main definitions

* `Reply.Corresponds`: errors in relation, or captured values in relation and the same position
* `Reply.AdvanceAlike`: answers that are the same to a repetition
* `Parser.Like`: parsers that correspond

## Main results

* `Parser.range_alike`: repetitions of parsers that advance alike
* `Parser.Like.extend_of_filter_eq`: chains that differ in steps that can be left out
-/

namespace CursorParsers

/-- Two answers that correspond: errors in relation, or the same next position and captured
values in relation. -/
inductive Reply.Corresponds (E V : Value → Value → Prop) : Reply → Reply → Prop
  | err {e e' : Value} (h : E e e') : Corresponds E V (.err e) (.err e')
  | matched {v v' : Value} (h : V v v') (n : Int) :
      Corresponds E V (.matched v (.int n)) (.matched v' (.int n))

/-- An answer that does not advance from a position. -/
inductive Reply.Stays (c : Int) : Reply → Prop
  | err (e : Value) : Stays c (.err e)
  | matched (v : Value) {n : Int} (h : n ≤ c) : Stays c (.matched v (.int n))

/-- Two answers that advance alike from a position: none of them does, or both do, to the same
position and with captured values in relation. -/
inductive Reply.AdvanceAlike (V : Value → Value → Prop) (c : Int) : Reply → Reply → Prop
  | stay {r r' : Reply} (h : r.Stays c) (h' : r'.Stays c) : AdvanceAlike V c r r'
  | advance {v v' : Value} (h : V v v') {n : Int} (hn : c < n) :
      AdvanceAlike V c (.matched v (.int n)) (.matched v' (.int n))

/-- To a repetition, answers that correspond are the same whatever the errors are. -/
theorem Reply.Corresponds.advanceAlike {E V : Value → Value → Prop} {r r' : Reply}
    (h : r.Corresponds E V r') (c : Int) : r.AdvanceAlike V c r' := by
  cases h with
  | err _ => exact .stay (.err _) (.err _)
  | @matched v v' hv n =>
    by_cases hn : c < n
    · exact .advance hv hn
    · exact .stay (.matched v (Int.not_lt.mp hn)) (.matched v' (Int.not_lt.mp hn))

namespace Parser

variable {p q : Parser} {V W : Value → Value → Prop}

/-! ### Repetitions -/

section Probes

variable {s : Stream} {max : Number} {start position : Int}

theorem probe_of_error {e : Interrupt} (h : (p.run s (.int position)).outcome = .error e)
    (hless : (Number.int (position - start)).less max) :
    (p.probe s max (.int start) (.int position)).outcome = .error e := by
  rw [probe, Value.minus_int, Run.ofExcept_ok, pure_bind, if_pos hless, Run.bind_of_error h]

/-- A probe that is answered without advancing finds no match to use. -/
theorem probe_of_stays {r : Reply} (h : (p.run s (.int position)).outcome = .ok r)
    (hr : r.Stays position) (hless : (Number.int (position - start)).less max) :
    (p.probe s max (.int start) (.int position)).outcome = .ok none := by
  have hrun := Run.eq_of_outcome h
  cases hr with
  | err e => rw [probe_of_err hrun hless]
  | matched v hn => rw [probe_of_matched hrun hless, if_neg fun hadv => Int.not_lt.mpr hn hadv.1]

/-- Probes of parsers that advance alike find the same match, or find none. -/
theorem probe_alike_of_advanceAlike (max : Number) (start : Int)
    (h : (p.run s (.int position)).Alike (Reply.AdvanceAlike V position)
      (q.run s (.int position))) :
    (p.probe s max (.int start) (.int position)).Alike
      (Option.Rel fun m m' => V m.value m'.value ∧ ∃ n, m.next = .int n ∧ m'.next = .int n)
      (q.probe s max (.int start) (.int position)) := by
  by_cases hless : (Number.int (position - start)).less max
  · obtain ⟨r, r', hp, hq, hr⟩ | ⟨e, hp, hq⟩ := h.ok_or_error
    · cases hr with
      | stay hstay hstay' =>
        exact .of_ok (probe_of_stays hp hstay hless) (probe_of_stays hq hstay' hless) .none
      | @advance v v' hv n hn =>
        rw [probe_of_matched (Run.eq_of_outcome hp) hless,
          probe_of_matched (Run.eq_of_outcome hq) hless]
        -- Whether a match is used depends on where it ends, and both end at the same position.
        split
        next => exact .of_ok rfl rfl (.some ⟨hv, n, rfl, rfl⟩)
        next => exact .of_ok rfl rfl .none
    · exact .of_error (probe_of_error hp hless) (probe_of_error hq hless)
  · rw [probe_of_not_less (Bool.eq_false_iff.mpr hless),
      probe_of_not_less (Bool.eq_false_iff.mpr hless)]
    exact .pure .none

end Probes

/-- **Repetitions** of parsers that advance alike come to the same end, and fail with the same
error if they fail. -/
theorem range_alike [Repertoire]
    (h : ∀ s c, (p.run s (.int c)).Alike (Reply.AdvanceAlike V c) (q.run s (.int c)))
    (hrounds : p.rounds = q.rounds)
    (hjoin : ∀ ms ms', List.Forall₂ (fun m m' => V m.value m'.value) ms ms' →
      W (.text (captured ms)) (.text (captured ms')))
    (b : Range) (s : Stream) (c : Int) :
    ((p.range b).run s (.int c)).Alike (Reply.Corresponds Eq W) ((q.range b).run s (.int c)) := by
  have hallow : p.allowance b s (.int c) = q.allowance b s (.int c) := by
    rw [allowance, allowance, hrounds]
  have hstart : ∃ n, Value.int c = .int n ∧ Value.int c = .int n := ⟨c, rfl, rfl⟩
  simp only [range, hallow]
  refine (advances_alike (I := fun x y => ∃ n, x = .int n ∧ y = .int n)
    (R := fun m m' => V m.value m'.value) ?_ hstart _).bind fun ms ms' hms => ?_
  · rintro _ _ ⟨n, rfl, rfl⟩
    exact probe_alike_of_advanceAlike b.max c (h s n)
  · obtain ⟨stop, hstop, hstop'⟩ := finish_rel
      (I := fun x y => ∃ n, x = .int n ∧ y = .int n) hstart (hms.imp fun _ _ hm => hm.2)
    rw [conclude_int hstop, conclude_int hstop', Run.ofExcept_ok, Run.ofExcept_ok]
    split
    next => exact .pure (.err rfl)
    next => exact .pure (.matched (hjoin ms ms' (hms.imp fun _ _ hm => hm.1)) stop)

/-- Parsers that correspond at every integer position. -/
structure Like (E V : Value → Value → Prop) (p q : Parser) : Prop where
  alike (s : Stream) (c : Int) :
    (p.run s (.int c)).Alike (Reply.Corresponds E V) (q.run s (.int c))
  rounds : p.rounds = q.rounds

namespace Like

variable {E E' : Value → Value → Prop}

theorem of_keeps [Repertoire] {F : Fault → Prop} {Q : Condition} (hp : p.Keeps F Q)
    (hE : ∀ e, E e e) (hV : ∀ v, V v v) : p.Like E V p where
  alike s c := by
    have hends := (hp.ensures s c).ends
    cases ho : (p.run s (.int c)).outcome with
    | error e => exact .of_error ho ho
    | ok r =>
      rw [ho] at hends
      refine .of_ok ho ho ?_
      cases hends with
      | err message => exact .err (hE _)
      | @matched v n _ => exact .matched (hV v) n
  rounds := rfl

theorem mono (h : p.Like E V q) (hE : ∀ e e', E e e' → E' e e') (hV : ∀ v v', V v v' → W v v') :
    p.Like E' W q where
  alike s c := (h.alike s c).mono fun r r' hr => by
    cases hr with
    | err he => exact .err (hE _ _ he)
    | matched hv n => exact .matched (hV _ _ hv) n
  rounds := h.rounds

theorem symm (h : p.Like E V q) (hE : ∀ e e', E e e' → E e' e) (hV : ∀ v v', V v v' → V v' v) :
    q.Like E V p where
  alike s c := (h.alike s c).symm fun r r' hr => by
    cases hr with
    | err he => exact .err (hE _ _ he)
    | matched hv n => exact .matched (hV _ _ hv) n
  rounds := h.rounds.symm

theorem trans {r : Parser} (h : p.Like E V q) (h' : q.Like E V r)
    (hE : ∀ e e' e'', E e e' → E e' e'' → E e e'')
    (hV : ∀ v v' v'', V v v' → V v' v'' → V v v'') : p.Like E V r where
  alike s c := (h.alike s c).trans (h'.alike s c) fun a b d hab hbd => by
    cases hab with
    | err he =>
      cases hbd with
      | err he' => exact .err (hE _ _ _ he he')
    | matched hv n =>
      cases hbd with
      | matched hv' n => exact .matched (hV _ _ _ hv hv') n
  rounds := h.rounds.trans h'.rounds

theorem outcome_eq (h : p.Like Eq Eq q) (s : Stream) (c : Int) :
    (p.run s (.int c)).outcome = (q.run s (.int c)).outcome :=
  Run.alike_eq_iff.mp <| (h.alike s c).mono fun r r' hr => by
    cases hr with
    | err he => rw [he]
    | matched hv n => rw [hv]

/-! ### Steps on both sides -/

theorem optional (h : p.Like E V q) (hnull : V .null .null) : p.optional.Like E' V q.optional where
  alike s c := by
    rw [run_optional, run_optional]
    refine (h.alike s c).bind fun r r' hr => .pure ?_
    cases hr with
    | err _ => exact .matched hnull c
    | matched hv n => exact .matched hv n
  rounds := h.rounds

theorem discard (h : p.Like E V q) (hnull : V .null .null) : p.discard.Like E V q.discard where
  alike s c := by
    rw [run_discard, run_discard]
    refine (h.alike s c).bind fun r r' hr => ?_
    cases hr with
    | err he => exact .pure (.err he)
    | matched hv n => exact .pure (.matched hnull n)
  rounds := h.rounds

theorem range [Repertoire] (h : p.Like E V q)
    (hjoin : ∀ ms ms', List.Forall₂ (fun m m' => V m.value m'.value) ms ms' →
      W (.text (captured ms)) (.text (captured ms'))) (b : Range) :
    (p.range b).Like Eq W (q.range b) where
  alike := range_alike (fun s c => (h.alike s c).mono fun _ _ hr => hr.advanceAlike c) h.rounds
    hjoin b
  rounds := h.rounds

theorem label [Repertoire] (h : p.Like E V q) (t : String)
    (hE : ∀ e e', E e e' → E (.text ("Expected " ++ t ++ ": " ++ e.display))
      (.text ("Expected " ++ t ++ ": " ++ e'.display))) :
    (p.label t).Like E V (q.label t) where
  alike s c := by
    rw [run_label, run_label]
    refine (h.alike s c).bind fun r r' hr => .pure ?_
    cases hr with
    | err he => exact .err (hE _ _ he)
    | matched hv n => exact .matched hv n
  rounds := h.rounds

theorem trace (h : p.Like E V q) (name : String) : (p.trace name).Like E V (q.trace name) where
  alike s c := by
    rw [run_trace, run_trace]
    refine Run.Alike.bind (R := fun _ _ => True) trivial fun _ _ _ => ?_
    refine (h.alike s c).bind fun r r' hr => ?_
    refine Run.Alike.bind (R := fun _ _ => True) ?_ fun _ _ _ => .pure hr
    cases hr with
    | err _ => exact trivial
    | matched _ _ => exact trivial
  rounds := h.rounds

theorem map (h : p.Like E Eq q) (f : Transform) : (p.map f).Like E Eq (q.map f) where
  alike s c := by
    rw [run_map, run_map]
    refine (h.alike s c).bind fun r r' hr => ?_
    cases hr with
    | err he => exact .pure (.err he)
    | @matched v _ hv n =>
      subst hv
      refine (Run.Alike.refl (fun _ => rfl) (Run.ofExcept (f v))).bind fun w w' hw => ?_
      exact .pure (.matched hw n)
  rounds := h.rounds

/-- A step makes parsers that correspond from parsers that do, with equal captured values. -/
theorem apply [Repertoire] (h : p.Like E Eq q) (hE : ∀ e, E e e)
    (hlabel : ∀ (t : String) e e', E e e' → E (.text ("Expected " ++ t ++ ": " ++ e.display))
      (.text ("Expected " ++ t ++ ": " ++ e'.display)))
    (step : Step) : (step.apply p).Like E Eq (step.apply q) := by
  cases step with
  | optional => exact h.optional rfl
  | discard => exact h.discard rfl
  | range b =>
    have hrange : (p.range b).Like Eq Eq (q.range b) :=
      h.range (fun _ _ hms => congrArg Value.text (captured_eq_of_forall₂ hms)) b
    exact hrange.mono (fun e _ he => he ▸ hE e) fun _ _ hv => hv
  | label t => exact h.label t (hlabel t)
  | trace name => exact h.trace name
  | map f => exact h.map f

/-! ### Steps on one side -/

theorem discard_left (h : p.Like E V q) (hnull : ∀ v v', V v v' → V .null v') :
    p.discard.Like E V q where
  alike s c := by
    rw [run_discard, ← bind_pure (q.run s (.int c))]
    refine (h.alike s c).bind fun r r' hr => ?_
    cases hr with
    | err he => exact .pure (.err he)
    | matched hv n => exact .pure (.matched (hnull _ _ hv) n)
  rounds := h.rounds

theorem label_left [Repertoire] (h : p.Like E V q) (t : String)
    (hE : ∀ e e', E e e' → E (.text ("Expected " ++ t ++ ": " ++ e.display)) e') :
    (p.label t).Like E V q where
  alike s c := by
    rw [run_label, ← bind_pure (q.run s (.int c))]
    refine (h.alike s c).bind fun r r' hr => .pure ?_
    cases hr with
    | err he => exact .err (hE _ _ he)
    | matched hv n => exact .matched hv n
  rounds := h.rounds

theorem trace_left (h : p.Like E V q) (name : String) : (p.trace name).Like E V q where
  alike s c := by
    rw [run_trace, ← pure_bind () fun _ => q.run s (.int c), ← bind_pure (q.run s (.int c))]
    refine Run.Alike.bind (R := fun _ _ => True) trivial fun _ _ _ => ?_
    refine (h.alike s c).bind fun r r' hr => ?_
    rw [← pure_bind () fun _ => (pure r' : Run Reply)]
    refine Run.Alike.bind (R := fun _ _ => True) ?_ fun _ _ _ => .pure hr
    cases hr with
    | err _ => exact trivial
    | matched _ _ => exact trivial
  rounds := h.rounds

theorem map_left (h : p.Like E V q) {f : Transform} (hf : ∀ v, ∃ w, f v = .ok w)
    (hV : ∀ v v' w, V v v' → f v = .ok w → V w v') : (p.map f).Like E V q where
  alike s c := by
    rw [run_map, ← bind_pure (q.run s (.int c))]
    refine (h.alike s c).bind fun r r' hr => ?_
    cases hr with
    | err he => exact .pure (.err he)
    | @matched v v' hv n =>
      obtain ⟨w, hw⟩ := hf v
      rw [Reply.andThen_matched, hw]
      exact .pure (.matched (hV v v' w hv hw) n)
  rounds := h.rounds

/-! ### Several steps -/

theorem extend [Repertoire] (h : p.Like E Eq q) (hE : ∀ e, E e e)
    (hlabel : ∀ (t : String) e e', E e e' → E (.text ("Expected " ++ t ++ ": " ++ e.display))
      (.text ("Expected " ++ t ++ ": " ++ e'.display)))
    (steps : List Step) : (p.extend steps).Like E Eq (q.extend steps) := by
  induction steps generalizing p q with
  | nil => exact h
  | cons step steps ih => exact ih (h.apply hE hlabel step)

/-- Steps that can be left out make no difference: if the steps to keep preserve the
correspondence on both sides and the others on one, the chain corresponds to the one that has the
kept steps only. -/
theorem extend_filter [Repertoire] {keep : Step → Bool} {steps : List Step} (h : p.Like E V q)
    (hkeep : ∀ step ∈ steps, keep step → ∀ p q : Parser, p.Like E V q →
      (step.apply p).Like E V (step.apply q))
    (hdrop : ∀ step ∈ steps, keep step = false → ∀ p q : Parser, p.Like E V q →
      (step.apply p).Like E V q) :
    (p.extend steps).Like E V (q.extend (steps.filter keep)) := by
  induction steps generalizing p q with
  | nil => exact h
  | cons step steps ih =>
    have hmore := fun {p q : Parser} (hpq : p.Like E V q) =>
      ih hpq (fun st hst => hkeep st (List.mem_cons_of_mem step hst))
        fun st hst => hdrop st (List.mem_cons_of_mem step hst)
    rw [List.filter_cons, extend_cons]
    split
    next hk =>
      rw [extend_cons]
      exact hmore (hkeep step List.mem_cons_self hk p q h)
    next hk => exact hmore (hdrop step List.mem_cons_self (Bool.eq_false_iff.mpr hk) p q h)

/-- **Chains that differ** only in steps that can be left out correspond. -/
theorem extend_of_filter_eq [Repertoire] (hE : Equivalence E) (hV : Equivalence V)
    {keep : Step → Bool} {steps steps' : List Step} (h : p.Like E V p) (heq : steps.filter keep = steps'.filter keep)
    (hkeep : ∀ step ∈ steps ++ steps', keep step → ∀ p q : Parser, p.Like E V q →
      (step.apply p).Like E V (step.apply q))
    (hdrop : ∀ step ∈ steps ++ steps', keep step = false → ∀ p q : Parser, p.Like E V q →
      (step.apply p).Like E V q) :
    (p.extend steps).Like E V (p.extend steps') := by
  have hleft := h.extend_filter
    (fun st hst => hkeep st (List.mem_append_left steps' hst))
    fun st hst => hdrop st (List.mem_append_left steps' hst)
  have hright := h.extend_filter
    (fun st hst => hkeep st (List.mem_append_right steps hst))
    fun st hst => hdrop st (List.mem_append_right steps hst)
  -- Both correspond to the chain that has the kept steps only.
  rw [heq] at hleft
  exact hleft.trans (hright.symm (fun _ _ => hE.symm) fun _ _ => hV.symm)
    (fun _ _ _ => hE.trans) fun _ _ _ => hV.trans

end Like

end Parser

end CursorParsers
