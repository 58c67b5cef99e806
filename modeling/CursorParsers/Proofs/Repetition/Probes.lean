import Mathlib.Data.List.Chain
import CursorParsers.Parser.Scripted
import CursorParsers.Proofs.Range.Whole
import CursorParsers.Proofs.Repetition.Invocations
import CursorParsers.Proofs.Repetition.Succession

/-!
# The probes of a repetition

A repetition runs its parser at every position that it comes to, except that it stops without
running it where the maximum is reached. So the parser may be run once more than there are matches
used: the last answer is a failure, or a match that is dropped. Nothing of a dropped match is left
in the answer of the repetition, but it is seen in the records of a traced parser, and by a function
that transforms captured values.

## Main definitions

* `Parser.reached`, `Parser.probed`: the positions that a repetition comes to, and those where it
  runs its parser
* `Parser.Reported`: the record of how a parser comes out at a position
* `Parser.Passes`, `Parser.Raises`: what becomes of a captured value that is transformed

## Main results

* `Parser.Repeats.congr`: a parser that comes out the same at the probes has the same course
* `Parser.Repeats.exists_map`, `Parser.Repeats.outcome_map_of_raises`: transforming what is captured
* `Parser.range_probes`: the probes, what is recorded of them, and when a transformation raises
-/

namespace CursorParsers.Parser

variable {p q : Parser} {s : Stream} {max : Number} {start x y : Value} {m : Match}
  {ms ms' : List Match} {rs : List Record} {found : Option Match} {f : Transform} {cause : Fault}
  {k : ℕ}

/-! ### How a parser comes out -/

/-- The record of how a parser comes out at a position. -/
inductive Reported (p : Parser) (s : Stream) (name : String) (x : Value) : Record → Prop
  | failed {e : Value} (h : (p.run s x).outcome = .ok (.err e)) :
      Reported p s name x (.failed name x e)
  | matched {m : Match} (h : p.Matches s x m) :
      Reported p s name x (.matched name m.value m.next)

/-- A transformation passes at a position if it has a value for what is captured there, if the
parser matches at all. -/
def Passes (p : Parser) (f : Transform) (s : Stream) (x : Value) : Prop :=
  ∀ m, p.Matches s x m → ∃ w, f m.value = .ok w

/-- A transformation raises at a position if it ends in a fault for what is captured there. -/
def Raises (p : Parser) (f : Transform) (s : Stream) (x : Value) (cause : Fault) : Prop :=
  ∃ m, p.Matches s x m ∧ f m.value = .error cause

theorem andThen_of_split_ok {payload v n : Value} (h : payload.split = .ok (v, n))
    (next : Value → Value → Run Reply) : (Reply.ok payload).andThen next = next v n := by
  rw [Reply.andThen, h]
  rfl

theorem report_of_split_ok {payload v n : Value} (h : payload.split = .ok (v, n)) (name : String)
    (x : Value) : report name x (.ok payload) = Run.log (.matched name v n) := by
  rw [report, h]
  rfl

theorem run_trace_of_report {name : String} {record : Record} {r : Reply}
    (h : (p.run s x).outcome = .ok r) (hreport : report name x r = Run.log record) :
    (p.trace name).run s x =
      ⟨.entered name x :: ((p.run s x).records ++ [record]), .ok r⟩ := by
  have hinner : (p.run s x >>= fun r => report name x r >>= fun _ => pure r) =
      p.run s x >>= fun r => Run.log record >>= fun _ => pure r :=
    Run.bind_congr_of_ok h (by rw [hreport])
  rw [run_trace, hinner, Run.eq_of_outcome h]
  rfl

/-- A traced parser leaves a record before those of the parser and one behind them, and comes
out the same. -/
theorem Reported.run_trace {name : String} {record : Record} (h : p.Reported s name x record) :
    (p.trace name).run s x =
      ⟨.entered name x :: ((p.run s x).records ++ [record]), (p.run s x).outcome⟩ := by
  cases h with
  | failed he => rw [run_trace_of_report he rfl, he]
  | matched hm =>
    obtain ⟨payload, hr, hsplit⟩ := hm
    rw [run_trace_of_report hr (report_of_split_ok hsplit name x), hr]

theorem outcome_map_of_err {e : Value} (h : (p.run s x).outcome = .ok (.err e)) (f : Transform) :
    ((p.map f).run s x).outcome = .ok (.err e) := by
  rw [run_map, Run.outcome_bind_of_ok h]
  rfl

theorem Matches.outcome_map (h : p.Matches s x m) {w : Value} (hf : f m.value = .ok w) :
    ((p.map f).run s x).outcome = .ok (.matched w m.next) := by
  obtain ⟨payload, hr, hsplit⟩ := h
  rw [run_map, Run.outcome_bind_of_ok hr, andThen_of_split_ok hsplit, hf]
  rfl

theorem Raises.outcome_map (h : p.Raises f s x cause) :
    ((p.map f).run s x).outcome = .error (.fault cause) := by
  obtain ⟨m, ⟨payload, hr, hsplit⟩, hf⟩ := h
  rw [run_map, Run.outcome_bind_of_ok hr, andThen_of_split_ok hsplit, hf]
  rfl

/-! ### One probe -/

/-- Below the maximum, a probe that comes to a decision is one of a failure, or one of a match
that is used or dropped. -/
theorem cases_of_probe (hbelow : below max start x)
    (h : (p.probe s max start x).outcome = .ok found) :
    (∃ e, (p.run s x).outcome = .ok (.err e) ∧ found = none) ∨
      ∃ m, p.Matches s x m ∧ accept max start x m = .ok found := by
  rw [probe_of_below hbelow] at h
  obtain ⟨r, hr, hfound⟩ := Run.exists_of_outcome_bind h
  cases r with
  | err e => exact .inl ⟨e, hr, (Except.ok.inj hfound).symm⟩
  | ok payload =>
    have haccept := Run.eq_ok_of_outcome_ofExcept hfound
    cases hsplit : payload.split with
    | error cause => simp [hsplit, bind, Except.bind] at haccept
    | ok parts =>
      rw [hsplit] at haccept
      exact .inr ⟨⟨parts.1, parts.2⟩, ⟨payload, hr, hsplit⟩, haccept⟩

theorem below_of_probe_eq_some (h : (p.probe s max start x).outcome = .ok (some m)) :
    below max start x := by
  obtain ⟨⟨consumed, hconsumed, hless⟩, -⟩ := probe_eq_some_iff.mp h
  rw [below, hconsumed]
  exact hless

/-- Whether a match is used does not depend on what it captured. -/
theorem accept_of_value (h : accept max start x m = .ok found) (w : Value) :
    accept max start x ⟨w, m.next⟩ = .ok (found.map fun m => ⟨w, m.next⟩) := by
  have hvalue : accept max start x ⟨w, m.next⟩ =
      (accept max start x m).map (Option.map fun m => ⟨w, m.next⟩) := by
    rw [accept, accept]
    cases m.next.lessEq x with
    | error cause => rfl
    | ok stays =>
      cases stays with
      | true => rfl
      | false =>
        cases m.next.minus start with
        | error cause => rfl
        | ok d =>
          simp only [Bool.false_eq_true, if_false, bind, Except.bind]
          cases max.less d with
          | true => rfl
          | false => rfl
  rw [hvalue, h]
  rfl

/-- Where a transformation passes, the transformed parser advances to the same position. -/
theorem exists_probe_map (h : (p.probe s max start x).outcome = .ok found)
    (hf : below max start x → p.Passes f s x) :
    ∃ found', ((p.map f).probe s max start x).outcome = .ok found' ∧
      found'.map Match.next = found.map Match.next := by
  by_cases hbelow : below max start x
  · rw [probe_of_below hbelow]
    rcases cases_of_probe hbelow h with ⟨e, he, rfl⟩ | ⟨m, hm, haccept⟩
    · exact ⟨none, by rw [Run.outcome_bind_of_ok (outcome_map_of_err he f)]; rfl, rfl⟩
    · obtain ⟨w, hw⟩ := hf hbelow m hm
      refine ⟨found.map fun m => ⟨w, m.next⟩, ?_, by rw [Option.map_map]; rfl⟩
      rw [Run.outcome_bind_of_ok (hm.outcome_map hw)]
      exact congrArg (fun x => (Run.ofExcept x).outcome) (accept_of_value haccept w)
  · have hnot := Bool.eq_false_iff.mpr hbelow
    refine ⟨found, ?_, rfl⟩
    rw [← h, probe_of_not_below hnot, probe_of_not_below hnot]

theorem Raises.outcome_probe_map (h : p.Raises f s x cause) (hbelow : below max start x) :
    ((p.map f).probe s max start x).outcome = .error (.fault cause) := by
  rw [probe_of_below hbelow, Run.bind_of_error h.outcome_map]

/-! ### All probes -/

/-- The positions that a repetition comes to: where it starts, and where each of its matches
ends. -/
def reached (position : Value) (ms : List Match) : List Value := position :: ms.map Match.next

/-- The positions where a repetition runs its parser: every one that it comes to, except that
the last has to be below the maximum. -/
def probed (max : Number) (start position : Value) (ms : List Match) : List Value :=
  (reached position ms).dropLast ++
    if below max start (finish position ms) then [finish position ms] else []

@[simp] theorem probed_nil (max : Number) (start position : Value) :
    probed max start position [] = if below max start position then [position] else [] := rfl

@[simp] theorem probed_cons (max : Number) (start position : Value) (m : Match) (ms : List Match) :
    probed max start position (m :: ms) = position :: probed max start m.next ms := by
  rw [probed, finish_cons, reached, List.map_cons,
    List.dropLast_cons_of_ne_nil (List.cons_ne_nil _ _)]
  rfl

theorem probed_eq_nil_or_cons (max : Number) (start position : Value) (ms : List Match) :
    probed max start position ms = [] ∨
      ∃ rest, probed max start position ms = position :: rest := by
  cases ms with
  | nil =>
    rw [probed_nil]
    split
    next => exact .inr ⟨[], rfl⟩
    next => exact .inl rfl
  | cons m ms => exact .inr ⟨_, probed_cons max start position m ms⟩

namespace Repeats

theorem successive (h : p.Repeats s max start x ms rs) : p.Successive s x ms (finish x ms) := by
  induction h with
  | stop _ => exact .nil _
  | more h _ ih =>
    obtain ⟨-, hm, -⟩ := probe_eq_some_iff.mp (congrArg Run.outcome h)
    rw [finish_cons]
    exact .cons hm ih

/-- A parser that comes out **the same at the probes** has the same course, with records of its
own. -/
theorem congr (h : p.Repeats s max start x ms rs)
    (hq : ∀ y ∈ probed max start x ms, (q.run s y).outcome = (p.run s y).outcome) :
    q.Repeats s max start x ms ((probed max start x ms).flatMap fun y => (q.run s y).records) := by
  induction h with
  | @stop x rs h =>
    have hprobe : (q.probe s max start x).outcome = .ok none := by
      refine (outcome_probe_congr fun hbelow => hq x ?_).trans (congrArg Run.outcome h)
      rw [probed_nil, if_pos hbelow]
      exact List.mem_singleton_self x
    have hrecords : (probed max start x []).flatMap (fun y => (q.run s y).records) =
        (q.probe s max start x).records := by
      rw [probed_nil, records_probe]
      split
      next => exact List.flatMap_singleton ..
      next => rfl
    rw [hrecords]
    exact .stop (Run.eq_of_outcome hprobe)
  | @more x m ms rs rs' h _ ih =>
    have hfound := congrArg Run.outcome h
    rw [probed_cons] at hq ⊢
    have hprobe : (q.probe s max start x).outcome = .ok (some m) :=
      (outcome_probe_congr fun _ => hq x List.mem_cons_self).trans hfound
    have hrecords : (q.run s x).records = (q.probe s max start x).records := by
      rw [records_probe, if_pos (below_of_probe_eq_some hfound)]
    rw [List.flatMap_cons, hrecords]
    exact .more (Run.eq_of_outcome hprobe) (ih fun y hy => hq y (List.mem_cons_of_mem x hy))

/-- At every probe the parser comes out in a way that can be recorded. -/
theorem exists_reported (h : p.Repeats s max start x ms rs) (name : String) :
    ∀ y ∈ probed max start x ms, ∃ record, p.Reported s name y record := by
  have hreported {x : Value} {found : Option Match} (hbelow : Parser.below max start x)
      (hprobe : (p.probe s max start x).outcome = .ok found) :
      ∃ record, p.Reported s name x record := by
    rcases cases_of_probe hbelow hprobe with ⟨e, he, -⟩ | ⟨m, hm, -⟩
    · exact ⟨_, .failed he⟩
    · exact ⟨_, .matched hm⟩
  induction h with
  | @stop x rs h =>
    rw [probed_nil]
    split
    next hbelow =>
      rw [List.forall_mem_singleton]
      exact hreported hbelow (congrArg Run.outcome h)
    next => exact fun y hy => absurd hy List.not_mem_nil
  | @more x m ms rs rs' h _ ih =>
    have hfound := congrArg Run.outcome h
    rw [probed_cons, List.forall_mem_cons]
    exact ⟨hreported (below_of_probe_eq_some hfound) hfound, ih⟩

/-- From every probe but the last, the match leads to the next one. -/
theorem isChain_probed (h : p.Repeats s max start x ms rs) :
    (probed max start x ms).IsChain fun y z => ∃ v, p.Matches s y ⟨v, z⟩ := by
  induction h with
  | stop _ =>
    rw [probed_nil]
    split
    next => exact .singleton _
    next => exact .nil
  | @more x m ms rs rs' h _ ih =>
    obtain ⟨-, hm, -⟩ := probe_eq_some_iff.mp (congrArg Run.outcome h)
    rw [probed_cons, List.isChain_cons_iff]
    rcases probed_eq_nil_or_cons max start m.next ms with hnil | ⟨rest, hrest⟩
    · exact .inl hnil
    · exact .inr ⟨m.next, rest, ⟨m.value, hm.matches⟩, hrest ▸ ih, hrest⟩

/-! ### Transforming what is captured -/

/-- A transformation that **passes at every probe** changes nothing of where the matches end. -/
theorem exists_map (h : p.Repeats s max start x ms rs)
    (hf : ∀ y ∈ probed max start x ms, p.Passes f s y) :
    ∃ ms' rs', (p.map f).Repeats s max start x ms' rs' ∧
      ms'.map Match.next = ms.map Match.next := by
  induction h with
  | @stop x rs h =>
    obtain ⟨found, hfound, hnext⟩ := exists_probe_map (f := f) (congrArg Run.outcome h)
      fun hbelow => hf x (by rw [probed_nil, if_pos hbelow]; exact List.mem_singleton_self x)
    obtain rfl := Option.map_eq_none_iff.mp hnext
    exact ⟨[], _, .stop (Run.eq_of_outcome hfound), rfl⟩
  | @more x m ms rs rs' h _ ih =>
    rw [probed_cons, List.forall_mem_cons] at hf
    obtain ⟨found, hfound, hnext⟩ := exists_probe_map (f := f) (congrArg Run.outcome h)
      fun _ => hf.1
    obtain ⟨m', rfl, hm'⟩ := Option.map_eq_some_iff.mp hnext
    obtain ⟨ms', rs'', hms', hnexts⟩ := ih hf.2
    have hrepeats := Repeats.more (Run.eq_of_outcome hfound) (hm' ▸ hms')
    exact ⟨m' :: ms', _, hrepeats, congrArg₂ List.cons hm' hnexts⟩

/-- A transformation that **raises** at one probe and passes at those before it interrupts the
repetition. -/
theorem outcome_map_of_raises (h : p.Repeats s max start x ms rs) {before after : List Value}
    (hsplit : probed max start x ms = before ++ y :: after)
    (hbefore : ∀ z ∈ before, p.Passes f s z) (hraises : p.Raises f s y cause)
    (hk : ms.length ≤ k) :
    ((p.map f).advances s max start k x).outcome = .error (.fault cause) := by
  induction h generalizing before k with
  | @stop x rs h =>
    rw [probed_nil] at hsplit
    split at hsplit
    next hbelow =>
      obtain ⟨rfl, rfl, rfl⟩ : before = [] ∧ y = x ∧ after = [] := by
        simpa [List.singleton_eq_append_iff] using hsplit
      rw [advances_of_probe_error (hraises.outcome_probe_map hbelow)]
    next => simp at hsplit
  | @more x m ms rs rs' h _ ih =>
    have hfound := congrArg Run.outcome h
    have hbelow := below_of_probe_eq_some hfound
    rw [probed_cons] at hsplit
    cases before with
    | nil =>
      obtain ⟨rfl, -⟩ := List.cons.inj hsplit
      rw [advances_of_probe_error (hraises.outcome_probe_map hbelow)]
    | cons z before =>
      obtain ⟨rfl, hrest⟩ := List.cons.inj hsplit
      rw [List.forall_mem_cons] at hbefore
      obtain ⟨found, hfound', hnext⟩ := exists_probe_map (f := f) hfound fun _ => hbefore.1
      obtain ⟨m', rfl, hm'⟩ := Option.map_eq_some_iff.mp hnext
      obtain ⟨k, rfl⟩ : ∃ l, k = l + 1 := ⟨k - 1, by rw [List.length_cons] at hk; omega⟩
      have hend := ih hrest hbefore.2 (Nat.le_of_succ_le_succ hk)
      rw [advances_succ_of_probe_some hfound', Run.outcome_bind_of_ok hfound', Run.outcome_map, hm',
        hend]
      rfl

end Repeats

/-- Whether a repetition can conclude only depends on where its matches end. -/
theorem exists_conclude [Repertoire] {min : Number} {r : Reply} (h : conclude min start ms = .ok r)
    (hnext : ms'.map Match.next = ms.map Match.next) :
    ∃ r', conclude min start ms' = .ok r' := by
  have hfinish : finish start ms' = finish start ms := by
    rw [finish, finish, ← List.getLast?_map, ← List.getLast?_map, hnext]
  rw [conclude] at h ⊢
  rw [hfinish]
  cases hd : (finish start ms).minus start with
  | error cause =>
    rw [hd] at h
    cases h
  | ok consumed =>
    by_cases hless : consumed.less min
    · exact ⟨_, if_pos hless⟩
    · exact ⟨_, if_neg hless⟩

/-- Where a transformation does not pass at every position, there is a first one at which it
raises. -/
theorem exists_first_raises {positions : List Value} (h : ¬ ∀ x ∈ positions, p.Passes f s x) :
    ∃ before x after, positions = before ++ x :: after ∧ (∀ y ∈ before, p.Passes f s y) ∧
      ∃ cause, p.Raises f s x cause := by
  induction positions with
  | nil => exact absurd (fun _ hx => absurd hx List.not_mem_nil) h
  | cons x positions ih =>
    by_cases hx : p.Passes f s x
    · obtain ⟨before, y, after, rfl, hbefore, hraises⟩ := ih fun hall =>
        h (List.forall_mem_cons.mpr ⟨hx, hall⟩)
      exact ⟨x :: before, y, after, rfl, List.forall_mem_cons.mpr ⟨hx, hbefore⟩, hraises⟩
    · simp only [Passes, not_forall] at hx
      obtain ⟨m, hm, hf⟩ := hx
      refine ⟨[], x, positions, rfl, fun _ hy => absurd hy List.not_mem_nil, ?_⟩
      cases hv : f m.value with
      | ok w => exact absurd ⟨w, hv⟩ hf
      | error cause => exact ⟨cause, m, hm, hv⟩

/-! ### Integer positions -/

namespace Answers

variable {b : Range} {c : Int}

/-- Between integers, the positions that a repetition comes to lie one behind the other. -/
theorem exists_isChain (hp : p.Answers s) (h : p.Successive s (.int c) ms x) :
    ∃ cs : List Int, ms.map Match.next = cs.map Value.int ∧ (c :: cs).IsChain (· < ·) := by
  induction ms generalizing c with
  | nil => exact ⟨[], rfl, .singleton c⟩
  | cons m ms ih =>
    rcases h with _ | ⟨hm, hrest⟩
    obtain ⟨n, hn, hlt⟩ := hp.exists_int hm
    obtain ⟨cs, hcs, hchain⟩ := ih (hn ▸ hrest)
    exact ⟨n :: cs, by rw [List.map_cons, List.map_cons, hn, hcs], .cons_cons hlt hchain⟩

theorem exists_outcome_advances (hp : p.Answers s) {d : Int}
    (h : (p.advances s max (.int c) k (.int d)).Finishes) :
    ∃ ms, (p.advances s max (.int c) k (.int d)).outcome = .ok ms := by
  induction k generalizing d with
  | zero =>
    obtain ⟨_ | m, hfound⟩ := hp.probe_outcome max c d
    · exact ⟨[], by rw [advances_of_probe_none hfound]⟩
    · exact absurd (advances_zero_of_probe_some hfound) h
  | succ k ih =>
    obtain ⟨_ | m, hfound⟩ := hp.probe_outcome max c d
    · exact ⟨[], by rw [advances_of_probe_none hfound]⟩
    · obtain ⟨-, hm, -⟩ := probe_eq_some_iff.mp hfound
      obtain ⟨n, hn, -⟩ := hp.exists_int hm
      rw [Run.Finishes, advances_succ_of_probe_some hfound, Run.outcome_bind_of_ok hfound,
        Run.outcome_map, hn] at h
      obtain ⟨ms, hms⟩ := ih (d := n) fun hu => h (by rw [hu]; rfl)
      refine ⟨m :: ms, ?_⟩
      rw [advances_succ_of_probe_some hfound, Run.outcome_bind_of_ok hfound, Run.outcome_map, hn,
        hms]
      rfl

/-- A repetition that comes to an end between integers has an answer. -/
theorem exists_outcome_range [Repertoire] (hp : p.Answers s)
    (h : ((p.range b).run s (.int c)).Finishes) :
    ∃ r, ((p.range b).run s (.int c)).outcome = .ok r := by
  have hfinishes : (p.advances s b.max (.int c) (p.allowance b s (.int c)) (.int c)).Finishes :=
    fun hu => h (congrArg Run.outcome (Run.bind_of_error hu _))
  obtain ⟨ms, hms⟩ := hp.exists_outcome_advances hfinishes
  obtain ⟨rs, hrepeats⟩ := exists_repeats_of_advances hms
  obtain ⟨j, hend⟩ := hp.exists_eq_add hrepeats.successive
  have hrun : ((p.range b).run s (.int c)).outcome =
      (Run.ofExcept (conclude b.min (.int c) ms)).outcome := Run.outcome_bind_of_ok hms _
  rw [hrun, conclude_int hend]
  exact ⟨_, rfl⟩

end Answers

/-! ### The repetition -/

namespace Repeats

variable {b : Range} {r : Reply}

/-- The records of a repetition are those of its probes, of any parser that comes out the same
there. -/
theorem records_range [Repertoire] (h : p.Repeats s b.max start start ms rs)
    (hk : ms.length ≤ q.allowance b s start)
    (hq : ∀ y ∈ probed b.max start start ms, (q.run s y).outcome = (p.run s y).outcome) :
    ((q.range b).run s start).records =
      (probed b.max start start ms).flatMap fun y => (q.run s y).records := by
  rw [(h.congr hq).run_range_of_le hk, Run.records_bind_of_forall fun _ => Run.records_ofExcept _]

theorem exists_outcome_range_map [Repertoire] (h : p.Repeats s b.max start start ms rs)
    (hk : ms.length ≤ p.allowance b s start) (hconclude : conclude b.min start ms = .ok r)
    (hf : ∀ y ∈ probed b.max start start ms, p.Passes f s y) :
    ∃ r', (((p.map f).range b).run s start).outcome = .ok r' := by
  obtain ⟨ms', rs', hms', hnext⟩ := h.exists_map hf
  obtain ⟨r', hr'⟩ := exists_conclude hconclude hnext
  have hlength : ms'.length ≤ (p.map f).allowance b s start := by
    rw [← List.length_map, hnext, List.length_map]
    exact hk
  refine ⟨r', ?_⟩
  rw [hms'.run_range_of_le hlength, Run.outcome_bind_of_ok rfl, hr']
  rfl

/-- A repetition of a transformed parser answers if the transformation passes at every probe.
Otherwise it ends in the fault that is raised at the first of the others. -/
theorem outcome_range_map_iff [Repertoire] (h : p.Repeats s b.max start start ms rs)
    (hk : ms.length ≤ p.allowance b s start) (hconclude : conclude b.min start ms = .ok r)
    (f : Transform) :
    ((∃ r', (((p.map f).range b).run s start).outcome = .ok r') ↔
      ∀ x ∈ probed b.max start start ms, p.Passes f s x) ∧
    ∀ cause, (((p.map f).range b).run s start).outcome = .error (.fault cause) ↔
      ∃ before x after, probed b.max start start ms = before ++ x :: after ∧
        (∀ y ∈ before, p.Passes f s y) ∧ p.Raises f s x cause := by
  have hraise (cause : Fault) :
      (∃ before x after, probed b.max start start ms = before ++ x :: after ∧
        (∀ y ∈ before, p.Passes f s y) ∧ p.Raises f s x cause) →
      (((p.map f).range b).run s start).outcome = .error (.fault cause) := by
    rintro ⟨before, x, after, hsplit, hbefore, hraises⟩
    have hend := h.outcome_map_of_raises hsplit hbefore hraises hk
    exact congrArg Run.outcome (Run.bind_of_error hend _)
  by_cases hall : ∀ x ∈ probed b.max start start ms, p.Passes f s x
  · obtain ⟨r', hr'⟩ := h.exists_outcome_range_map hk hconclude hall
    refine ⟨iff_of_true ⟨r', hr'⟩ hall, fun cause => ⟨fun hcause => ?_, hraise cause⟩⟩
    rw [hr'] at hcause
    cases hcause
  · obtain ⟨before, x, after, hsplit, hbefore, cause, hraises⟩ := exists_first_raises hall
    have hend := hraise cause ⟨before, x, after, hsplit, hbefore, hraises⟩
    refine ⟨iff_of_false ?_ hall, fun cause' => ⟨fun hcause => ?_, hraise cause'⟩⟩
    · rintro ⟨r', hr'⟩
      rw [hend] at hr'
      cases hr'
    · rw [hend] at hcause
      cases hcause
      exact ⟨before, x, after, hsplit, hbefore, hraises⟩

end Repeats

/-- **The probes of a repetition.**

A repetition runs its parser at every position that it comes to, in this order and once at each, but
at the last one only if the maximum is not reached there. It runs it nowhere else. A tallied parser
leaves a record for each of these runs.

A traced parser leaves two for each, the position where it is run and how it comes out there, with
its own records between them. The next position in the second one is that of the following run.

A transformation of what is captured is applied to the matches of all these runs, also to the match
of the last run if it is dropped. If it raises at some of them, the repetition ends in the fault of
the first, and otherwise it answers.

All this is said of a repetition that answers. One that comes to an end does, if its parser answers
with integers. -/
theorem range_probes [Repertoire] (p : Parser) (b : Range) (s : Stream) (c : Int) :
    (p.Answers s → ((p.range b).run s (.int c)).Finishes →
      ∃ r, ((p.range b).run s (.int c)).outcome = .ok r) ∧
    ∀ r, ((p.range b).run s (.int c)).outcome = .ok r →
      ∃ ms probes,
        (p.advances s b.max (.int c) (p.allowance b s (.int c)) (.int c)).outcome = .ok ms ∧
        conclude b.min (.int c) ms = .ok r ∧
        p.Successive s (.int c) ms (finish (.int c) ms) ∧
        (p.Answers s →
          ∃ cs : List Int, ms.map Match.next = cs.map Value.int ∧ (c :: cs).IsChain (· < ·)) ∧
        probes = (reached (.int c) ms).dropLast ++
          (if below b.max (.int c) (finish (.int c) ms) then [finish (.int c) ms] else []) ∧
        ((p.tallied.range b).run s (.int c)).records = probes.map (Record.entered "") ∧
        (∀ name, (((p.trace name).range b).run s (.int c)).records =
            probes.flatMap (fun x => ((p.trace name).run s x).records) ∧
          ∀ x ∈ probes, ∃ record, p.Reported s name x record ∧
            ((p.trace name).run s x).records =
              .entered name x :: ((p.run s x).records ++ [record])) ∧
        probes.IsChain (fun x y => ∃ v, p.Matches s x ⟨v, y⟩) ∧
        ∀ f : Transform,
          ((∃ r', (((p.map f).range b).run s (.int c)).outcome = .ok r') ↔
            ∀ x ∈ probes, p.Passes f s x) ∧
          ∀ cause, (((p.map f).range b).run s (.int c)).outcome = .error (.fault cause) ↔
            ∃ before x after, probes = before ++ x :: after ∧
              (∀ y ∈ before, p.Passes f s y) ∧ p.Raises f s x cause := by
  refine ⟨fun hp h => hp.exists_outcome_range h, fun r hr => ?_⟩
  obtain ⟨ms, hms, hconclude⟩ := Run.exists_of_outcome_bind hr
  have hconclude := Run.eq_ok_of_outcome_ofExcept hconclude
  obtain ⟨rs, h⟩ := exists_repeats_of_advances hms
  have hlength : ms.length ≤ p.allowance b s (.int c) := h.length_le (by rw [hms]; exact nofun)
  refine ⟨ms, probed b.max (.int c) (.int c) ms, hms, hconclude, h.successive,
    fun hp => hp.exists_isChain h.successive, rfl, ?_, fun name => ⟨?_, fun x hx => ?_⟩,
    h.isChain_probed, fun f => ?_⟩
  · have hrecords := h.records_range (q := p.tallied) hlength fun _ _ => rfl
    exact hrecords.trans List.map_eq_flatMap.symm
  · refine h.records_range hlength fun x hx => ?_
    obtain ⟨record, hrecord⟩ := h.exists_reported name x hx
    rw [hrecord.run_trace]
  · obtain ⟨record, hrecord⟩ := h.exists_reported name x hx
    exact ⟨record, hrecord, congrArg Run.records hrecord.run_trace⟩
  · exact h.outcome_range_map_iff hlength hconclude f

/-- Three matches, of which the last leads far ahead. -/
def bounding : Parser := stepping [(1, .text "1", 2), (2, .text "2", 3), (3, .text "x", 9)]

/-- Up to five characters, the last of these matches overshoots. It is not in the answer, but the
parser has been run for it, and reading it as an integer raises. -/
theorem range_probes_bounding :
    ((bounding.range (.whole 0 (5 : ℕ) (by decide))).run (.ofText "") (.int 1)).outcome =
        .ok (.matched (.text "12") (.int 3)) ∧
      ((bounding.tallied.range (.whole 0 (5 : ℕ) (by decide))).run (.ofText "") (.int 1)).records =
        [.entered "" (.int 1), .entered "" (.int 2), .entered "" (.int 3)] ∧
      (((bounding.map .toInteger).range (.whole 0 (5 : ℕ) (by decide))).run (.ofText "")
        (.int 1)).outcome = .error (.fault (.notAnInteger "x")) := by
  have hanswers : bounding.Answers (.ofText "") := answers_stepping _ _
  obtain ⟨hends, hprobes⟩ := range_probes bounding (.whole 0 (5 : ℕ) (by decide)) (.ofText "") 1
  obtain ⟨r, hr⟩ := hends hanswers nofun
  obtain ⟨ms, probes, hms, -, -, -, hall, hrecords, -, -, hmap⟩ := hprobes r hr
  obtain rfl : r = .matched (.text "12") (.int 3) := Except.ok.inj (hr.symm.trans rfl)
  obtain rfl : ms = [⟨.text "1", .int 2⟩, ⟨.text "2", .int 3⟩] := Except.ok.inj (hms.symm.trans rfl)
  obtain rfl : probes = [.int 1, .int 2, .int 3] := hall.trans rfl
  refine ⟨hr, hrecords, ((hmap .toInteger).2 _).mpr ⟨[.int 1, .int 2], .int 3, [], rfl, ?_, ?_⟩⟩
  · simp only [List.forall_mem_cons]
    refine ⟨fun m hm => ?_, fun m hm => ?_, fun _ hx => absurd hx List.not_mem_nil⟩
    · rw [hm.unique (.of_matched rfl)]
      exact ⟨.int 1, rfl⟩
    · rw [hm.unique (.of_matched rfl)]
      exact ⟨.int 2, rfl⟩
  · exact ⟨_, .of_matched rfl, rfl⟩

end CursorParsers.Parser
