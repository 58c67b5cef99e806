import CursorParsers.Proofs.Chain.Invariant

/-!
# Lossless chains

A chain that neither drops nor transforms what it captures is lossless: what it captures between
two positions is the text between them. So when such chains are run one after another, each where
the one before has ended, what they have captured together is the text up to where they have come.

## Main definitions

* `Chain.Lossless`: a chain that neither drops nor transforms what it captures
* `Passage`, `Passage.next`, `Passage.along`: parsers run one after another
* `Passage.Covers`: what has been captured is the text so far

## Main results

* `Path.captured_eq_slice`: what a repetition joins is the text along its path
* `Chain.Lossless.keeps_captures`: a lossless chain captures the text between its two positions
* `Passage.Covers.next`: a lossless chain run next captures the text that follows
* `lossless_capture`: both for chains and for sequences of them
-/

namespace CursorParsers

/-- What is joined along a path of captures is the **text from its start to its end**. -/
theorem Path.captured_eq_slice [Repertoire] {s : Stream} {c d : Int} {ms : List Match}
    (h : Path (Captures.within s) c ms d) :
    Parser.captured ms = .ofList (s.slice c d) := by
  induction h with
  | nil c => rw [Stream.slice_self]; rfl
  | @cons c n d v ms hq hcn path ih =>
    obtain ⟨hmoves, hv⟩ := hq
    have hc : 1 ≤ c := by
      unfold Stream.Moves at hmoves
      omega
    have hnd : n ≤ d := (path.moves fun _ _ _ hq => hq.1).le
    obtain ⟨-, rfl⟩ | rfl := hv
    -- A match on a path advances, so it has not captured the unit value on the spot.
    · exact absurd hcn (Int.lt_irrefl _)
    · rw [Parser.captured_cons, ih, Value.fragment_text, ← String.ofList_append,
        Stream.slice_append_slice hc (Int.le_of_lt hcn) hnd]

/-- A step that neither drops nor transforms what is captured. -/
def Step.isLossless : Step → Bool
  | .optional | .range _ | .label _ | .trace _ => true
  | .discard | .map _ => false

/-- A chain of steps that neither drop nor transform what is captured. -/
def Chain.Lossless (chain : Chain) : Prop := ∀ step ∈ chain.steps, step.isLossless

/-- A **lossless** chain captures what lies between where it starts and where it ends, and meets no
fault. -/
theorem Chain.Lossless.keeps_captures [Repertoire] {chain : Chain} (h : chain.Lossless) :
    chain.parser.Keeps (fun _ => False) Captures := by
  refine (chain.base.keeps_captures _).extend fun step hstep => ?_
  have hl := h step hstep
  cases step with
  | optional => exact fun _ _ => .inl ⟨rfl, rfl⟩
  | discard => cases hl
  | range b => exact fun s c ms n path => .inr (by rw [path.captured_eq_slice])
  | label t => trivial
  | trace name => trivial
  | map f => cases hl

/-! ### Parsers one after another -/

/-- Where a sequence of parsers has come, and what they have captured on the way. -/
structure Passage where
  values : List Value
  position : Value

namespace Passage

/-- Nothing has been captured yet, and the position is the first. -/
def start : Passage := ⟨[], .int 1⟩

variable [Repertoire]

/-- The text that has been captured. The unit value contributes nothing to it. -/
def text (x : Passage) : String := String.join (x.values.map Value.fragment)

/-- Run the **next parser** where the one before has ended. If it fails, everything stays. -/
def next (s : Stream) (x : Passage) (p : Parser) : Run Passage := do
  match ← p.run s x.position with
  | .ok payload => do
    let (v, n) ← Run.ofExcept payload.split
    pure ⟨x.values ++ [v], n⟩
  | .err _ => pure x

/-- Run several parsers one after another. -/
def along (s : Stream) (x : Passage) (ps : List Parser) : Run Passage := ps.foldlM (next s) x

theorem text_append (values : List Value) (v position : Value) :
    text ⟨values ++ [v], position⟩ = text ⟨values, position⟩ ++ v.fragment := by
  simp [text, String.join_append, String.join_cons]

/-- What has been captured is the text before the position, which is one of the text. -/
def Covers (s : Stream) (x : Passage) : Prop :=
  ∃ n : Int, x.position = .int n ∧ 1 ≤ n ∧ n ≤ s.length + 1 ∧ x.text.toList = s.slice 1 n

variable {s : Stream} {x : Passage} {E : Fault → Prop}

theorem covers_start (s : Stream) : start.Covers s :=
  ⟨1, rfl, Int.le_refl 1, by omega, by rw [Stream.slice_self]; rfl⟩

/-- A parser that captures what lies between its two positions **goes on** capturing the text. -/
theorem Covers.next (hx : x.Covers s) {p : Parser} (hp : p.Keeps E Captures) :
    (x.next s p).Ensures E (Covers s) := by
  obtain ⟨values, position⟩ := x
  obtain ⟨c, rfl, hc, hcs, htext⟩ := hx
  refine (hp.ensures s c).bind fun r hr => ?_
  cases hr with
  | err message => exact .pure ⟨c, rfl, hc, hcs, htext⟩
  | @matched v n hq =>
    obtain ⟨hmoves, hv⟩ := hq
    have hcn : c ≤ n := hmoves.le
    have hns : n ≤ s.length + 1 := by
      unfold Stream.Moves at hmoves
      omega
    refine .pure ⟨n, rfl, by omega, hns, ?_⟩
    rw [text_append, String.toList_append]
    have hfragment : v.fragment.toList = s.slice c n := by
      obtain ⟨rfl, rfl⟩ | rfl := hv
      · rw [Stream.slice_self]
        rfl
      · rw [Value.fragment_text, String.toList_ofList]
    rw [hfragment, ← Stream.slice_append_slice (Int.le_refl 1) hc hcn]
    exact congrArg (· ++ s.slice c n) htext

/-- Such parsers run one after another have captured the text at every moment. -/
theorem Covers.along (hx : x.Covers s) {ps : List Parser} (hp : ∀ p ∈ ps, p.Keeps E Captures) :
    (x.along s ps).Ensures E (Covers s) := by
  induction ps generalizing x with
  | nil => exact .pure hx
  | cons p ps ih =>
    rw [Passage.along, List.foldlM_cons]
    refine (hx.next (hp p List.mem_cons_self)).bind fun y hy => ?_
    exact ih hy fun q hq => hp q (List.mem_cons_of_mem _ hq)

end Passage

/-- **Lossless capture.** A lossless chain fails with a text, or captures the unit value without
moving, or captures the text between the two positions. When lossless chains are run one after
another from the first position, what the first `k` of them have captured is the text before the
position to which they have come, for every `k`. -/
theorem lossless_capture [Repertoire] (s : Stream) :
    (∀ chain : Chain, chain.Lossless → ∀ c : Int,
      (∃ message, (chain.parser.run s (.int c)).outcome = .ok (.err (.text message))) ∨
        ∃ v n, (chain.parser.run s (.int c)).outcome = .ok (.matched v (.int n)) ∧
          (v = .null ∧ n = c ∨
            ∃ t : String, v = .text t ∧ t.toList = s.slice c n ∧ (t.length : Int) = n - c)) ∧
      ∀ chains : List Chain, (∀ chain ∈ chains, chain.Lossless) → ∀ k,
        ∃ x n, (Passage.start.along s ((chains.take k).map Chain.parser)).outcome = .ok x ∧
          x.position = .int n ∧ 1 ≤ n ∧ n ≤ s.length + 1 ∧ x.text.toList = s.slice 1 n := by
  refine ⟨fun chain h c => ?_, fun chains h k => ?_⟩
  · obtain ⟨r, hr, hmeets⟩ := (h.keeps_captures.ensures s c).exists_ok
    rw [hr]
    cases hmeets with
    | err message => exact .inl ⟨message, rfl⟩
    | @matched v n hq =>
      obtain ⟨hmoves, hv⟩ := hq
      refine .inr ⟨v, n, rfl, ?_⟩
      obtain hnull | rfl := hv
      · exact .inl hnull
      · refine .inr ⟨_, rfl, String.toList_ofList, ?_⟩
        rw [String.length_ofList]
        obtain rfl | ⟨hc, hcn, hn⟩ := hmoves
        · simp
        · exact Stream.length_slice hc (Int.le_of_lt hcn) hn
  · have hp : ∀ p ∈ (chains.take k).map Chain.parser, p.Keeps (fun _ => False) Captures := by
      intro p hp
      obtain ⟨chain, hchain, rfl⟩ := List.mem_map.mp hp
      exact (h chain (List.mem_of_mem_take hchain)).keeps_captures
    -- No lossless chain ends in a fault, so all of them are run.
    obtain ⟨x, hx, n, hn⟩ := ((Passage.covers_start s).along hp).exists_ok
    exact ⟨x, n, hx, hn⟩

/-- A repetition of what is optional captures the two characters that it passes, and so do three
parsers of which the second fails. -/
theorem lossless_capture_numbers :
    let digits : Chain := ⟨.oneOf ⟨"0-5", by decide⟩,
      [.optional, .range ⟨.int 0, .infinity, rfl, rfl⟩]⟩
    let chains : List Chain := [⟨.anyChar, [.label "first"]⟩, ⟨.literal ".", []⟩,
      ⟨.oneOf ⟨"0-5", by decide⟩, [.optional]⟩, ⟨.endOfInput, [.trace "end"]⟩]
    (digits.parser.run (.ofText "12.5") (.int 1)).outcome = .ok (.matched (.text "12") (.int 3)) ∧
      "12".toList = (Stream.ofText "12.5").slice 1 3 ∧
      ∃ x, (Passage.start.along (.ofText "12.5") ((chains.take 3).map Chain.parser)).outcome =
          .ok x ∧
        x.position = .int 3 ∧ x.text = "12" := by
  intro digits chains
  have hcapture := lossless_capture (.ofText "12.5")
  have hdigits : (digits.parser.run (.ofText "12.5") (.int 1)).outcome =
      .ok (.matched (.text "12") (.int 3)) := rfl
  refine ⟨hdigits, ?_, ?_⟩
  · obtain ⟨message, h⟩ | ⟨v, n, h, hv⟩ :=
      hcapture.1 digits (by simp [digits, Chain.Lossless, Step.isLossless]) 1
    · cases hdigits.symm.trans h
    · cases hdigits.symm.trans h
      obtain ⟨h, -⟩ | ⟨t, h, ht, -⟩ := hv
      · cases h
      · cases h
        exact ht
  · obtain ⟨x, n, hx, hn, -, -, htext⟩ :=
      hcapture.2 chains (by simp [chains, Chain.Lossless, Step.isLossless]) 3
    have hposition : (Passage.start.along (.ofText "12.5")
        ((chains.take 3).map Chain.parser)).outcome.map Passage.position = .ok (.int 3) := rfl
    rw [hx] at hposition
    obtain rfl := Value.int_inj.mp (hn.symm.trans (Except.ok.inj hposition))
    exact ⟨x, hx, hn, String.toList_inj.mp htext⟩

end CursorParsers
