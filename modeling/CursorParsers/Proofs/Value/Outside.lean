import CursorParsers.Proofs.Value.Written

/-!
# What stands outside quotes

A text can contain anything, also what looks like the written form of another value. A reader who
keeps track of the quotes can tell: a written form begins and ends outside quotes, and no colon and
no backslash stands outside quotes in it.

Two readers of the same characters who differ about the quotes never agree again, since every
character that they both can read lets them differ still. So the characters behind a colon in a
written form are not a written form themselves.

## Main definitions

* `Text.Standing`: where a reader stands with respect to quotes
* `Text.Standing.step`: reading one more character
* `Text.Balanced`: characters that are read from outside quotes to outside quotes

## Main results

* `Text.Standing.Apart.step`: readers who stand differently do so after one more character
* `Value.balanced_written`: written forms are balanced
* `Text.Balanced.not_balanced_of_colon`: what follows a colon in balanced characters is not balanced
-/

namespace CursorParsers

namespace Text

/-- Where a reader stands: outside quotes, between quotes of one of the two forms, or there
behind a backslash. -/
inductive Standing where
  | outside
  | inside (double : Bool)
  | escaped (double : Bool)

/-- The mark at either end of a quoted text. -/
def quoteMark (double : Bool) : Char := if double then doubleQuote else apostrophe

namespace Standing

/-- Where a reader stands after **one more character**. Outside quotes, neither a colon nor a
backslash can be read. -/
def step : Standing → Char → Option Standing
  | .outside, c =>
    if c = ':' ∨ c = '\\' then none
    else if c = quoteMark false then some (.inside false)
    else if c = quoteMark true then some (.inside true)
    else some .outside
  | .inside double, c =>
    if c = '\\' then some (.escaped double)
    else if c = quoteMark double then some .outside
    else some (.inside double)
  | .escaped double, _ => some (.inside double)

/-- Whether a reader stands behind a backslash. -/
def isEscaped : Standing → Bool
  | .escaped _ => true
  | _ => false

/-- Two readers who stand differently, but not only one of them behind a backslash. -/
def Apart (s t : Standing) : Prop := s ≠ t ∧ s.isEscaped = t.isEscaped

variable {s t s' t' : Standing} {c : Char} {cs : List Char}

theorem isEscaped_step (h : s.step c = some s') :
    s'.isEscaped = (!s.isEscaped && c = '\\') := by
  cases s <;> grind [Standing.step, isEscaped]

/-- Reading the same character twice leads back, where no backslash is involved. -/
theorem step_step (h : s.step c = some s') (hs : s.isEscaped = false) (hc : c ≠ '\\') :
    s'.step c = some s := by
  have hmark : quoteMark false ≠ quoteMark true := by decide
  have hcolon : ∀ double, quoteMark double ≠ ':' := by decide
  cases s with
  | outside => grind [Standing.step]
  | inside double => cases double <;> grind [Standing.step]
  | escaped double => cases hs

/-- Readers who stand differently **do so still** after one more character. -/
theorem Apart.step (h : Apart s t) (hs : s.step c = some s') (ht : t.step c = some t') :
    Apart s' t' := by
  obtain ⟨hne, hescaped⟩ := h
  refine ⟨?_, by rw [isEscaped_step hs, isEscaped_step ht, hescaped]⟩
  rintro rfl
  cases hbehind : s.isEscaped with
  | true =>
    -- Behind a backslash, every character leads back between the same quotes.
    cases s <;> cases t <;> grind [Standing.step, isEscaped]
  | false =>
    by_cases hc : c = '\\'
    · -- A backslash is read between quotes only, and they are still the same behind it.
      cases s <;> cases t <;> grind [Standing.step, isEscaped]
    · have hback := step_step hs hbehind hc
      rw [step_step ht (hescaped ▸ hbehind) hc] at hback
      exact hne (Option.some.inj hback).symm

/-- Readers who stand differently never agree again. -/
theorem Apart.run (h : Apart s t) (hs : cs.foldlM Standing.step s = some s')
    (ht : cs.foldlM Standing.step t = some t') : Apart s' t' := by
  induction cs generalizing s t with
  | nil =>
    cases hs
    cases ht
    exact h
  | cons c cs ih =>
    rw [List.foldlM_cons] at hs ht
    obtain ⟨u, hu, hs⟩ := Option.bind_eq_some_iff.mp hs
    obtain ⟨v, hv, ht⟩ := Option.bind_eq_some_iff.mp ht
    exact ih (h.step hu hv) hs ht

end Standing

/-- Characters are split in one way at a mark that is followed by characters with a property, if
no characters with the property contain such a mark that others with the property follow. -/
theorem split_inj {P : List Char → Prop} {c : Char} {front front' back back' : List Char}
    (hP : ∀ {ds cs : List Char}, P (ds ++ c :: cs) → ¬ P cs) (hback : P back) (hback' : P back')
    (h : front ++ c :: back = front' ++ c :: back') : front = front' ∧ back = back' := by
  have hfirst {ds cs cs' : List Char} (hcs : P cs) (hcs' : P cs')
      (hds : c :: cs = ds ++ c :: cs') : ds = [] := by
    cases ds with
    | nil => rfl
    | cons d ds =>
      rw [(List.cons.inj hds).2] at hcs
      exact absurd hcs' (hP hcs)
  rcases List.append_eq_append_iff.mp h with ⟨ds, hfront, hsplit⟩ | ⟨ds, hfront, hsplit⟩
  · obtain rfl := hfirst hback hback' hsplit
    exact ⟨by rw [hfront, List.append_nil], (List.cons.inj hsplit).2⟩
  · obtain rfl := hfirst hback' hback hsplit
    exact ⟨by rw [hfront, List.append_nil], (List.cons.inj hsplit).2.symm⟩

/-- Characters that are read from outside quotes to outside quotes. -/
def Balanced (cs : List Char) : Prop := cs.foldlM Standing.step .outside = some .outside

namespace Balanced

variable {cs ds front rest : List Char}

theorem append (hcs : Balanced cs) (hds : Balanced ds) : Balanced (cs ++ ds) := by
  rw [Balanced, List.foldlM_append, hcs]
  exact hds

/-- What follows a **colon** in balanced characters is not balanced. -/
theorem not_balanced_of_colon (h : Balanced (front ++ ':' :: rest)) : ¬ Balanced rest := by
  intro hrest
  rw [Balanced, List.foldlM_append] at h
  obtain ⟨s, -, h⟩ := Option.bind_eq_some_iff.mp h
  rw [List.foldlM_cons] at h
  obtain ⟨t, hcolon, h⟩ := Option.bind_eq_some_iff.mp h
  -- The colon stands between quotes, and so does what follows it.
  obtain ⟨double, rfl⟩ : ∃ double, t = .inside double := by
    cases s with
    | outside => cases hcolon
    | inside double => cases double <;> exact ⟨_, (Option.some.inj hcolon).symm⟩
    | escaped double => exact ⟨_, (Option.some.inj hcolon).symm⟩
  have hapart : Standing.Apart .outside (.inside double) := ⟨nofun, rfl⟩
  exact (hapart.run hrest h).1 rfl

/-- Characters are split in one way at a colon that balanced characters follow. -/
theorem colon_append_inj {front' rest' : List Char} (hrest : Balanced rest)
    (hrest' : Balanced rest') (h : front ++ ':' :: rest = front' ++ ':' :: rest') :
    front = front' ∧ rest = rest' :=
  split_inj (fun hcs => hcs.not_balanced_of_colon) hrest hrest' h

end Balanced

/-! ### What is balanced -/

/-- A character that may stand outside quotes and does not change where a reader stands. -/
def isPlain (c : Char) : Bool := c ≠ ':' && c ≠ '\\' && c ≠ apostrophe && c ≠ doubleQuote

theorem balanced_of_isPlain {cs : List Char} (h : cs.all isPlain) : Balanced cs := by
  induction cs with
  | nil => rfl
  | cons c cs ih =>
    rw [List.all_cons, Bool.and_eq_true] at h
    obtain ⟨hc, hcs⟩ := h
    have hstep : Standing.step .outside c = some .outside := by
      simp [isPlain] at hc
      simp [Standing.step, quoteMark, hc]
    rw [Balanced, List.foldlM_cons, hstep]
    exact ih hcs

theorem isPlain_hexDigits (width n : Nat) : ∀ c ∈ hexDigits width n, isPlain c := by
  have hdigit : ∀ k < 16, isPlain (Nat.digitChar k) := by decide
  induction width generalizing n with
  | zero => simp [hexDigits]
  | succ width ih =>
    intro c hc
    rcases List.mem_append.mp hc with hc | hc
    · exact ih _ c hc
    · rw [List.mem_singleton.mp hc]
      exact hdigit _ (Nat.mod_lt _ (by decide))

section Quotes

variable {printable : Char → Bool} {cs : List Char} {double : Bool} {c : Char}

theorem run_inside (h : ∀ c ∈ cs, c ≠ '\\' ∧ c ≠ quoteMark double) :
    cs.foldlM Standing.step (.inside double) = some (.inside double) := by
  induction cs with
  | nil => rfl
  | cons c cs ih =>
    obtain ⟨⟨hbackslash, hmark⟩, hcs⟩ := List.forall_mem_cons.mp h
    have hstep : Standing.step (.inside double) c = some (.inside double) := by
      rw [Standing.step, if_neg hbackslash, if_neg hmark]
    rw [List.foldlM_cons, hstep]
    exact ih hcs

theorem run_hexDigits (width n : Nat) :
    (hexDigits width n).foldlM Standing.step (.inside double) = some (.inside double) := by
  apply run_inside
  intro c hc
  have hplain := isPlain_hexDigits width n c hc
  simp [isPlain] at hplain
  cases double <;> simp [quoteMark, hplain]

theorem run_escape (c : Char) :
    (escape printable (quoteMark double) c).foldlM Standing.step (.inside double) =
      some (.inside double) := by
  rcases escape_cases printable (quoteMark double) c with ⟨h, -⟩ | ⟨letter, h, -⟩ | h | ⟨h, hc⟩
  · rw [h]
    rfl
  · rw [h]
    rfl
  · rw [h, escapeCode]
    split
    · exact run_hexDigits 2 c.toNat
    · split
      · exact run_hexDigits 4 c.toNat
      · exact run_hexDigits 8 c.toNat
  · rw [h]
    apply run_inside
    simpa using hc.symm

theorem run_flatMap_escape (cs : List Char) :
    (cs.flatMap (escape printable (quoteMark double))).foldlM Standing.step (.inside double) =
      some (.inside double) := by
  induction cs with
  | nil => rfl
  | cons c cs ih =>
    rw [List.flatMap_cons, List.foldlM_append, run_escape]
    exact ih

theorem balanced_quoteList (cs : List Char) : Balanced (quoteList printable cs) := by
  obtain ⟨double, hdouble⟩ : ∃ double, quoteOf cs = quoteMark double := by
    rcases quoteOf_eq cs with h | h
    · exact ⟨false, h⟩
    · exact ⟨true, h⟩
  have hopen : Standing.step .outside (quoteMark double) = some (.inside double) := by
    cases double <;> rfl
  have hclose : Standing.step (.inside double) (quoteMark double) = some .outside := by
    cases double <;> rfl
  rw [← List.append_nil (quoteList printable cs), quoteList_append, hdouble, Balanced,
    List.foldlM_cons, hopen]
  show List.foldlM Standing.step (.inside double) _ = some .outside
  rw [List.foldlM_append, run_flatMap_escape]
  show List.foldlM Standing.step (.inside double) [quoteMark double] = some .outside
  rw [List.foldlM_cons, hclose]
  rfl

end Quotes

end Text

/-! ### Written forms -/

theorem Number.isPlain_of_isMark {c : Char} (h : isMark c) : Text.isPlain c := by
  simp only [Text.isPlain, Bool.and_eq_true, decide_eq_true_eq]
  refine ⟨⟨⟨?_, ?_⟩, ?_⟩, ?_⟩ <;> rintro rfl <;> cases h

theorem Number.balanced_text (n : Number) : Text.Balanced n.text.toList :=
  Text.balanced_of_isPlain
    (List.all_eq_true.mpr fun _ hc => isPlain_of_isMark (isMark_of_mem_text hc))

namespace Value

open Text

variable {printable : Char → Bool}

theorem balanced_closing (vs : List Value) : Balanced (closing vs) := by
  match vs with
  | [] => rfl
  | [_] => rfl
  | _ :: _ :: _ => rfl

theorem balanced_writtenEach {vs : List Value} (h : ∀ v ∈ vs, Balanced (written printable v)) :
    Balanced (writtenEach printable vs) := by
  have htail {ws : List Value} (hws : ∀ w ∈ ws, Balanced (written printable w)) :
      Balanced (ws.flatMap fun w => ',' :: ' ' :: written printable w) := by
    induction ws with
    | nil => rfl
    | cons w ws ih =>
      obtain ⟨hw, hws⟩ := List.forall_mem_cons.mp hws
      rw [List.flatMap_cons]
      exact Balanced.append hw (ih hws)
  cases vs with
  | nil => rfl
  | cons v vs =>
    obtain ⟨hv, hvs⟩ := List.forall_mem_cons.mp h
    exact hv.append (htail hvs)

/-- **Written forms** begin and end outside quotes, and no colon stands outside quotes in them. -/
theorem balanced_written (v : Value) : Balanced (written printable v) := by
  have hquote (s : String) : Balanced (quote printable s).toList := by
    rw [quote, String.toList_ofList]
    exact balanced_quoteList _
  have hclose : Balanced [')'] := rfl
  induction v using rec_on_entries with
  | absent => rw [written_absent]; exact balanced_of_isPlain rfl
  | null => rw [written_null]; exact balanced_of_isPlain rfl
  | nothing => rw [written_nothing]; exact balanced_of_isPlain rfl
  | bool b => rw [written_bool]; cases b <;> exact balanced_of_isPlain rfl
  | number n => rw [written_number]; exact n.balanced_text
  | text s => rw [written_text]; exact hquote s
  | list vs ih =>
    rw [written_list]
    exact (balanced_of_isPlain rfl).append ((balanced_writtenEach ih).append rfl)
  | tuple vs ih =>
    rw [written_tuple]
    exact (balanced_of_isPlain rfl).append ((balanced_writtenEach ih).append (balanced_closing vs))
  | union vs ih =>
    rw [written_union]
    exact (balanced_of_isPlain rfl).append ((balanced_writtenEach ih).append (balanced_closing vs))
  | ok v ih =>
    rw [written_ok]
    exact (balanced_of_isPlain rfl).append (ih.append hclose)
  | err v ih =>
    rw [written_err]
    exact (balanced_of_isPlain rfl).append (ih.append hclose)
  | some v ih =>
    rw [written_some]
    exact (balanced_of_isPlain rfl).append (ih.append hclose)
  | stream s =>
    have hlength : Balanced (toString s.length).toList := (Number.int s.length).balanced_text
    have htail : Balanced (", length=".toList ++ ((toString s.length).toList ++ [')'])) :=
      (balanced_of_isPlain rfl).append (hlength.append hclose)
    rw [written_stream]
    exact (balanced_of_isPlain rfl).append ((hquote s.text).append htail)
  | range b =>
    have htail : Balanced (", max=".toList ++ (b.max.text.toList ++ [')'])) :=
      (balanced_of_isPlain rfl).append (b.max.balanced_text.append hclose)
    rw [written_range]
    exact (balanced_of_isPlain rfl).append (b.min.balanced_text.append htail)

end Value

end CursorParsers
