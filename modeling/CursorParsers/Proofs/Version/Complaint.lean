import CursorParsers.Proofs.Version.Reading
import CursorParsers.Proofs.Version.Scanner

/-!
# Scanning and reading

Scanning takes whole pieces off the front of a text and gives up at the first piece that is missing.
Reading goes character by character and halts where no version text goes on. Both come to the same
place: the message of the scan says what is to complain about where reading has halted.

## Main definitions

* `Reading.complaint`: what is to complain about where reading has halted
* `Reading.Explains`: a scan that is explained by where reading has halted

## Main results

* `Reading.explains_scan`: the message of a scan is the complaint where reading halts
-/

namespace CursorParsers.Version.Reading

variable {r : Reading} {w rest : List Char} {dots digits : ℕ}

/-- What is to complain about where reading has halted with some characters left: a word that is
missing, or the first of these characters. There is nothing if a version text can end there and no
characters are left. -/
def complaint : Reading → List Char → Option String
  | .numeral _ 0, _ => some (missing "version number")
  | .numeral dots (_ + 1), [] =>
    if dots < 2 then some (Failure.literalCut .endOfInput ".").message else none
  | .numeral dots (_ + 1), c :: _ =>
    if dots < 2 then some (Failure.literalDiffers '.' c ".").message
    else some (Failure.notAtEnd c).message
  | .dash, _ => some (missing "pre-release tag")
  | .tag, [] => none
  | .tag, c :: _ => some (Failure.notAtEnd c).message

theorem complaint_eq_none_iff : r.complaint w = none ↔ r.IsFinal ∧ w = [] := by
  cases r with
  | numeral dots digits =>
    cases digits with
    | zero => simp [complaint, IsFinal]
    | succ digits =>
      cases w with
      | nil =>
        by_cases h : dots < 2
        · simp [complaint, IsFinal, h]
        · simp [complaint, IsFinal, h, Nat.not_lt.mp h]
      | cons c w => by_cases h : dots < 2 <;> simp [complaint, h]
  | dash => simp [complaint, IsFinal]
  | tag => cases w <;> simp [complaint, IsFinal]

/-! ### Explained scans -/

/-- A scan that is explained by where reading has halted: its message is the complaint there, or
its result meets a condition. -/
def Explains {β : Type} (halted : Reading × List Char) (Q : β → Prop) : Except String β → Prop
  | .ok b => Q b
  | .error m => halted.1.complaint halted.2 = some m

theorem Explains.bind {β γ : Type} {halted : Reading × List Char} {P : β → Prop} {Q : γ → Prop}
    {x : Except String β} {f : β → Except String γ} (hx : Explains halted P x)
    (hf : ∀ b, P b → Explains halted Q (f b)) : Explains halted Q (x >>= f) := by
  cases x with
  | error m => exact hx
  | ok b => exact hf b hx

/-- A numeral that cannot go on with the characters left. -/
def Spent (digits : ℕ) (cs : List Char) : Prop :=
  digits ≠ 0 ∧ ∀ c ∈ cs.head?, c.isDigit → 6 ≤ digits

theorem Spent.step_eq_none {c : Char} (h : Spent digits (c :: rest)) (dots : ℕ)
    (hdot : c = '.' → 2 ≤ dots) (hdash : c = '-' → dots ≠ 2) :
    step (.numeral dots digits) c = none := by
  simp only [step]
  split_ifs with hdigit hlt hzero hc hc
  · exact absurd (h.2 c rfl hdigit) (by omega)
  · rfl
  · rfl
  · exact absurd (hdot hc.1) (by omega)
  · exact absurd hc.2 (hdash hc.1)
  · rfl

theorem explains_scanNumeral (dots : ℕ) (cs : List Char) :
    Explains (halt (.numeral dots 0) cs) (fun found => ∃ digits, Spent digits found.2 ∧
      halt (.numeral dots digits) found.2 = halt (.numeral dots 0) cs) (scanNumeral cs) := by
  rw [scanNumeral, scanWord]
  split
  next found h =>
    obtain ⟨n, rest⟩ := found
    have hlen : n.chars.length ≤ 6 := by exact_mod_cast n.length_le
    refine ⟨n.chars.length, ⟨List.length_pos_iff.mpr n.ne_nil |>.ne', fun c hc hdigit => ?_⟩, ?_⟩
    · obtain hstop | hsix := Word.stop_of_scan? h
      · rw [hstop c hc] at hdigit
        cases hdigit
      · exact_mod_cast hsix.ge
    · rw [← Word.append_of_scan? h]
      have hread : n.chars.foldlM step (.numeral dots 0) = some (.numeral dots n.chars.length) := by
        rw [foldlM_digits dots n.accepted (by omega), Nat.zero_add]
      exact (halt_append hread rest).symm
  next h =>
    have hhead := Word.head_of_scan?_eq_none (by decide) h
    have hhalt : halt (.numeral dots 0) cs = (.numeral dots 0, cs) := by
      refine halt_of_stuck fun c hc => ?_
      simp [step, hhead c hc]
    rw [hhalt]
    rfl

theorem explains_scanDot (hdots : dots < 2) (h : Spent digits rest) :
    Explains (halt (.numeral dots digits) rest) (fun rest' =>
      halt (.numeral (dots + 1) 0) rest' = halt (.numeral dots digits) rest) (scanDot rest) := by
  obtain ⟨digits, rfl⟩ := Nat.exists_eq_succ_of_ne_zero h.1
  cases rest with
  | nil => exact if_pos hdots
  | cons c rest =>
    rw [scanDot]
    split
    next hc =>
      have hstep : step (.numeral dots (digits + 1)) c = some (.numeral (dots + 1) 0) := by
        subst hc
        simp [step, hdots]
      rw [halt, hstep]
      rfl
    next hc =>
      have hstep := h.step_eq_none dots (fun h => absurd h hc) fun _ => hdots.ne
      rw [halt, hstep]
      exact if_pos hdots

theorem explains_scanDotNumeral (hdots : dots < 2) (h : Spent digits rest) :
    Explains (halt (.numeral dots digits) rest) (fun found => ∃ digits', Spent digits' found.2 ∧
      halt (.numeral (dots + 1) digits') found.2 = halt (.numeral dots digits) rest)
      (scanDotNumeral rest) := by
  refine (explains_scanDot hdots h).bind fun rest' hrest' => ?_
  rw [← hrest']
  exact explains_scanNumeral (dots + 1) rest'

/-- A tag behind the dash may be of any length, so reading halts only behind it. -/
theorem explains_scanTagWord (rest : List Char) :
    Explains (halt .dash rest) (fun found => halt .dash rest = (.tag, found.2))
      (scanWord "pre-release tag" rest : Except String (Tag × List Char)) := by
  rw [scanWord]
  split
  next found h =>
    obtain ⟨t, rest'⟩ := found
    have hread : halt .dash (t.chars ++ rest') = halt .tag rest' :=
      halt_append (foldlM_tagChars t.accepted t.ne_nil) rest'
    rw [Word.append_of_scan? h] at hread
    have hstop := (Word.stop_of_scan? h).resolve_right (ENat.natCast_ne_top _)
    refine hread.trans (halt_of_stuck fun d hd => ?_)
    rw [step, hstop d hd]
    rfl
  next h =>
    have hhead := Word.head_of_scan?_eq_none (by decide) h
    have hhalt : halt .dash rest = (.dash, rest) := by
      refine halt_of_stuck fun d hd => ?_
      rw [step, hhead d hd]
      rfl
    rw [hhalt]
    rfl

theorem explains_scanTag (h : Spent digits rest) :
    Explains (halt (.numeral 2 digits) rest) (fun found => ∃ r : Reading, r.IsFinal ∧
      halt (.numeral 2 digits) rest = (r, found.2)) (scanTag rest) := by
  cases rest with
  | nil => exact ⟨.numeral 2 digits, ⟨le_rfl, h.1⟩, rfl⟩
  | cons c rest =>
    rw [scanTag]
    split
    next hc =>
      have hstep : step (.numeral 2 digits) c = some .dash := by
        subst hc
        simp [step, h.1]
      rw [halt, hstep]
      exact (explains_scanTagWord rest).bind fun found hfound => ⟨.tag, trivial, hfound⟩
    -- Without a dash, reading halts behind the last numeral.
    next hc =>
      have hstep := h.step_eq_none 2 (fun _ => le_rfl) fun h => absurd h hc
      refine ⟨.numeral 2 digits, ⟨le_rfl, h.1⟩, ?_⟩
      rw [halt, hstep]

theorem explains_scanEnd (hr : r.IsFinal) :
    Explains (r, rest) (fun _ => r.complaint rest = none) (scanEnd rest) := by
  cases rest with
  | nil => exact complaint_eq_none_iff.mpr ⟨hr, rfl⟩
  | cons c rest =>
    cases r with
    | numeral dots digits =>
      obtain ⟨digits, rfl⟩ := Nat.exists_eq_succ_of_ne_zero hr.2
      exact if_neg (Nat.not_lt.mpr hr.1)
    | dash => exact hr.elim
    | tag => rfl

/-- A scan is explained by **where reading halts**. -/
theorem explains_scan (cs : List Char) :
    Explains (halt start cs) (fun _ => (halt start cs).1.complaint (halt start cs).2 = none)
      (scan cs) := by
  refine (explains_scanNumeral 0 cs).bind ?_
  rintro ⟨major, cs₁⟩ ⟨d₁, h₁, hhalt₁⟩
  rw [show start = .numeral 0 0 from rfl, ← hhalt₁]
  refine (explains_scanDotNumeral Nat.zero_lt_two h₁).bind ?_
  rintro ⟨minor, cs₂⟩ ⟨d₂, h₂, hhalt₂⟩
  rw [← hhalt₂]
  refine (explains_scanDotNumeral Nat.one_lt_two h₂).bind ?_
  rintro ⟨patch, cs₃⟩ ⟨d₃, h₃, hhalt₃⟩
  rw [← hhalt₃]
  refine (explains_scanTag h₃).bind ?_
  rintro ⟨tag, cs₄⟩ ⟨r, hr, hhalt₄⟩
  rw [hhalt₄]
  exact (explains_scanEnd hr).bind fun _ hnone => hnone

end CursorParsers.Version.Reading
