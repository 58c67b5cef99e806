import CursorParsers.Proofs.Version.Pieces

/-!
# Parsing is scanning

The parsers of the pieces, run one after another at the positions where the ones before have ended,
find what scanning takes off the front of the characters left at those positions.

## Main definitions

* `Attempt.Follows`: an attempt that comes out as a scan does
* `StandsFor`: a value and a position that stand for what is scanned

## Main results

* `parse_eq_scan`: parsing a text is scanning its characters
-/

namespace CursorParsers.Version

variable {α β γ δ : Type} {s : Stream} {c : Int} {p : Parser} {cs : List Char}

/-! ### Following a scan -/

/-- An attempt that comes out as a scan does: with a related result, or with its message. -/
def Attempt.Follows (R : α → β → Prop) (x : Attempt α) : Except String β → Prop
  | .ok b => ∃ a, R a b ∧ x = pure a
  | .error m => x = throw (.text m)

theorem Attempt.Follows.bind {R : α → β → Prop} {Q : γ → δ → Prop} {x : Attempt α}
    {y : Except String β} {f : α → Attempt γ} {g : β → Except String δ} (hx : x.Follows R y)
    (hf : ∀ a b, R a b → (f a).Follows Q (g b)) : (x >>= f).Follows Q (y >>= g) := by
  cases y with
  | error m =>
    obtain rfl : x = throw (.text m) := hx
    rfl
  | ok b =>
    obtain ⟨a, hab, rfl⟩ : ∃ a, R a b ∧ x = pure a := hx
    rw [pure_bind]
    exact hf a b hab

/-! ### Taking a piece -/

theorem take_of_matched {v : Value} {n : Int}
    (h : p.run s (.int c) = pure (.matched v (.int n))) : take p s c = pure (v, n) := by
  rw [take, h, pure_bind]
  rfl

theorem take_of_err {e : Value} (h : p.run s (.int c) = pure (.err e)) :
    take p s c = throw e := by
  rw [take, h, pure_bind]
  rfl

theorem takeMatched_of_matched {v : Value} {n : Int}
    (h : p.run s (.int c) = pure (.matched v (.int n))) : takeMatched p s c = pure (v, n) := by
  rw [takeMatched, h, pure_bind]
  rfl

/-! ### The whole text -/

/-- A value and a position that stand for what is scanned: the value comes from the scanned
one, and the other characters are left at the position. -/
def StandsFor (s : Stream) (f : β → α) (found : α × Int) (scanned : β × List Char) : Prop :=
  found.1 = f scanned.1 ∧ Stands s found.2 scanned.2

theorem take_follows_scanWord {test : Char → Bool} {limit : ℕ∞} {f : Word test limit → Value}
    {expectation : String} (hc : Stands s c cs)
    (hsome : ∀ w rest, Word.scan? cs = some (w, rest) →
      p.run s (.int c) = pure (.matched (f w) (.int (c + w.chars.length))))
    (hnone : (Word.scan? cs : Option (Word test limit × List Char)) = none →
      p.run s (.int c) = pure (.err (.text (missing expectation)))) :
    (take p s c).Follows (StandsFor s f) (scanWord expectation cs) := by
  rw [scanWord]
  split
  next found h =>
    obtain ⟨w, rest⟩ := found
    refine ⟨(f w, c + w.chars.length), ⟨rfl, ?_⟩, take_of_matched (hsome w rest h)⟩
    rw [← Word.drop_of_scan? h]
    exact hc.add w.chars.length
  next h => exact take_of_err (hnone h)

theorem takeNumber_follows [Repertoire] (hc : Stands s c cs) :
    (takeNumber s c).Follows (StandsFor s fun n => (Numeral.value n : Int)) (scanNumeral cs) := by
  rw [takeNumber, ← bind_pure (scanNumeral cs)]
  refine (take_follows_scanWord (f := fun n => .int (Numeral.value n)) hc
    (fun _ _ => run_number_of_some hc) (run_number_of_none hc)).bind ?_
  rintro ⟨_, next⟩ ⟨n, rest⟩ ⟨rfl, hnext⟩
  exact ⟨(Numeral.value n, next), ⟨rfl, hnext⟩, rfl⟩

theorem takeDotNumber_follows [Repertoire] (hc : Stands s c cs) :
    (takeDotNumber s c).Follows (StandsFor s fun n => (Numeral.value n : Int))
      (scanDotNumeral cs) := by
  rw [takeDotNumber, scanDotNumeral]
  cases h : scanDot cs with
  | error m =>
    rw [take_of_err (run_dot_of_error hc h)]
    rfl
  | ok rest =>
    have hnext := hc.add 1
    -- Behind the dot there is what scanning has left.
    rw [← cons_of_scanDot h] at hnext
    rw [take_of_matched (run_dot_of_ok hc h), pure_bind]
    exact takeNumber_follows hnext

/-- Looking for a tag never comes to the fault that a failure of the optional dash would be. -/
theorem takeTag_follows [Repertoire] (hc : Stands s c cs) :
    (takeTag s c).Follows (StandsFor s (Option.map Tag.text)) (scanTag cs) := by
  by_cases h : cs.head? = some '-'
  · obtain ⟨xs, rfl⟩ := List.head?_eq_some_iff.mp h
    rw [takeTag, takeMatched_of_matched (run_dash_of_cons hc), pure_bind, scanTag, if_pos rfl]
    dsimp only
    rw [if_pos (by omega)]
    have hnext : Stands s (c + 1) xs := hc.add 1
    refine (take_follows_scanWord (f := fun t => .text (Tag.text t)) hnext
      (fun _ _ => run_tagText_of_some hnext) (run_tagText_of_none hnext)).bind ?_
    rintro ⟨_, last⟩ ⟨t, rest⟩ ⟨rfl, hlast⟩
    exact ⟨(some (Tag.text t), last), ⟨rfl, hlast⟩, rfl⟩
  -- Without a dash the position does not move, and there is no tag.
  · have hscan : scanTag cs = .ok (none, cs) := by
      cases cs with
      | nil => rfl
      | cons x xs => exact if_neg fun hx => h (congrArg some hx)
    rw [takeTag, takeMatched_of_matched (run_dash_of_head?_ne hc h), pure_bind, hscan]
    dsimp only
    rw [if_neg (by omega)]
    exact ⟨(none, c), ⟨rfl, hc⟩, rfl⟩

theorem takeEnd_follows (hc : Stands s c cs) :
    (take Primitive.endOfInput.parser s c).Follows (fun _ _ => True) (scanEnd cs) := by
  cases cs with
  | nil =>
    have hcons : Primitive.endOfInput.consume (s.rest c) = .ok (.null, 0) := by
      rw [hc.2]
      rfl
    exact ⟨_, trivial, take_of_matched (Primitive.run_of_consume_ok hc.1 hcons)⟩
  | cons x xs =>
    have hcons : Primitive.endOfInput.consume (s.rest c) = .error (.notAtEnd x) := by
      rw [hc.2]
      rfl
    exact take_of_err (Primitive.run_of_consume_error hc.1 hcons)

theorem read_follows [Repertoire] (hc : Stands s 1 cs) :
    (read s).Follows (fun v sp => v = Spelling.version sp) (scan cs) := by
  -- Each piece starts where the one before has left off.
  refine (takeNumber_follows hc).bind ?_
  rintro ⟨major, m⟩ ⟨n₁, cs₁⟩ ⟨rfl, h₁⟩
  refine (takeDotNumber_follows h₁).bind ?_
  rintro ⟨minor, m⟩ ⟨n₂, cs₂⟩ ⟨rfl, h₂⟩
  refine (takeDotNumber_follows h₂).bind ?_
  rintro ⟨patch, m⟩ ⟨n₃, cs₃⟩ ⟨rfl, h₃⟩
  refine (takeTag_follows h₃).bind ?_
  rintro ⟨tag, m⟩ ⟨t, cs₄⟩ ⟨rfl, h₄⟩
  refine (takeEnd_follows h₄).bind ?_
  rintro _ _ -
  exact ⟨_, rfl, rfl⟩

/-- **Parsing is scanning.** -/
theorem parse_eq_scan [Repertoire] (text : String) :
    parse text = pure (match scan text.toList with
      | .ok sp => .ok sp.version
      | .error m => .error (.text m)) := by
  have h := read_follows (s := .ofText text) ⟨le_rfl, Stream.rest_ofText_one text⟩
  rw [parse]
  cases hs : scan text.toList with
  | ok sp =>
    rw [hs] at h
    obtain ⟨v, rfl, hv⟩ := h
    rw [hv]
    rfl
  | error m =>
    rw [hs] at h
    have hread : read (.ofText text) = throw (.text m) := h
    rw [hread]
    rfl

end CursorParsers.Version
