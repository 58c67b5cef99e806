import CursorParsers.Proofs.Primitive.Consumption
import Mathlib.Data.Char

/-!
# What a charset names

The segments of a charset are said here by the indices of its text, without running through it: at
an index a span is taken where a dash and an end that is not too small follow, and a single
character elsewhere, and the next segment is taken where that one ends. There is one way to cut a
text so. What the segments name follows from the cut, and it is less than one could fear of dashes:
nothing that stands in the text is lost but dashes that were used up by spans.

## Main definitions

* `Segment.TakenAt`: the segment that is taken at an index
* `Charset.IsCut`: the segments into which a text is cut
* `Charset.Named`: what segments name

## Main results

* `Charset.isCut_iff`: the segments that a charset is read in are the only cut of its text
* `Charset.membership_exact`: what a charset accepts, and what it does not
-/

namespace CursorParsers

/-- The segment that is taken at an index of a text. -/
def Segment.TakenAt (cs : List Char) (i : ℕ) : Segment → Prop
  | .span x y => cs[i]? = some x ∧ cs[i + 1]? = some '-' ∧ cs[i + 2]? = some y ∧ x ≤ y
  | .single x => cs[i]? = some x ∧ ∀ y, cs[i + 1]? = some '-' → cs[i + 2]? = some y → ¬ x ≤ y

namespace Segment

variable {cs : List Char} {i : ℕ} {seg seg' : Segment}

theorem TakenAt.unique (h : seg.TakenAt cs i) (h' : seg'.TakenAt cs i) : seg = seg' := by
  cases seg with
  | single x =>
    obtain ⟨hx, hno⟩ := h
    cases seg' with
    | single x' => rw [Option.some.inj (hx.symm.trans h'.1)]
    | span x' y' =>
      obtain ⟨hx', hdash, hy, hle⟩ := h'
      obtain rfl := Option.some.inj (hx.symm.trans hx')
      exact absurd hle (hno y' hdash hy)
  | span x y =>
    obtain ⟨hx, hdash, hy, hle⟩ := h
    cases seg' with
    | single x' =>
      obtain ⟨hx', hno⟩ := h'
      obtain rfl := Option.some.inj (hx.symm.trans hx')
      exact absurd hle (hno y hdash hy)
    | span x' y' =>
      obtain ⟨hx', -, hy', -⟩ := h'
      rw [Option.some.inj (hx.symm.trans hx'), Option.some.inj (hy.symm.trans hy')]

theorem TakenAt.ne_nil (h : seg.TakenAt cs i) : cs ≠ [] := by
  rintro rfl
  cases seg with
  | single x => exact absurd h.1 (by simp)
  | span x y => exact absurd h.1 (by simp)

theorem takenAt_append (u cs : List Char) (i : ℕ) :
    seg.TakenAt (u ++ cs) (u.length + i) ↔ seg.TakenAt cs i := by
  have hindex (j : ℕ) : (u ++ cs)[u.length + j]? = cs[j]? := by
    rw [List.getElem?_append_right (Nat.le_add_right _ _), Nat.add_sub_cancel_left]
  cases seg <;> simp only [TakenAt, Nat.add_assoc, hindex]

end Segment

namespace Charset

variable {cs : List Char} {segs segs' : List Segment} {seg : Segment} {d : Char}

/-- The segments into which a text is cut: they make up the text, and each is the one taken at
the index where those before it end. -/
structure IsCut (cs : List Char) (segs : List Segment) : Prop where
  whole : segs.flatMap Segment.chars = cs
  taken : ∀ before seg after, segs = before ++ seg :: after →
    seg.TakenAt cs (before.flatMap Segment.chars).length

theorem isCut_nil : IsCut [] [] where
  whole := rfl
  taken _ _ _ h := absurd h (by simp)

theorem isCut_cons_iff : IsCut cs (seg :: segs) ↔
    seg.TakenAt cs 0 ∧ ∃ rest, cs = seg.chars ++ rest ∧ IsCut rest segs := by
  constructor
  · rintro ⟨rfl, htaken⟩
    refine ⟨htaken [] seg segs rfl, _, List.flatMap_cons, rfl, fun before seg' after h => ?_⟩
    have hnext := htaken (seg :: before) seg' after (congrArg (seg :: ·) h)
    rw [List.flatMap_cons, List.flatMap_cons, List.length_append] at hnext
    exact (Segment.takenAt_append _ _ _).mp hnext
  · rintro ⟨hfirst, rest, rfl, hrest⟩
    refine ⟨by rw [List.flatMap_cons, hrest.whole], fun before seg' after h => ?_⟩
    cases before with
    | nil =>
      obtain ⟨rfl, rfl⟩ := List.cons.inj h
      exact hfirst
    | cons _ before =>
      obtain ⟨rfl, hsegs⟩ := List.cons.inj h
      rw [List.flatMap_cons, List.length_append, Segment.takenAt_append]
      exact hrest.taken before seg' after hsegs

theorem isCut_singleton (x : Char) : IsCut [x] [.single x] :=
  isCut_cons_iff.mpr ⟨⟨rfl, by simp⟩, [], rfl, isCut_nil⟩

/-- The segments that a text is read in are a cut of it. -/
theorem isCut_segmentsOf (cs : List Char) : IsCut cs (segmentsOf cs) := by
  fun_induction segmentsOf cs with
  | case1 => exact isCut_nil
  | case2 x => exact isCut_singleton x
  | case3 x y =>
    exact isCut_cons_iff.mpr ⟨⟨rfl, by simp⟩, [y], rfl, isCut_singleton y⟩
  | case4 x d y rest h ih =>
    obtain ⟨rfl, hle⟩ := h
    exact isCut_cons_iff.mpr ⟨⟨rfl, rfl, rfl, hle⟩, rest, rfl, ih⟩
  | case5 x d y rest h ih =>
    refine isCut_cons_iff.mpr ⟨⟨rfl, fun y' hdash hy hle => h ⟨?_, ?_⟩⟩, _, rfl, ih⟩
    · exact Option.some.inj hdash
    · rwa [Option.some.inj hy]

/-- A text is cut in one way. -/
theorem IsCut.unique (h : IsCut cs segs) (h' : IsCut cs segs') : segs = segs' := by
  induction segs generalizing cs segs' with
  | nil =>
    obtain rfl := h.whole
    cases segs' with
    | nil => rfl
    | cons seg' segs' => exact absurd rfl (isCut_cons_iff.mp h').1.ne_nil
  | cons seg segs ih =>
    obtain ⟨hfirst, rest, rfl, hrest⟩ := isCut_cons_iff.mp h
    cases segs' with
    | nil => exact absurd h'.whole.symm hfirst.ne_nil
    | cons seg' segs' =>
      obtain ⟨hfirst', rest', hcs, hrest'⟩ := isCut_cons_iff.mp h'
      obtain rfl := hfirst.unique hfirst'
      obtain rfl := List.append_cancel_left hcs
      rw [ih hrest hrest']

theorem isCut_iff : IsCut cs segs ↔ segs = segmentsOf cs := by
  refine ⟨fun h => h.unique (isCut_segmentsOf cs), ?_⟩
  rintro rfl
  exact isCut_segmentsOf cs

/-- Two dashes in a row: the second is an end, so both are used up by one span. -/
example : IsCut "+--z".toList [.span '+' '-', .single 'z'] := isCut_iff.mpr (by decide)

/-! ### What segments name -/

/-- A character is named by segments if it is one of them, or lies between the ends of one. -/
def Named (segs : List Segment) (d : Char) : Prop :=
  .single d ∈ segs ∨ ∃ x y, .span x y ∈ segs ∧ x ≤ d ∧ d ≤ y

theorem accepts_iff (cs : Charset) : cs.accepts d ↔ Named (segmentsOf cs.text.toList) d := by
  rw [accepts, segments, List.any_eq_true, Named]
  constructor
  · rintro ⟨seg, hmem, hd⟩
    cases seg with
    | single c =>
      obtain rfl : c = d := of_decide_eq_true hd
      exact .inl hmem
    | span x y => exact .inr ⟨x, y, hmem, of_decide_eq_true hd⟩
  · rintro (hmem | ⟨x, y, hmem, hd⟩)
    · exact ⟨_, hmem, decide_eq_true rfl⟩
    · exact ⟨_, hmem, decide_eq_true hd⟩

theorem mem_part_of_append_eq {xs ys u v : List Char} (h : xs ++ ys = u ++ d :: v) :
    (∃ l, u = xs ++ l ∧ ys = l ++ d :: v) ∨ ∃ r, xs = u ++ d :: r ∧ v = r ++ ys := by
  obtain ⟨l, hl, hys⟩ | ⟨r, hr, hv⟩ := List.append_eq_append_iff.mp h
  · exact .inl ⟨l, hl, hys⟩
  · cases r with
    | nil => exact .inl ⟨[], by rw [hr, List.append_nil, List.append_nil], hv.symm⟩
    | cons d' r =>
      obtain ⟨rfl, rfl⟩ := List.cons.inj hv
      exact .inr ⟨r, hr, rfl⟩

theorem exists_segment_of_flatMap_eq {u v : List Char}
    (h : segs.flatMap Segment.chars = u ++ d :: v) :
    ∃ before seg after l r, segs = before ++ seg :: after ∧ seg.chars = l ++ d :: r ∧
      u = before.flatMap Segment.chars ++ l ∧ v = r ++ after.flatMap Segment.chars := by
  induction segs generalizing u with
  | nil => exact absurd h (by simp)
  | cons seg segs ih =>
    rw [List.flatMap_cons] at h
    obtain ⟨u', rfl, hrest⟩ | ⟨r, hseg, hv⟩ := mem_part_of_append_eq h
    · obtain ⟨before, seg', after, l, r, rfl, hseg', rfl, hv⟩ := ih hrest
      exact ⟨seg :: before, seg', after, l, r, rfl, hseg',
        by rw [List.flatMap_cons, List.append_assoc], hv⟩
    · exact ⟨[], seg, segs, u, r, rfl, hseg, rfl, hv⟩

namespace IsCut

variable (h : IsCut cs segs)

include h

theorem le_of_span_mem {x y : Char} (hmem : .span x y ∈ segs) : x ≤ y := by
  obtain ⟨before, after, hsegs⟩ := List.append_of_mem hmem
  exact (h.taken before _ after hsegs).2.2.2

theorem infix_of_span_mem {x y : Char} (hmem : .span x y ∈ segs) : [x, '-', y] <:+: cs := by
  obtain ⟨before, after, hsegs⟩ := List.append_of_mem hmem
  rw [← h.whole, hsegs, List.flatMap_append, List.flatMap_cons, ← List.append_assoc]
  exact ⟨_, _, rfl⟩

/-- A character of a segment is named unless it is the dash of a span. -/
theorem named_of_mem_chars (hmem : seg ∈ segs) {l r : List Char}
    (hchars : seg.chars = l ++ d :: r) :
    Named segs d ∨ ∃ x y, seg = .span x y ∧ d = '-' ∧ l = [x] ∧ r = [y] := by
  cases seg with
  | single c =>
    obtain ⟨-, rfl, -⟩ : l = [] ∧ d = c ∧ r = [] := by
      simpa [Segment.chars, List.cons_eq_append_iff] using hchars
    exact .inl (.inl hmem)
  | span x y =>
    have hle := h.le_of_span_mem hmem
    have hplace : l = [] ∧ d = x ∧ r = ['-', y] ∨ ∃ l', l = x :: l' ∧
        (l' = [] ∧ d = '-' ∧ r = [y] ∨ ∃ l'', l' = '-' :: l'' ∧ l'' = [] ∧ d = y ∧ r = []) := by
      simpa [Segment.chars, List.cons_eq_append_iff] using hchars
    rcases hplace with ⟨-, rfl, -⟩ | ⟨_, rfl, ⟨rfl, rfl, rfl⟩ | ⟨_, -, -, rfl, -⟩⟩
    · exact .inl (.inr ⟨d, y, hmem, le_rfl, hle⟩)
    · exact .inr ⟨x, y, rfl, rfl, rfl, rfl⟩
    · exact .inl (.inr ⟨x, d, hmem, hle, le_rfl⟩)

theorem named_of_mem (hd : d ∈ cs) (hdash : d ≠ '-') : Named segs d := by
  rw [← h.whole] at hd
  obtain ⟨seg, hmem, hchars⟩ := List.mem_flatMap.mp hd
  obtain ⟨l, r, hlr⟩ := List.append_of_mem hchars
  exact (h.named_of_mem_chars hmem hlr).resolve_right fun ⟨_, _, _, hd', _⟩ => hdash hd'

/-- If dashes are not named, every dash of the text is the middle of a span. -/
theorem span_of_not_named (hnot : ¬ Named segs '-') {u v : List Char} (hcs : cs = u ++ '-' :: v) :
    ∃ before x y after, segs = before ++ .span x y :: after ∧
      u = before.flatMap Segment.chars ++ [x] ∧ v = y :: after.flatMap Segment.chars := by
  obtain ⟨before, seg, after, l, r, rfl, hchars, rfl, rfl⟩ :=
    exists_segment_of_flatMap_eq (h.whole.trans hcs)
  have hmem : seg ∈ before ++ seg :: after := List.mem_append_right before List.mem_cons_self
  obtain ⟨x, y, rfl, -, rfl, rfl⟩ := (h.named_of_mem_chars hmem hchars).resolve_left hnot
  exact ⟨before, x, y, after, rfl, rfl, rfl⟩

/-- What is named and does not stand in the text lies strictly between the ends of a span. -/
theorem exists_between (hd : Named segs d) (hnot : d ∉ cs) :
    ∃ x y, [x, '-', y] <:+: cs ∧ x < d ∧ d < y := by
  rcases hd with hmem | ⟨x, y, hmem, hxd, hdy⟩
  · refine absurd ?_ hnot
    rw [← h.whole]
    exact List.mem_flatMap.mpr ⟨_, hmem, List.mem_singleton_self d⟩
  · have hwritten := h.infix_of_span_mem hmem
    have hne {c : Char} (hc : c ∈ [x, '-', y]) : c ≠ d := fun hcd => hnot (hcd ▸ hwritten.subset hc)
    exact ⟨x, y, hwritten, lt_of_le_of_ne hxd (hne (by simp)),
      lt_of_le_of_ne hdy (hne (by simp)).symm⟩

theorem named_iff_mem (hdash : '-' ∉ cs) : Named segs d ↔ d ∈ cs := by
  refine ⟨fun hd => ?_, fun hd => h.named_of_mem hd fun hd' => hdash (hd' ▸ hd)⟩
  by_contra hnot
  obtain ⟨x, y, hwritten, -⟩ := h.exists_between hd hnot
  exact hdash (hwritten.subset (by simp))

end IsCut

/-! ### What is read -/

/-- A charset reads one character that its segments name, and rejects any other. -/
theorem run_oneOf (cs : Charset) {s : Stream} {c : Int} (hd : s.get? c = some d) :
    (Primitive.oneOf cs).parser.run s (.int c) =
      pure (if cs.accepts d then .matched (.ofChar d) (.int (c + 1))
        else .err (.text (Failure.notInCharset cs.text d).message)) := by
  have hread : (Primitive.oneOf cs).read s (.int c) = .ok (if cs.accepts d then
      .ok (.ofChar d, .int (c + 1)) else .error (.notInCharset cs.text d)) := by
    rw [Primitive.read, Primitive.readChar_int, Stream.fetch_eq_ok_iff.mpr hd]
  rw [Primitive.run_parser_of_read hread]
  split <;> rfl

theorem message_notInCharset (t : String) (d : Char) : (Failure.notInCharset t d).message =
    "Expected one of the chars '" ++ t ++ "', found '" ++ String.singleton d ++ "'" := by
  have hopen : "Expected one of the chars " ++ "'" = "Expected one of the chars '" := by decide
  have hmiddle : "'" ++ (", found " ++ "'") = "', found '" := by decide
  show "Expected one of the chars " ++ ("'" ++ t ++ "'") ++ ", found " ++
    ("'" ++ String.singleton d ++ "'") = _
  rw [← hopen, ← hmiddle]
  simp only [String.append_assoc]

/-- **Charset membership is exact.**

The text of a charset is cut in one way into single characters and spans. A character that one of
them names is matched wherever it stands in a stream. Any other is rejected, with the text and the
character as they are.

Every character of the text that is no dash is named. A dash of the text is not named only if every
dash of the text is the middle of a span. What is named and does not stand in the text lies strictly
between two characters of the text with a dash between them. Without dashes, a text names its
characters. -/
theorem membership_exact (cs : Charset) :
    ∃ segs, IsCut cs.text.toList segs ∧ (∀ segs', IsCut cs.text.toList segs' → segs' = segs) ∧
      (∀ (s : Stream) (c : Int) (d : Char), s.get? c = some d →
        (Named segs d → (Primitive.oneOf cs).parser.run s (.int c) =
          pure (.matched (.ofChar d) (.int (c + 1)))) ∧
        (¬ Named segs d → (Primitive.oneOf cs).parser.run s (.int c) =
          pure (.err (.text ("Expected one of the chars '" ++ cs.text ++ "', found '" ++
            String.singleton d ++ "'"))))) ∧
      (∀ d ∈ cs.text.toList, d ≠ '-' → Named segs d) ∧
      (¬ Named segs '-' → ∀ u v, cs.text.toList = u ++ '-' :: v →
        ∃ before x y after, segs = before ++ .span x y :: after ∧
          u = before.flatMap Segment.chars ++ [x] ∧ v = y :: after.flatMap Segment.chars) ∧
      (∀ d, Named segs d → d ∉ cs.text.toList →
        ∃ x y, [x, '-', y] <:+: cs.text.toList ∧ x < d ∧ d < y) ∧
      ('-' ∉ cs.text.toList → ∀ d, Named segs d ↔ d ∈ cs.text.toList) := by
  have hcut := isCut_segmentsOf cs.text.toList
  refine ⟨segmentsOf cs.text.toList, hcut, fun segs' h => h.unique hcut, ?_,
    fun d hd => hcut.named_of_mem hd, fun hnot u v => hcut.span_of_not_named hnot,
    fun d hd => hcut.exists_between hd, fun hdash d => hcut.named_iff_mem hdash⟩
  intro s c d hd
  constructor
  · intro hnamed
    rw [run_oneOf cs hd, if_pos ((accepts_iff cs).mpr hnamed)]
  · intro hnot
    rw [run_oneOf cs hd, if_neg (mt (accepts_iff cs).mp hnot), message_notInCharset]

end Charset

end CursorParsers
