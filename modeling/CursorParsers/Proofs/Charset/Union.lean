import CursorParsers.Proofs.Charset.Membership

/-!
# Joined charsets

A charset is read with two characters looked ahead, so what is read of a text could change when
another text is put behind it. It does not if there is no dash on either side of the seam: a span
that reaches over the seam would need one there. Then the cut of the joined text is the two cuts one
after another, and joining charsets is taking the union of what they name.

## Main definitions

* `Charset.Matches`: the parser of a charset matches at a position
* `Charset.Undashed`: a charset that neither begins nor ends with a dash
* `Charset.joined`: the texts of several charsets, one after another

## Main results

* `Charset.segmentsOf_append`: the segments of a joined text
* `Charset.union_of_joined`: joined charsets name what one of them names, in whatever order
-/

namespace CursorParsers

/-- A text put behind does not change which segment is taken at the front, unless there is a
dash at the seam. -/
theorem Segment.TakenAt.append {cs ds : List Char} {seg : Segment} (h : seg.TakenAt cs 0)
    (hlast : cs.getLast? ≠ some '-') (hfirst : ds.head? ≠ some '-') : seg.TakenAt (cs ++ ds) 0 := by
  cases seg with
  | span x y =>
    obtain ⟨hx, hdash, hy, hle⟩ := h
    have hlength : 2 < cs.length := List.getElem?_eq_some_iff.mp hy |>.1
    have hfront {i : ℕ} (hi : i < cs.length) : (cs ++ ds)[i]? = cs[i]? :=
      List.getElem?_append_left hi
    exact ⟨(hfront (by omega)).trans hx, (hfront (by omega)).trans hdash,
      (hfront hlength).trans hy, hle⟩
  | single x =>
    obtain ⟨hx, hno⟩ := h
    -- The dash of a span would be in the text behind, or the last character of the one in front.
    match cs with
    | [] => simp at hx
    | [_] =>
      refine ⟨hx, fun y hdash _ => absurd ?_ hfirst⟩
      rw [List.head?_eq_getElem?]
      exact hdash
    | [_, _] => exact ⟨hx, fun y hdash _ => absurd hdash hlast⟩
    | _ :: _ :: _ :: _ => exact ⟨hx, hno⟩

namespace Charset

variable {cs ds : List Char} {segs segs' : List Segment} {d : Char} {s : Stream} {c : Int}

theorem getLast?_ne_of_append {cs ds : List Char} {d : Char} (h : (cs ++ ds).getLast? ≠ some d) :
    ds.getLast? ≠ some d := by
  intro hd
  rw [List.getLast?_append, hd] at h
  exact h rfl

/-- Without a dash at the seam, a joined text is cut where its parts are. -/
theorem IsCut.append (h : IsCut cs segs) (h' : IsCut ds segs') (hlast : cs.getLast? ≠ some '-')
    (hfirst : ds.head? ≠ some '-') : IsCut (cs ++ ds) (segs ++ segs') := by
  induction segs generalizing cs with
  | nil =>
    obtain rfl := h.whole
    exact h'
  | cons seg segs ih =>
    obtain ⟨htaken, rest, rfl, hrest⟩ := isCut_cons_iff.mp h
    refine isCut_cons_iff.mpr ⟨htaken.append hlast hfirst, rest ++ ds, List.append_assoc _ _ _, ?_⟩
    exact ih hrest (getLast?_ne_of_append hlast)

theorem segmentsOf_append (hlast : cs.getLast? ≠ some '-') (hfirst : ds.head? ≠ some '-') :
    segmentsOf (cs ++ ds) = segmentsOf cs ++ segmentsOf ds :=
  (isCut_iff.mp ((isCut_segmentsOf cs).append (isCut_segmentsOf ds) hlast hfirst)).symm

/-- A dash at the seam would make a span of what was none. -/
example : segmentsOf ("a-".toList ++ "z".toList) = [.span 'a' 'z'] ∧
    segmentsOf "a-".toList ++ segmentsOf "z".toList = [.single 'a', .single '-', .single 'z'] := by
  decide

/-! ### Matching -/

/-- A charset matches at a position of a stream if its parser does. -/
def Matches (cs : Charset) (s : Stream) (c : Int) : Prop :=
  ∃ v n, ((Primitive.oneOf cs).parser.run s (.int c)).outcome = .ok (.matched v n)

theorem matches_iff (cs : Charset) : cs.Matches s c ↔ ∃ d, s.get? c = some d ∧ cs.accepts d := by
  cases hd : s.get? c with
  | none =>
    refine iff_of_false ?_ (by simp)
    rintro ⟨v, n, hrun⟩
    obtain ⟨reason, hfetch⟩ : ∃ reason, s.fetch c = .error reason := by
      cases hfetch : s.fetch c with
      | error reason => exact ⟨reason, rfl⟩
      | ok d =>
        rw [Stream.fetch_eq_ok_iff, hd] at hfetch
        cases hfetch
    have hread : (Primitive.oneOf cs).read s (.int c) = .ok (.error (.missing reason)) := by
      rw [Primitive.read, Primitive.readChar_int, hfetch]
    rw [Primitive.run_parser_of_read hread] at hrun
    cases Except.ok.inj hrun
  | some d =>
    rw [Matches, run_oneOf cs hd]
    by_cases h : cs.accepts d
    · rw [if_pos h]
      exact iff_of_true ⟨_, _, rfl⟩ ⟨d, rfl, h⟩
    · rw [if_neg h]
      refine iff_of_false ?_ ?_
      · rintro ⟨v, n, hrun⟩
        cases Except.ok.inj hrun
      · rintro ⟨d', hd', haccepts⟩
        exact h (Option.some.inj hd' ▸ haccepts)

theorem accepts_eq_any (cs : Charset) (d : Char) :
    cs.accepts d = (segmentsOf cs.text.toList).any (·.accepts d) := rfl

theorem build_of_ne_empty {t : String} (h : t ≠ "") : build t = .ok ⟨t, h⟩ := dif_neg h

theorem toList_text_ne_nil (cs : Charset) : cs.text.toList ≠ [] :=
  mt String.toList_eq_nil_iff.mp cs.nonempty

/-! ### Several charsets -/

/-- A charset that neither begins nor ends with a dash. -/
def Undashed (cs : Charset) : Prop :=
  cs.text.toList.head? ≠ some '-' ∧ cs.text.toList.getLast? ≠ some '-'

instance (cs : Charset) : Decidable cs.Undashed := inferInstanceAs (Decidable (_ ∧ _))

/-- The texts of several charsets, one after another. -/
def joined (l : List Charset) : String := String.join (l.map text)

theorem toList_joined (l : List Charset) :
    (joined l).toList = l.flatMap fun cs => cs.text.toList := by
  rw [joined, String.toList_join, List.flatMap_map]

theorem joined_ne_empty {l : List Charset} (h : l ≠ []) : joined l ≠ "" := by
  obtain ⟨cs, l, rfl⟩ := List.exists_cons_of_ne_nil h
  intro hempty
  have hlist := congrArg String.toList hempty
  rw [toList_joined, List.flatMap_cons] at hlist
  exact cs.toList_text_ne_nil (List.append_eq_nil_iff.mp hlist).1

/-- Charsets without dashes at their ends are read one after another. -/
theorem segmentsOf_joined {l : List Charset} (h : ∀ cs ∈ l, cs.Undashed) :
    segmentsOf (joined l).toList = l.flatMap segments := by
  rw [toList_joined]
  induction l with
  | nil => rfl
  | cons cs l ih =>
    have hrest := ih fun ct hct => h ct (List.mem_cons_of_mem cs hct)
    have hlast := (h cs List.mem_cons_self).2
    have hfirst : (l.flatMap fun cs => cs.text.toList).head? ≠ some '-' := by
      cases l with
      | nil => exact nofun
      | cons ct l =>
        have hhead := (h ct (by simp)).1
        obtain ⟨x, xs, hct⟩ := List.exists_cons_of_ne_nil ct.toList_text_ne_nil
        rw [hct] at hhead
        rw [List.flatMap_cons, hct]
        exact hhead
    rw [List.flatMap_cons, List.flatMap_cons, segmentsOf_append hlast hfirst, hrest]
    rfl

theorem accepts_joined_iff {l : List Charset} (h : ∀ cs ∈ l, cs.Undashed) {all : Charset}
    (hall : all.text = joined l) : all.accepts d ↔ ∃ cs ∈ l, cs.accepts d := by
  rw [accepts_eq_any, hall, segmentsOf_joined h, List.any_flatMap, List.any_eq_true]
  rfl

/-- **Joining charsets is taking their union.**

If the first of two charsets does not end with a dash and the second does not begin with one, their
joined text is a charset that accepts what one of them accepts, and matches where one of them does.

So charsets that neither begin nor end with a dash can be joined in any order: what is accepted is
what one of them accepts. Only no charsets at all join to no charset. -/
theorem union_of_joined :
    (∀ cs ct : Charset, cs.text.toList.getLast? ≠ some '-' → ct.text.toList.head? ≠ some '-' →
      ∃ both, build (cs.text ++ ct.text) = .ok both ∧
        (∀ d, both.accepts d ↔ cs.accepts d ∨ ct.accepts d) ∧
        ∀ s c, both.Matches s c ↔ cs.Matches s c ∨ ct.Matches s c) ∧
    ∀ l l' : List Charset, (∀ cs ∈ l, cs.Undashed) → l.Perm l' →
      (l = [] ∧ build (joined l) = .error .emptyCharset ∧
        build (joined l') = .error .emptyCharset) ∨
      ∃ all all', build (joined l) = .ok all ∧ build (joined l') = .ok all' ∧
        (∀ d, all.accepts d ↔ ∃ cs ∈ l, cs.accepts d) ∧
        (∀ d, all'.accepts d ↔ all.accepts d) ∧ ∀ s c, all'.Matches s c ↔ all.Matches s c := by
  refine ⟨fun cs ct hlast hfirst => ?_, fun l l' hl hperm => ?_⟩
  · have hne : cs.text ++ ct.text ≠ "" := fun h => cs.nonempty (String.append_eq_empty_iff.mp h).1
    have haccepts (d : Char) :
        accepts ⟨cs.text ++ ct.text, hne⟩ d ↔ cs.accepts d ∨ ct.accepts d := by
      rw [accepts_eq_any, String.toList_append, segmentsOf_append hlast hfirst, List.any_append,
        Bool.or_eq_true]
      rfl
    refine ⟨_, build_of_ne_empty hne, haccepts, fun s c => ?_⟩
    simp only [matches_iff, haccepts, and_or_left, exists_or]
  · by_cases hnil : l = []
    · subst hnil
      obtain rfl := List.nil_perm.mp hperm
      exact .inl ⟨rfl, rfl, rfl⟩
    have hnil' : l' ≠ [] := fun h => hnil (List.perm_nil.mp (h ▸ hperm))
    have haccepts (d : Char) :
        accepts ⟨joined l, joined_ne_empty hnil⟩ d ↔ ∃ cs ∈ l, cs.accepts d :=
      accepts_joined_iff hl rfl
    have haccepts' (d : Char) :
        accepts ⟨joined l', joined_ne_empty hnil'⟩ d ↔
          accepts ⟨joined l, joined_ne_empty hnil⟩ d := by
      rw [haccepts, accepts_joined_iff (fun cs hcs => hl cs (hperm.mem_iff.mpr hcs)) rfl]
      simp only [hperm.mem_iff]
    refine .inr ⟨_, _, build_of_ne_empty _, build_of_ne_empty _, haccepts, haccepts', fun s c => ?_⟩
    simp only [matches_iff, haccepts']

/-- Letters and digits, joined both ways. -/
theorem union_of_joined_word :
    (∃ both, build ("a-z" ++ "0-9_") = .ok both ∧ both.accepts '5' ∧ ¬ both.accepts '-') ∧
      ∃ all all', build (joined [⟨"a-z", by decide⟩, ⟨"0-9_", by decide⟩]) = .ok all ∧
        build (joined [⟨"0-9_", by decide⟩, ⟨"a-z", by decide⟩]) = .ok all' ∧
        all'.accepts 'm' ∧ all.accepts 'm' := by
  constructor
  · obtain ⟨both, hbuild, haccepts, -⟩ :=
      union_of_joined.1 ⟨"a-z", by decide⟩ ⟨"0-9_", by decide⟩ (by decide) (by decide)
    exact ⟨both, hbuild, (haccepts '5').mpr (by decide), mt (haccepts '-').mp (by decide)⟩
  · obtain ⟨hnil, -⟩ | ⟨all, all', hall, hall', haccepts, hsame, -⟩ :=
      union_of_joined.2 [⟨"a-z", by decide⟩, ⟨"0-9_", by decide⟩]
        [⟨"0-9_", by decide⟩, ⟨"a-z", by decide⟩] (by decide) (.swap _ _ _)
    · exact absurd hnil (List.cons_ne_nil _ _)
    · have hm : all.accepts 'm' := (haccepts 'm').mpr ⟨⟨"a-z", by decide⟩, by simp, by decide⟩
      exact ⟨all, all', hall, hall', (hsame 'm').mpr hm, hm⟩

end Charset

end CursorParsers
