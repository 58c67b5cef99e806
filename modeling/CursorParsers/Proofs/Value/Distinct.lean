import CursorParsers.Proofs.Value.Equality
import CursorParsers.Value.Query
import Mathlib.Data.Set.Card

/-!
# Digests and sets of values

Equal values have the same digest, so a set finds a value again whichever of its equals was put in.
A set keeps the first value of each class of equal values, and that is one for each class.

A value has no digest exactly when there is a list somewhere inside it. Equal values agree about
that too, since equality sees lists.

## Main definitions

* `Value.classOf`: the values equal to a value
* `Value.keep`: a set after one more value

## Main results

* `Value.digest?_eq_none_iff`: which values have no digest
* `Value.digest_of_equals`: digests of equal values
* `Value.length_distinct`, `Value.any_sameElement_distinct`: the size of a set and its elements
* `Value.equality_respected`: equality is an equivalence that digest, truth and sets respect
-/

namespace CursorParsers

namespace Value

/-! ### Values without a digest -/

theorem digestEach?_eq_none_iff {vs : List Value} :
    digestEach? vs = none ↔ ∃ v ∈ vs, v.digest? = none := by
  induction vs with
  | nil => simp [digestEach?]
  | cons v vs ih =>
    cases hv : v.digest? <;> simp [digestEach?, hv, ih]

theorem digest?_fill_eq_none {v : Value} (h : v.digest? = none) (f : Frame) :
    (f.fill v).digest? = none := by
  have entry (before after : List Value) : digestEach? (before ++ v :: after) = none :=
    digestEach?_eq_none_iff.mpr ⟨v, List.mem_append_right before List.mem_cons_self, h⟩
  cases f <;> simp only [Frame.fill, digest?, h, entry, Option.map_none]

theorem digest?_plug_eq_none {v : Value} (h : v.digest? = none) (fs : List Frame) :
    (plug fs v).digest? = none := by
  induction fs generalizing v with
  | nil => exact h
  | cons f fs ih => exact ih (digest?_fill_eq_none h f)

/-- There is a list inside a value, or it is one. -/
def HoldsList (v : Value) : Prop := ∃ fs ws, v = plug fs (.list ws)

theorem HoldsList.fill {v : Value} (h : v.HoldsList) (f : Frame) : (f.fill v).HoldsList := by
  rcases h with ⟨fs, ws, rfl⟩
  refine ⟨fs ++ [f], ws, ?_⟩
  rw [plug, plug, List.foldl_append, List.foldl_cons, List.foldl_nil]

theorem exists_list_entry {vs : List Value}
    (ih : ∀ v ∈ vs, v.digest? = none → v.HoldsList) (h : digestEach? vs = none) :
    ∃ before v after, vs = before ++ v :: after ∧ v.HoldsList := by
  rcases digestEach?_eq_none_iff.mp h with ⟨v, hv, hnone⟩
  rcases List.append_of_mem hv with ⟨before, after, hvs⟩
  exact ⟨before, v, after, hvs, ih v hv hnone⟩

/-- Just the values with a **list inside** have no digest. -/
theorem digest?_eq_none_iff (v : Value) : v.digest? = none ↔ v.HoldsList := by
  constructor
  · intro h
    induction v using rec_on_entries with
    | list vs _ => exact ⟨[], vs, rfl⟩
    | tuple vs ih =>
      rcases exists_list_entry ih (Option.map_eq_none_iff.mp h) with ⟨before, v, after, rfl, hv⟩
      exact hv.fill (.tuple before after)
    | union vs ih =>
      rcases exists_list_entry ih (Option.map_eq_none_iff.mp h) with ⟨before, v, after, rfl, hv⟩
      exact hv.fill (.union before after)
    | ok v ih => exact (ih (Option.map_eq_none_iff.mp h)).fill .ok
    | err v ih => exact (ih (Option.map_eq_none_iff.mp h)).fill .err
    | some v ih => exact (ih (Option.map_eq_none_iff.mp h)).fill .some
    | _ => simp only [digest?, reduceCtorEq] at h
  · rintro ⟨fs, ws, rfl⟩
    exact digest?_plug_eq_none rfl fs

theorem digest_eq_error_iff (v : Value) : v.digest = .error .wrongKind ↔ v.HoldsList := by
  rw [← digest?_eq_none_iff, digest]
  cases v.digest? <;> simp [orWrongKind]

theorem digest?_isSome {v : Value} (h : ¬ v.HoldsList) : v.digest?.isSome :=
  Option.isSome_iff_ne_none.mpr fun hnone => h ((digest?_eq_none_iff v).mp hnone)

/-! ### Digests of equal values -/

theorem agrees_ofNumber {n : Number} (h : n.value?.isSome) :
    (Digest.ofNumber n).agrees (Digest.ofNumber n) := by
  rcases Option.isSome_iff_exists.mp h with ⟨x, hx⟩
  simp [Digest.ofNumber, hx, Digest.agrees]

theorem agrees_tuple_single {d : Digest} (h : d.agrees d) :
    (Digest.tuple [d]).agrees (.tuple [d]) := by
  simpa only [Digest.agrees, Digest.agreesEach, Bool.and_true] using h

theorem agrees_wrapped {x : Option Digest} {d : Digest}
    (ih : ∀ {e}, x = Option.some e → e.agrees e)
    (h : (x.map fun e => Digest.tuple [e]) = Option.some d) : d.agrees d := by
  rcases Option.map_eq_some_iff.mp h with ⟨e, he, rfl⟩
  exact agrees_tuple_single (ih he)

theorem agreesEach_digests {vs : List Value} {ds : List Digest}
    (ih : ∀ v ∈ vs, v.isDefinite → ∀ {d}, v.digest? = Option.some d → d.agrees d)
    (hd : areDefinite vs) (h : digestEach? vs = Option.some ds) : Digest.agreesEach ds ds := by
  induction vs generalizing ds with
  | nil =>
    cases h
    rfl
  | cons v vs ihvs =>
    rcases List.forall_mem_cons.mp ih with ⟨hv, hvs⟩
    rcases Bool.and_eq_true_iff.mp hd with ⟨hdv, hdvs⟩
    simp only [digestEach?, Option.bind_eq_some_iff, Option.map_eq_some_iff] at h
    rcases h with ⟨d, hdig, es, hdigs, rfl⟩
    exact Bool.and_eq_true_iff.mpr ⟨hv hdv hdig, ihvs hvs hdvs hdigs⟩

/-- The digest of a value in which every number has a value agrees with itself. -/
theorem agrees_digest {v : Value} (hd : v.isDefinite) {d : Digest}
    (h : v.digest? = Option.some d) : d.agrees d := by
  induction v using rec_on_entries generalizing d with
  | tuple vs ih =>
    rcases Option.map_eq_some_iff.mp h with ⟨ds, hds, rfl⟩
    exact agreesEach_digests ih hd hds
  | union vs ih =>
    rcases Option.map_eq_some_iff.mp h with ⟨ds, hds, rfl⟩
    exact agrees_tuple_single (agreesEach_digests ih hd hds)
  | ok v ih => exact agrees_wrapped (ih hd) h
  | err v ih => exact agrees_wrapped (ih hd) h
  | some v ih => exact agrees_wrapped (ih hd) h
  | list vs _ => cases h
  | number n =>
    cases h
    exact agrees_ofNumber hd
  | bool b =>
    cases h
    exact agrees_ofNumber rfl
  | stream s =>
    cases h
    have hlen : (Digest.ofNumber (.int s.length)).agrees _ := agrees_ofNumber rfl
    simp only [Digest.agrees, Digest.agreesEach, hlen, decide_true, Bool.and_true]
  | range b =>
    cases h
    rcases Bool.and_eq_true_iff.mp hd with ⟨hmin, hmax⟩
    simp only [Digest.agrees, Digest.agreesEach, agrees_ofNumber hmin, agrees_ofNumber hmax,
      Bool.and_true]
  | text s =>
    cases h
    exact decide_eq_true rfl
  | _ =>
    cases h
    rfl

/-- **Equal values** either both have no digest, or have digests that agree. -/
theorem digest_of_equals {v w : Value} (h : v.equals w) :
    v.digest = .error .wrongKind ∧ w.digest = .error .wrongKind ∨
      ∃ d e, v.digest = .ok d ∧ w.digest = .ok e ∧ d.agrees e := by
  rcases equals_iff.mp h with ⟨hd, hvw⟩
  have hw : w.digest? = v.digest? := by rw [digest?_eq, digest?_eq, hvw]
  rw [digest, digest, hw]
  cases hv : v.digest? with
  | none => exact .inl ⟨rfl, rfl⟩
  | some d => exact .inr ⟨d, d, rfl, rfl, agrees_digest hd hv⟩

theorem isTrue_of_equals {v w : Value} (h : v.equals w) : v.isTrue = w.isTrue := by
  rw [isTrue_eq, isTrue_eq, (equals_iff.mp h).2]

/-! ### Elements of a set -/

/-- For values with a digest a set looks at nothing but equality. -/
theorem sameElement_eq {v : Value} (hv : v.digest?.isSome) (w : Value) :
    v.sameElement w = v.equals w := by
  cases h : v.equals w with
  | false => rw [sameElement, h, Bool.and_false]
  | true =>
    rcases Option.isSome_iff_exists.mp hv with ⟨d, hd⟩
    rcases equals_iff.mp h with ⟨hdef, hvw⟩
    have hw : w.digest? = Option.some d := by rw [digest?_eq, ← hvw, ← digest?_eq, hd]
    have hagree : v.sameDigest? w = Option.some true := by
      simp [sameDigest?, hd, hw, agrees_digest hdef hd]
    rw [sameElement, h, hagree]
    rfl

/-- The values equal to a value. -/
def classOf (v : Value) : Set Value := {w | v.equals w}

theorem classOf_eq_iff {v w : Value} (hv : v.isDefinite) : classOf v = classOf w ↔ v.equals w := by
  constructor
  · intro h
    have hmem : v ∈ classOf w := h ▸ (equals_self v).trans hv
    exact equals_symm hmem
  · intro h
    exact Set.ext fun u => ⟨equals_trans (equals_symm h), equals_trans h⟩

theorem any_equals_iff {v : Value} (hv : v.isDefinite) {vs : List Value} :
    vs.any v.equals ↔ classOf v ∈ vs.map classOf := by
  rw [List.any_eq_true, List.mem_map]
  exact exists_congr fun w => and_congr_right fun _ => (classOf_eq_iff hv).symm.trans eq_comm

/-- What a set keeps after one more value. -/
def keep (kept : List Value) (v : Value) : List Value :=
  if kept.any v.equals then kept else kept ++ [v]

theorem mem_classes_keep {kept : List Value} {v : Value} (hv : v.isDefinite) (c : Set Value) :
    c ∈ (keep kept v).map classOf ↔ c ∈ kept.map classOf ∨ c = classOf v := by
  unfold keep
  split
  case isTrue h =>
    refine ⟨.inl, fun hc => hc.elim id ?_⟩
    rintro rfl
    exact (any_equals_iff hv).mp h
  case isFalse h => rw [List.map_append, List.mem_append, List.map_singleton, List.mem_singleton]

theorem nodup_classes_keep {kept : List Value} {v : Value} (hv : v.isDefinite)
    (h : (kept.map classOf).Nodup) : ((keep kept v).map classOf).Nodup := by
  unfold keep
  split
  case isTrue => exact h
  case isFalse hnew =>
    rw [List.map_append, List.map_singleton]
    have hfresh : classOf v ∉ kept.map classOf := fun hmem => hnew ((any_equals_iff hv).mpr hmem)
    exact h.append (List.nodup_singleton _) (List.disjoint_singleton.mpr hfresh)

theorem mem_classes_foldl_keep {vs : List Value} (hd : ∀ v ∈ vs, v.isDefinite) (kept : List Value)
    (c : Set Value) :
    c ∈ (vs.foldl keep kept).map classOf ↔ c ∈ kept.map classOf ∨ c ∈ vs.map classOf := by
  induction vs generalizing kept with
  | nil => simp
  | cons v vs ih =>
    rcases List.forall_mem_cons.mp hd with ⟨hv, hvs⟩
    rw [List.foldl_cons, ih hvs, mem_classes_keep hv, List.map_cons, List.mem_cons, or_assoc]

theorem nodup_classes_foldl_keep {vs : List Value} (hd : ∀ v ∈ vs, v.isDefinite)
    {kept : List Value} (h : (kept.map classOf).Nodup) :
    ((vs.foldl keep kept).map classOf).Nodup := by
  induction vs generalizing kept with
  | nil => exact h
  | cons v vs ih =>
    rcases List.forall_mem_cons.mp hd with ⟨hv, hvs⟩
    exact ih hvs (nodup_classes_keep hv h)

theorem distinct_eq_foldl_keep {vs : List Value} (h : ∀ v ∈ vs, v.digest?.isSome) :
    distinct vs = vs.foldl keep [] := by
  refine List.foldl_ext _ _ _ fun kept v hv => ?_
  have hsame : v.sameElement = v.equals := funext (sameElement_eq (h v hv))
  rw [hsame, keep]

theorem mem_classes_distinct {vs : List Value} (hd : ∀ v ∈ vs, v.isDefinite)
    (h : ∀ v ∈ vs, v.digest?.isSome) (c : Set Value) :
    c ∈ (distinct vs).map classOf ↔ c ∈ vs.map classOf := by
  rw [distinct_eq_foldl_keep h, mem_classes_foldl_keep hd]
  exact or_iff_right List.not_mem_nil

/-- A set holds **one value for each class** of equal values. -/
theorem length_distinct {vs : List Value} (hd : ∀ v ∈ vs, v.isDefinite)
    (h : ∀ v ∈ vs, v.digest?.isSome) :
    (distinct vs).length = (classOf '' {v | v ∈ vs}).ncard := by
  classical
  have hnodup : ((distinct vs).map classOf).Nodup := by
    rw [distinct_eq_foldl_keep h]
    exact nodup_classes_foldl_keep hd List.nodup_nil
  have hclasses : classOf '' {v | v ∈ vs} = ((distinct vs).map classOf).toFinset := by
    ext c
    rw [List.coe_toFinset, Set.mem_ofPred_eq, mem_classes_distinct hd h, List.mem_map]
    rfl
  rw [hclasses, Set.ncard_coe_finset, List.toFinset_card_of_nodup hnodup, List.length_map]

/-- A value is **found in a set** exactly when one of the values put in equals it. -/
theorem any_sameElement_distinct {vs : List Value} (hd : ∀ v ∈ vs, v.isDefinite)
    (h : ∀ v ∈ vs, v.digest?.isSome) {w : Value} (hw : w.isDefinite) (hdig : w.digest?.isSome) :
    (distinct vs).any w.sameElement ↔ ∃ v ∈ vs, w.equals v := by
  have hsame : w.sameElement = w.equals := funext (sameElement_eq hdig)
  rw [hsame, any_equals_iff hw, mem_classes_distinct hd h, ← any_equals_iff hw, List.any_eq_true]

theorem collect_map_ok {vs : List Value} (h : ∀ v ∈ vs, v.digest?.isSome) :
    collect (vs.map .ok) = .ok (distinct vs) := by
  have hall : (vs.map Except.ok).mapM (fun v : Except Fault Value => do
      let w ← v
      let _ ← w.digest
      return w) = .ok vs := by
    induction vs with
    | nil => rfl
    | cons v vs ih =>
      rcases List.forall_mem_cons.mp h with ⟨hv, hvs⟩
      rcases Option.isSome_iff_exists.mp hv with ⟨d, hd⟩
      rw [List.map_cons, List.mapM_cons, ih hvs]
      simp [digest, orWrongKind, hd, bind, Except.bind, pure, Except.pure]
  rw [collect, hall]
  rfl

/-! ### Equality is respected -/

/-- **Equality of values is respected** by building values, by inequality, digest and truth, and by
sets, which hold one value for each class of equal values. -/
theorem equality_respected [Repertoire] :
    -- it is an equivalence
    (∀ v : Value, v.isDefinite → v.equals v) ∧
    (∀ v w : Value, v.equals w → w.equals v) ∧
    (∀ u v w : Value, u.equals v → v.equals w → u.equals w) ∧
    -- which identifies the unit values, and numbers and truth values of the same exact value
    (∀ w : Value, Value.null.equals w ↔ w = .null ∨ w = .absent) ∧
    (∀ (v w : Value) (m n : Number) (x y : Extended), v.number? = Option.some m →
      w.number? = Option.some n → m.value? = Option.some x → n.value? = Option.some y →
      (v.equals w ↔ x = y)) ∧
    -- and is asked in either order, with inequality as its negation
    (∀ v w : Value, v.answer (.equalTo (.ok w)) = .ok (.bool (v.equals w)) ∧
      v.answer (.equalFrom (.ok w)) = .ok (.bool (v.equals w)) ∧
      v.answer (.unequalTo (.ok w)) = .ok (.bool !v.equals w) ∧
      w.answer (.unequalTo (.ok v)) = .ok (.bool !v.equals w)) ∧
    -- equal parts make equal values, in one place at any depth and in all entries at once
    (∀ (v w : Value) (fs : List Frame), (plug fs v).isDefinite → v.equals w →
      (plug fs v).equals (plug fs w)) ∧
    (∀ vs ws : List Value, List.Forall₂ (fun v w => v.equals w) vs ws →
      (Value.list vs).equals (.list ws) ∧ (Value.tuple vs).equals (.tuple ws) ∧
        (Value.union vs).equals (.union ws)) ∧
    (∀ s t : Stream, (Value.text s.text).equals (.text t.text) →
      (Value.stream s).equals (.stream t)) ∧
    (∀ a b : Range, (Value.number a.min).equals (.number b.min) →
      (Value.number a.max).equals (.number b.max) → (Value.range a).equals (.range b)) ∧
    -- values with a list inside are those without a digest, and equal values agree about it
    (∀ v : Value, v.digest = .error .wrongKind ↔ v.HoldsList) ∧
    (∀ v w : Value, v.equals w →
      (v.digest = .error .wrongKind ∧ w.digest = .error .wrongKind ∨
        ∃ d e, v.digest = .ok d ∧ w.digest = .ok e ∧ d.agrees e) ∧ v.isTrue = w.isTrue) ∧
    -- a set holds one value for each class, and finds it from any of its equals
    (∀ vs : List Value, (∀ v ∈ vs, v.isDefinite ∧ ¬ v.HoldsList) →
      ∃ kept, collect (vs.map .ok) = .ok kept ∧
        kept.length = (classOf '' {v | v ∈ vs}).ncard ∧
        ∀ w : Value, w.isDefinite → ¬ w.HoldsList →
          (kept.any w.sameElement ↔ ∃ v ∈ vs, w.equals v)) := by
  refine ⟨fun v hv => (equals_self v).trans hv, fun v w => equals_symm, fun u v w => equals_trans,
    null_equals_iff, fun v w m n x y => equals_iff_of_number, ?asked, fun v w fs => equals_plug,
    ?entries, fun s t => equals_stream, fun a b => equals_range, digest_eq_error_iff,
    fun v w h => ⟨digest_of_equals h, isTrue_of_equals h⟩, ?sets⟩
  case asked =>
    intro v w
    refine ⟨rfl, ?_, rfl, ?_⟩
    · rw [answer, Except.map, equals_comm]
    · rw [answer, Except.map, equals_comm]
  case entries =>
    intro vs ws h
    have heach := equalsEach_iff_forall₂.mpr h
    exact ⟨heach, heach, heach⟩
  case sets =>
    intro vs h
    have hd : ∀ v ∈ vs, v.isDefinite := fun v hv => (h v hv).1
    have hdig : ∀ v ∈ vs, v.digest?.isSome := fun v hv => digest?_isSome (h v hv).2
    refine ⟨distinct vs, collect_map_ok hdig, length_distinct hd hdig, ?_⟩
    intro w hw hlist
    exact any_sameElement_distinct hd hdig hw (digest?_isSome hlist)

/-- Unit values and ones **in a set**, and a success that a unit value makes. -/
theorem equality_respected_units :
    (Value.ok .null).equals (.ok .absent) ∧
      ∃ kept, collect [.ok .null, .ok (.bool true), .ok .absent, .ok (.int 1)] = .ok kept ∧
        kept.length =
          (classOf '' {v | v ∈ [Value.null, .bool true, .absent, .int 1]}).ncard := by
  rcases equality_respected with ⟨-, -, -, -, -, -, place, -, -, -, holds, -, sets⟩
  have hlist (v : Value) (h : v.digest ≠ .error .wrongKind) : ¬ v.HoldsList :=
    fun hl => h ((holds v).mpr hl)
  rcases sets [.null, .bool true, .absent, .int 1] (by
    intro v hv
    simp only [List.mem_cons, List.not_mem_nil, or_false] at hv
    rcases hv with rfl | rfl | rfl | rfl
    all_goals exact ⟨rfl, hlist _ nofun⟩) with ⟨kept, hcollect, hlength, -⟩
  exact ⟨place .null .absent [.ok] rfl rfl, kept, hcollect, hlength⟩

end Value

end CursorParsers
