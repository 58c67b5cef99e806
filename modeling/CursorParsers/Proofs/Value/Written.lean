import CursorParsers.Proofs.Number.Written
import CursorParsers.Proofs.Text.Quoted
import CursorParsers.Proofs.Value.Content
import CursorParsers.Value.Printer

/-!
# Values known by their written form

Different values have different written forms. The first characters of a written form show the kind
of the value, and its parts follow in order; where a part ends is seen from the part itself. Only a
number may go on with what follows it, so what follows a part has to start with a character that
starts no value: a comma or a closing bracket.

Which characters outside ASCII are shown as they stand is left open. It makes no difference, as long
as both values are written in the same way.

## Main definitions

* `Value.Kind`, `Value.kind`: the kinds of values that written forms show
* `Value.Kind.ofChars?`: the kind of value that some characters start with
* `Value.written`, `Value.writtenEach`: written forms as lists of characters
* `Value.KnownAhead`: a value is known by its written form, whatever follows

## Main results

* `Value.Kind.ofChars?_written`: the first characters show the kind
* `Value.writtenEach_append_inj`: the entries of a sequence are known by their written forms
* `Value.knownAhead`: every value is known by its written form, whatever follows
* `Value.reprWith_inj`: a value is known by its written form
-/

namespace CursorParsers.Value

variable {printable : Char → Bool}

/-! ### Kinds -/

/-- The kinds of values that written forms show. -/
inductive Kind where
  | absent
  | null
  | nothing
  | bool
  | number
  | text
  | list
  | tuple
  | union
  | ok
  | err
  | some
  | stream
  | range

/-- The kind of a value. -/
def kind : Value → Kind
  | .absent => .absent
  | .null => .null
  | .nothing => .nothing
  | .bool _ => .bool
  | .number _ => .number
  | .text _ => .text
  | .list _ => .list
  | .tuple _ => .tuple
  | .union _ => .union
  | .ok _ => .ok
  | .err _ => .err
  | .some _ => .some
  | .stream _ => .stream
  | .range _ => .range

/-- The kind of the value that some characters start with; they may start with none. -/
def Kind.ofChars? : List Char → Option Kind
  | 'N' :: 'o' :: 'n' :: _ => Option.some .absent
  | 'N' :: 'u' :: _ => Option.some .null
  | 'N' :: 'o' :: 't' :: _ => Option.some .nothing
  | 'T' :: _ => Option.some .bool
  | 'F' :: _ => Option.some .bool
  | '\x27' :: _ => Option.some .text
  | '\x22' :: _ => Option.some .text
  | '[' :: _ => Option.some .list
  | '(' :: _ => Option.some .tuple
  | 'U' :: _ => Option.some .union
  | 'O' :: _ => Option.some .ok
  | 'E' :: _ => Option.some .err
  | 'S' :: 'o' :: _ => Option.some .some
  | 'S' :: 't' :: _ => Option.some .stream
  | 'R' :: _ => Option.some .range
  | c :: _ => if Number.isMark c then Option.some .number else none
  | [] => none

theorem Kind.ofChars?_of_isMark {c : Char} (h : Number.isMark c) (rest : List Char) :
    ofChars? (c :: rest) = Option.some .number := by
  unfold ofChars?
  split <;> simp_all only [List.cons.injEq, if_true, reduceCtorEq] <;> cases h

/-! ### Written forms as lists of characters -/

/-- The written form of a value, as a list of characters. -/
def written (printable : Char → Bool) (v : Value) : List Char := (reprWith printable v).toList

/-- The written forms of several values, separated by commas. -/
def writtenEach (printable : Char → Bool) : List Value → List Char
  | [] => []
  | v :: vs => written printable v ++ vs.flatMap fun w => ',' :: ' ' :: written printable w

/-- What stands behind the entries of a tuple or a union. -/
def closing : List Value → List Char
  | [_] => [',', ')']
  | _ => [')']

/-- A sequence of parts is its first part, and then each other part behind a separator. -/
theorem intercalate_cons_eq {α : Type} (separator x : List α) (xs : List (List α)) :
    separator.intercalate (x :: xs) = x ++ xs.flatMap (separator ++ ·) := by
  induction xs generalizing x with
  | nil => simp
  | cons y ys ih =>
    rw [List.intercalate_cons_cons, ih, List.flatMap_cons, List.append_assoc, List.append_assoc]

theorem toList_intercalate_reprEach (vs : List Value) :
    (", ".intercalate (reprEach printable vs)).toList = writtenEach printable vs := by
  rw [String.toList_intercalate, reprEach_eq_map, List.map_map]
  cases vs with
  | nil => rfl
  | cons v vs =>
    rw [List.map_cons, intercalate_cons_eq, List.flatMap_map]
    rfl

theorem toList_enclosed (front middle back : String) :
    (front ++ middle ++ back).toList = front.toList ++ (middle.toList ++ back.toList) := by
  rw [String.toList_append, String.toList_append, List.append_assoc]

theorem toList_parenthesized (vs : List Value) :
    (parenthesized (reprEach printable vs)).toList =
      ['('] ++ (writtenEach printable vs ++ closing vs) := by
  rw [← toList_intercalate_reprEach]
  match vs with
  | [] => exact toList_enclosed "(" _ ")"
  | [v] =>
    show (parenthesized [reprWith printable v]).toList =
      ['('] ++ ((", ".intercalate [reprWith printable v]).toList ++ [',', ')'])
    rw [String.intercalate_singleton]
    exact toList_enclosed "(" _ ",)"
  | v :: w :: vs => exact toList_enclosed "(" _ ")"

/-! ### One equation for each kind -/

theorem written_absent : written printable .absent = "None".toList := rfl

theorem written_null : written printable .null = "Null".toList := rfl

theorem written_nothing : written printable .nothing = "Nothing".toList := rfl

theorem written_bool (b : Bool) :
    written printable (.bool b) = (if b then "True" else "False").toList := rfl

theorem written_number (n : Number) : written printable (.number n) = n.text.toList := rfl

theorem written_text (s : String) :
    written printable (.text s) = (Text.quote printable s).toList := rfl

theorem written_list (vs : List Value) :
    written printable (.list vs) = ['['] ++ (writtenEach printable vs ++ [']']) := by
  rw [← toList_intercalate_reprEach]
  exact toList_enclosed "[" _ "]"

theorem written_tuple (vs : List Value) :
    written printable (.tuple vs) = ['('] ++ (writtenEach printable vs ++ closing vs) :=
  toList_parenthesized vs

theorem written_union (vs : List Value) :
    written printable (.union vs) =
      "Union(".toList ++ (writtenEach printable vs ++ closing vs) := by
  show ("Union" ++ parenthesized (reprEach printable vs)).toList = _
  rw [String.toList_append, toList_parenthesized]
  rfl

theorem written_ok (v : Value) :
    written printable (.ok v) = "Ok(value=".toList ++ (written printable v ++ [')']) :=
  toList_enclosed "Ok(value=" _ ")"

theorem written_err (v : Value) :
    written printable (.err v) = "Err(error=".toList ++ (written printable v ++ [')']) :=
  toList_enclosed "Err(error=" _ ")"

theorem written_some (v : Value) :
    written printable (.some v) = "Some(value=".toList ++ (written printable v ++ [')']) :=
  toList_enclosed "Some(value=" _ ")"

theorem written_stream (s : Stream) :
    written printable (.stream s) = "Stream(text=".toList ++
      ((Text.quote printable s.text).toList ++
        (", length=".toList ++ ((toString s.length).toList ++ [')']))) := by
  show ("Stream(text=" ++ Text.quote printable s.text ++ ", length=" ++ toString s.length ++
    ")").toList = _
  rw [toList_enclosed, toList_enclosed, List.append_assoc, List.append_assoc]
  rfl

theorem written_range (b : Range) :
    written printable (.range b) = "Range(min=".toList ++ (b.min.text.toList ++
      (", max=".toList ++ (b.max.text.toList ++ [')']))) := by
  show ("Range(min=" ++ b.min.text ++ ", max=" ++ b.max.text ++ ")").toList = _
  rw [toList_enclosed, toList_enclosed, List.append_assoc, List.append_assoc]
  rfl

/-- The **first characters** of a written form show the kind of the value. -/
theorem Kind.ofChars?_written (v : Value) (rest : List Char) :
    ofChars? (written printable v ++ rest) = Option.some v.kind := by
  cases v with
  | absent => rw [written_absent]; rfl
  | null => rw [written_null]; rfl
  | nothing => rw [written_nothing]; rfl
  | bool b => rw [written_bool]; cases b <;> rfl
  | number n =>
    obtain ⟨c, cs, h, hc⟩ := n.exists_text_eq_cons
    rw [written_number, h]
    exact ofChars?_of_isMark hc _
  | text s =>
    rw [written_text, Text.quote, String.toList_ofList, Text.quoteList_append]
    rcases Text.quoteOf_eq s.toList with h | h <;> rw [h] <;> rfl
  | list vs => rw [written_list]; rfl
  | tuple vs => rw [written_tuple]; rfl
  | union vs => rw [written_union]; rfl
  | ok v => rw [written_ok]; rfl
  | err v => rw [written_err]; rfl
  | some v => rw [written_some]; rfl
  | stream s => rw [written_stream]; rfl
  | range b => rw [written_range]; rfl

/-! ### What may follow -/

/-- Characters that start no value. -/
def StartsNone (rest : List Char) : Prop := Kind.ofChars? rest = none

/-- Characters that close a sequence: they start no value, and no entry follows. -/
def Closes (rest : List Char) : Prop := StartsNone rest ∧ ∀ more, rest ≠ ',' :: ' ' :: more

theorem StartsNone.not_isMark {rest : List Char} (h : StartsNone rest) :
    ∀ c ∈ rest.head?, Number.isMark c = false := by
  intro c hc
  cases rest with
  | nil => cases hc
  | cons d rest =>
    obtain rfl : d = c := Option.some.inj hc
    refine Bool.eq_false_iff.mpr fun hmark => ?_
    rw [StartsNone, Kind.ofChars?_of_isMark hmark] at h
    cases h

theorem startsNone_nil : StartsNone [] := rfl

theorem startsNone_parenthesis (rest : List Char) : StartsNone (')' :: rest) := rfl

theorem closes_bracket (rest : List Char) : Closes (']' :: rest) := ⟨rfl, fun _ h => by cases h⟩

theorem closes_closing (vs : List Value) (rest : List Char) : Closes (closing vs ++ rest) := by
  match vs with
  | [] => exact ⟨rfl, fun _ h => by cases h⟩
  | [_] => exact ⟨rfl, fun _ h => by cases h⟩
  | _ :: _ :: _ => exact ⟨rfl, fun _ h => by cases h⟩

/-- A value that is known by its written form, whatever follows. -/
def KnownAhead (printable : Char → Bool) (v : Value) : Prop :=
  ∀ {w : Value} {rest rest' : List Char}, StartsNone rest → StartsNone rest' →
    written printable v ++ rest = written printable w ++ rest' → v = w ∧ rest = rest'

theorem kind_eq_of_written {v w : Value} {rest rest' : List Char}
    (h : written printable v ++ rest = written printable w ++ rest') : v.kind = w.kind := by
  have hkind := congrArg Kind.ofChars? h
  rw [Kind.ofChars?_written, Kind.ofChars?_written] at hkind
  exact Option.some.inj hkind

/-- A value that is the only one of its kind. -/
theorem knownAhead_of_unique {v : Value} (hunique : ∀ w : Value, v.kind = w.kind → v = w) :
    KnownAhead printable v := by
  intro w rest rest' _ _ h
  obtain rfl := hunique w (kind_eq_of_written h)
  exact ⟨rfl, List.append_cancel_left h⟩

/-- A value that is made around another, as the only one of its kind. -/
theorem KnownAhead.around {v : Value} {front : List Char} (hv : KnownAhead printable v)
    (make : Value → Value)
    (hmake : ∀ u, written printable (make u) = front ++ (written printable u ++ [')']))
    (hkind : ∀ w : Value, (make v).kind = w.kind → ∃ u, w = make u) :
    KnownAhead printable (make v) := by
  intro w rest rest' _ _ h
  obtain ⟨u, rfl⟩ := hkind w (kind_eq_of_written h)
  rw [hmake, hmake] at h
  simp only [List.append_assoc] at h
  obtain ⟨rfl, htail⟩ := hv (startsNone_parenthesis _) (startsNone_parenthesis _)
    (List.append_cancel_left h)
  exact ⟨rfl, (List.cons.inj htail).2⟩

/-! ### Entries of a sequence -/

section Entries

variable {vs ws : List Value} {rest rest' : List Char}

theorem startsNone_entries (h : Closes rest) :
    StartsNone ((vs.flatMap fun w => ',' :: ' ' :: written printable w) ++ rest) := by
  cases vs with
  | nil => exact h.1
  | cons v vs => rfl

theorem entries_append_inj (hvs : ∀ v ∈ vs, KnownAhead printable v) (hrest : Closes rest)
    (hrest' : Closes rest')
    (h : (vs.flatMap fun w => ',' :: ' ' :: written printable w) ++ rest =
      (ws.flatMap fun w => ',' :: ' ' :: written printable w) ++ rest') :
    vs = ws ∧ rest = rest' := by
  induction vs generalizing ws with
  | nil =>
    cases ws with
    | nil => exact ⟨rfl, h⟩
    | cons w ws => exact absurd h (hrest.2 _)
  | cons v vs ih =>
    cases ws with
    | nil => exact absurd h.symm (hrest'.2 _)
    | cons w ws =>
      obtain ⟨hv, hvs⟩ := List.forall_mem_cons.mp hvs
      simp only [List.flatMap_cons, List.cons_append, List.append_assoc, List.cons.injEq,
        true_and] at h
      obtain ⟨rfl, htail⟩ := hv (startsNone_entries hrest) (startsNone_entries hrest') h
      obtain ⟨rfl, hend⟩ := ih hvs htail
      exact ⟨rfl, hend⟩

/-- The **entries** of a sequence are known by their written forms. -/
theorem writtenEach_append_inj (hvs : ∀ v ∈ vs, KnownAhead printable v) (hrest : Closes rest)
    (hrest' : Closes rest')
    (h : writtenEach printable vs ++ rest = writtenEach printable ws ++ rest') :
    vs = ws ∧ rest = rest' := by
  -- A first entry starts a value, and what closes a sequence does not.
  have hfirst {w : Value} {more cs : List Char} (hcs : Closes cs) :
      written printable w ++ more ≠ cs := by
    rintro rfl
    have hnone := hcs.1
    rw [StartsNone, Kind.ofChars?_written] at hnone
    cases hnone
  cases vs with
  | nil =>
    cases ws with
    | nil => exact ⟨rfl, h⟩
    | cons w ws =>
      rw [writtenEach, writtenEach, List.nil_append, List.append_assoc] at h
      exact absurd h.symm (hfirst hrest)
  | cons v vs =>
    cases ws with
    | nil =>
      rw [writtenEach, writtenEach, List.nil_append, List.append_assoc] at h
      exact absurd h (hfirst hrest')
    | cons w ws =>
      obtain ⟨hv, hvs⟩ := List.forall_mem_cons.mp hvs
      rw [writtenEach, writtenEach, List.append_assoc, List.append_assoc] at h
      obtain ⟨rfl, htail⟩ := hv (startsNone_entries hrest) (startsNone_entries hrest') h
      obtain ⟨rfl, hend⟩ := entries_append_inj hvs hrest hrest' htail
      exact ⟨rfl, hend⟩

/-- A value that is made of entries, as the only one of its kind. -/
theorem knownAhead_of_entries {front : List Char} {close : List Value → List Char}
    (make : List Value → Value)
    (hmake : ∀ us, written printable (make us) = front ++ (writtenEach printable us ++ close us))
    (hclose : ∀ us rest, Closes (close us ++ rest))
    (hkind : ∀ w : Value, (make vs).kind = w.kind → ∃ us, w = make us)
    (hvs : ∀ v ∈ vs, KnownAhead printable v) : KnownAhead printable (make vs) := by
  intro w rest rest' _ _ h
  obtain ⟨us, rfl⟩ := hkind w (kind_eq_of_written h)
  rw [hmake, hmake] at h
  simp only [List.append_assoc] at h
  obtain ⟨rfl, htail⟩ := writtenEach_append_inj hvs (hclose vs rest) (hclose us rest')
    (List.append_cancel_left h)
  exact ⟨rfl, List.append_cancel_left htail⟩

end Entries

/-! ### All values -/

theorem knownAhead_stream (s : Stream) : KnownAhead printable (.stream s) := by
  intro w rest rest' _ _ h
  cases w with
  | stream t =>
    rw [written_stream, written_stream] at h
    simp only [List.append_assoc] at h
    obtain ⟨htext, htail⟩ := Text.quote_append_inj (List.append_cancel_left h)
    obtain rfl : s = t := by rw [← Stream.ofText_text s, htext, Stream.ofText_text]
    have hend := List.append_cancel_left (List.append_cancel_left htail)
    exact ⟨rfl, List.append_cancel_left hend⟩
  | _ => cases kind_eq_of_written h

/-- A range shows both of its bounds, and nothing else makes a difference. -/
theorem knownAhead_range (a : Range) : KnownAhead printable (.range a) := by
  intro w rest rest' _ _ h
  cases w with
  | range b =>
    rw [written_range, written_range] at h
    simp only [List.append_assoc] at h
    have hcomma (more : List Char) : StartsNone (", max=".toList ++ more) := rfl
    obtain ⟨hmin, htail⟩ := Number.text_append_inj (hcomma _).not_isMark (hcomma _).not_isMark
      (List.append_cancel_left h)
    obtain ⟨hmax, hend⟩ := Number.text_append_inj (startsNone_parenthesis _).not_isMark
      (startsNone_parenthesis _).not_isMark (List.append_cancel_left htail)
    obtain rfl : a = b := by
      rcases a with ⟨min, max, _, _⟩
      rcases b with ⟨min', max', _, _⟩
      obtain rfl : min = min' := hmin
      obtain rfl : max = max' := hmax
      rfl
    exact ⟨rfl, (List.cons.inj hend).2⟩
  | _ => cases kind_eq_of_written h

theorem knownAhead_bool (a : Bool) : KnownAhead printable (.bool a) := by
  intro w rest rest' _ _ h
  cases w with
  | bool b =>
    obtain rfl : a = b := by
      rw [written_bool, written_bool] at h
      have hhead := congrArg List.head? h
      cases a <;> cases b <;> first | rfl | cases hhead
    exact ⟨rfl, List.append_cancel_left h⟩
  | _ => cases kind_eq_of_written h

theorem knownAhead_number (n : Number) : KnownAhead printable (.number n) := by
  intro w rest rest' hrest hrest' h
  cases w with
  | number m =>
    rw [written_number, written_number] at h
    obtain ⟨rfl, hend⟩ := Number.text_append_inj hrest.not_isMark hrest'.not_isMark h
    exact ⟨rfl, hend⟩
  | _ => cases kind_eq_of_written h

theorem knownAhead_text (s : String) : KnownAhead printable (.text s) := by
  intro w rest rest' _ _ h
  cases w with
  | text t =>
    rw [written_text, written_text] at h
    obtain ⟨rfl, hend⟩ := Text.quote_append_inj h
    exact ⟨rfl, hend⟩
  | _ => cases kind_eq_of_written h

/-- Every value is **known by its written form**, whatever follows. -/
theorem knownAhead (v : Value) : KnownAhead printable v := by
  induction v using rec_on_entries with
  | absent => exact knownAhead_of_unique fun w h => by cases w <;> first | rfl | cases h
  | null => exact knownAhead_of_unique fun w h => by cases w <;> first | rfl | cases h
  | nothing => exact knownAhead_of_unique fun w h => by cases w <;> first | rfl | cases h
  | bool b => exact knownAhead_bool b
  | number n => exact knownAhead_number n
  | text s => exact knownAhead_text s
  | list vs ih =>
    refine knownAhead_of_entries .list written_list (fun _ => closes_bracket) ?_ ih
    intro w h
    cases w with
    | list us => exact ⟨us, rfl⟩
    | _ => cases h
  | tuple vs ih =>
    refine knownAhead_of_entries .tuple written_tuple closes_closing ?_ ih
    intro w h
    cases w with
    | tuple us => exact ⟨us, rfl⟩
    | _ => cases h
  | union vs ih =>
    refine knownAhead_of_entries .union written_union closes_closing ?_ ih
    intro w h
    cases w with
    | union us => exact ⟨us, rfl⟩
    | _ => cases h
  | ok v ih =>
    refine ih.around .ok written_ok ?_
    intro w h
    cases w with
    | ok u => exact ⟨u, rfl⟩
    | _ => cases h
  | err v ih =>
    refine ih.around .err written_err ?_
    intro w h
    cases w with
    | err u => exact ⟨u, rfl⟩
    | _ => cases h
  | some v ih =>
    refine ih.around .some written_some ?_
    intro w h
    cases w with
    | some u => exact ⟨u, rfl⟩
    | _ => cases h
  | stream s => exact knownAhead_stream s
  | range b => exact knownAhead_range b

/-- A value is **known by its written form**. -/
theorem reprWith_inj {v w : Value} : reprWith printable v = reprWith printable w ↔ v = w := by
  refine ⟨fun h => ?_, congrArg _⟩
  have hlist : written printable v ++ [] = written printable w ++ [] := by
    rw [written, written, h]
  exact (v.knownAhead startsNone_nil startsNone_nil hlist).1

end CursorParsers.Value
