import CursorParsers.Log
import CursorParsers.Proofs.Value.Outside

/-!
# Messages that show a value

The messages of some faults and records show a value in its written form. The value is known by such
a message, since nothing in the written form can be taken for a part of the message around it.

The name in the record of a match may be any text, so it may contain what looks like the rest of
such a message. Still the message does not fit two names: behind the colon that follows the name all
is balanced, and no colon inside a written form has balanced characters behind it.

## Main results

* `Record.message_parsed_inj`, `Record.message_matched_iff`: what two records with the same message
  have in common
* `Value.repr_unambiguous`: a value is known by its written form, and by the messages that show it
-/

namespace CursorParsers

theorem enclosed_inj {front back s t : String} (h : front ++ s ++ back = front ++ t ++ back) :
    s = t := by
  have hlist := congrArg String.toList h
  rw [Value.toList_enclosed, Value.toList_enclosed] at hlist
  exact String.toList_inj.mp (List.append_cancel_right (List.append_cancel_left hlist))

/-! ### Faults -/

namespace Fault

variable [Repertoire] {v w : Value}

theorem message_unwrappedErr_inj :
    (unwrappedErr v).message = (unwrappedErr w).message ↔ v = w :=
  ⟨fun h => Value.reprWith_inj.mp (enclosed_inj h), fun h => h ▸ rfl⟩

theorem message_unwrappedOk_inj :
    (unwrappedOk v).message = (unwrappedOk w).message ↔ v = w :=
  ⟨fun h => Value.reprWith_inj.mp (enclosed_inj h), fun h => h ▸ rfl⟩

/-- What a fault complains about, a failure or a success, is told by its first words. -/
theorem message_unwrappedErr_ne_unwrappedOk :
    (unwrappedErr v).message ≠ (unwrappedOk w).message := by
  intro h
  have hlist : ("Called unwrap on Err(" ++ v.repr ++ ")").toList =
      ("Called unwrap_err on Ok(" ++ w.repr ++ ")").toList := congrArg String.toList h
  rw [Value.toList_enclosed, Value.toList_enclosed] at hlist
  have hwords := congrArg (List.take 14) hlist
  rw [List.take_append_of_le_length (by decide), List.take_append_of_le_length (by decide)]
    at hwords
  exact absurd hwords (by decide)

end Fault

theorem Number.space_not_mem_text (n : Number) : ' ' ∉ n.text.toList := by
  intro h
  cases isMark_of_mem_text h

namespace Record

variable [Repertoire] {name name' : String} {m n : Nat} {v w next next' : Value} {text : String}

/-! ### A text that was parsed -/

theorem toList_message_parsed (n : Nat) (v : Value) :
    ("Parsed input of " ++ toString n ++ " chars, result " ++ v.repr).toList =
      "Parsed input of ".toList ++ ((Number.int n).text.toList ++
        (" chars, result ".toList ++ v.repr.toList)) := by
  rw [String.toList_append, Value.toList_enclosed, List.append_assoc, List.append_assoc]
  rfl

/-- The message about a text that was parsed tells its **length and the result**. -/
theorem message_parsed_inj :
    (parsed m v).message = (parsed n w).message ↔ m = n ∧ v = w := by
  refine ⟨fun h => ?_, fun ⟨hlength, hvalue⟩ => hlength ▸ hvalue ▸ rfl⟩
  have hlist := congrArg String.toList (Except.ok.inj h)
  rw [toList_message_parsed, toList_message_parsed] at hlist
  have hspace (more : List Char) :
      ∀ c ∈ (" chars, result ".toList ++ more).head?, Number.isMark c = false := by
    rintro c ⟨⟩
    rfl
  obtain ⟨hlength, hvalue⟩ := Number.text_append_inj (hspace _) (hspace _)
    (List.append_cancel_left hlist)
  have hrepr := String.toList_inj.mp (List.append_cancel_left hvalue)
  exact ⟨Int.ofNat.inj (Number.int.inj hlength), Value.reprWith_inj.mp hrepr⟩

/-! ### A match -/

/-- The record of a match can be written if the next position is a finite number. -/
theorem message_matched_eq_ok_iff : (matched name v next).message = .ok text ↔
    ∃ position, next.truncate = .ok position ∧
      text = name ++ ": matched " ++ v.repr ++ ", next cursor " ++ toString position := by
  rw [message]
  cases next.truncate with
  | error cause => simp [bind, Except.bind]
  | ok position => simp [bind, Except.bind, pure, Except.pure, eq_comm]

/-- The message in front of the space that stands before the next position. -/
theorem toList_message_matched (name : String) (v : Value) (position : Int) :
    (name ++ ": matched " ++ v.repr ++ ", next cursor " ++ toString position).toList =
      name.toList ++ ':' :: (" matched ".toList ++ v.repr.toList) ++ ", next cursor".toList ++
        ' ' :: (Number.int position).text.toList := by
  simp only [String.toList_append, List.append_assoc]
  rfl

/-- Two matches that leave **the same message** have the name, the value and the next position in
common. -/
theorem message_matched_iff :
    (∃ text, (matched name v next).message = .ok text ∧
      (matched name' w next').message = .ok text) ↔
    name = name' ∧ v = w ∧
      ∃ position, next.truncate = .ok position ∧ next'.truncate = .ok position := by
  simp only [message_matched_eq_ok_iff]
  constructor
  · rintro ⟨text, ⟨position, hposition, rfl⟩, position', hposition', htext⟩
    have hlist := congrArg String.toList htext
    rw [toList_message_matched, toList_message_matched] at hlist
    obtain ⟨hfront, hback⟩ := Text.split_inj (P := fun cs => ' ' ∉ cs)
      (fun hcs => absurd (List.mem_append_right _ List.mem_cons_self) hcs)
      (Number.space_not_mem_text _) (Number.space_not_mem_text _) hlist
    obtain rfl := Number.text_int_inj.mp (String.toList_inj.mp hback)
    have hbalanced (u : Value) : Text.Balanced (" matched ".toList ++ u.repr.toList) :=
      (Text.balanced_of_isPlain rfl).append u.balanced_written
    obtain ⟨hname, hvalue⟩ := (hbalanced v).colon_append_inj (hbalanced w)
      (List.append_cancel_right hfront)
    have hrepr := String.toList_inj.mp (List.append_cancel_left hvalue)
    exact ⟨String.toList_inj.mp hname, Value.reprWith_inj.mp hrepr, position, hposition, hposition'⟩
  · rintro ⟨rfl, rfl, position, hposition, hposition'⟩
    exact ⟨_, ⟨position, hposition, rfl⟩, position, hposition', rfl⟩

end Record

/-- **A written form is unambiguous.**

Whichever characters outside ASCII are shown as they stand, two values have the same written form
only if they are the same value. So in every repertoire a value is known by the message of a fault
that shows it, and no such message shows a failure as well as a success. It is known by the record
of a text that was parsed, together with the length of that text; and by the record of a match,
together with the name and the next position, whatever the name contains. -/
theorem Value.repr_unambiguous [Repertoire] :
    (∀ (printable : Char → Bool) (v w : Value),
      reprWith printable v = reprWith printable w ↔ v = w) ∧
    (∀ v w : Value, (Fault.unwrappedErr v).message = (Fault.unwrappedErr w).message ↔ v = w) ∧
    (∀ v w : Value, (Fault.unwrappedOk v).message = (Fault.unwrappedOk w).message ↔ v = w) ∧
    (∀ v w : Value, (Fault.unwrappedErr v).message ≠ (Fault.unwrappedOk w).message) ∧
    (∀ (m n : Nat) (v w : Value),
      (Record.parsed m v).message = (Record.parsed n w).message ↔ m = n ∧ v = w) ∧
    ∀ (name name' : String) (v w next next' : Value),
      (∃ text, (Record.matched name v next).message = .ok text ∧
        (Record.matched name' w next').message = .ok text) ↔
      name = name' ∧ v = w ∧
        ∃ position, next.truncate = .ok position ∧ next'.truncate = .ok position := by
  refine ⟨fun _ _ _ => ?_, fun _ _ => ?_, fun _ _ => ?_, fun _ _ => ?_, fun _ _ _ _ => ?_,
    fun _ _ _ _ _ _ => ?_⟩
  · exact reprWith_inj
  · exact Fault.message_unwrappedErr_inj
  · exact Fault.message_unwrappedOk_inj
  · exact Fault.message_unwrappedErr_ne_unwrappedOk
  · exact Record.message_parsed_inj
  · exact Record.message_matched_iff

/-- A text that looks like two entries, and a name that looks like the front of a message. -/
theorem Value.repr_unambiguous_lookalike :
    (Value.tuple [.text "1, 2"]).repr ≠ (Value.tuple [.int 1, .int 2]).repr ∧
    ¬ ∃ text,
      (Record.matched "a: matched 'b', next cursor 2" (.text "c") (.int 3)).message = .ok text ∧
      (Record.matched "a" (.text "b', next cursor 2: matched 'c") (.int 3)).message = .ok text := by
  obtain ⟨hrepr, -, -, -, -, hmatched⟩ := repr_unambiguous
  constructor
  · intro h
    cases (hrepr Text.isPrintable _ _).mp h
  · intro h
    obtain ⟨-, hvalue, -⟩ := (hmatched _ _ _ _ _ _).mp h
    exact absurd (Value.text.inj hvalue) (by decide)

end CursorParsers
