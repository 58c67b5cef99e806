import CursorParsers.Proofs.Repetition.Records
import CursorParsers.Proofs.Repetition.Strides

/-!
# Repetitions of one character

Repeating a primitive that reads one character takes the longest run of characters that it accepts,
or as much of that run as the maximum allows. Since primitives leave no records, that is all there
is to such a repetition.

## Main definitions

* `Stream.run`: the longest run of accepted characters from a position on

## Main results

* `Primitive.run_range_of_test`: the run of such a repetition in closed form
-/

namespace CursorParsers

/-- The longest run of characters from a position on that pass a test. -/
def Stream.run (s : Stream) (c : Int) (test : Char → Bool) : List Char :=
  (s.rest c).takeWhile test

theorem length_takeUpTo {α : Type} (M : ℕ∞) (xs : List α) :
    (takeUpTo M xs).length = fitting 1 xs.length M := by
  cases M with
  | top => rw [takeUpTo_top, fitting_top]
  | coe n => rw [takeUpTo_natCast, List.length_take, fitting_natCast, Nat.div_one, min_comm]

namespace Primitive

variable {p : Primitive} {test : Char → Bool} {s : Stream} {c : Int} {b : Range} {M : ℕ∞}

theorem run_range_of_outcome [Repertoire] {r : Reply}
    (h : ((p.parser.range b).run s (.int c)).outcome = .ok r) :
    (p.parser.range b).run s (.int c) = pure r := by
  have hprimitive (c : Int) : (p.parser.run s (.int c)).Leaves (· = []) fun _ _ => True := by
    obtain ⟨found, hread⟩ := p.exists_read_int s c
    rw [run_parser_of_read hread]
    exact .pure rfl
  have hleaves : ((p.parser.range b).run s (.int c)).Leaves (· = []) fun _ _ => True :=
    (p.keeps_captures fun _ => False).range_leaves (N := (· = [])) b rfl
      (fun _ _ hrs hrs' => List.append_eq_nil_iff.mpr ⟨hrs, hrs'⟩) (fun _ _ _ _ h => h)
      hprimitive c
  exact Run.ext (hleaves.records_of_ok h) h

/-- **Closed form.** A repetition of a primitive that reads one character takes the run of accepted
characters up to the maximum. -/
theorem run_range_of_test [Repertoire] (hp : p.test? = some test) (hmax : b.max = .bound M)
    (hc : 1 ≤ c) {xs : List Char} (hxs : takeUpTo M (s.run c test) = xs) :
    (p.parser.range b).run s (.int c) =
      pure (if (Number.int xs.length).less b.min then
        .err (.text (Failure.tooShort b.min (.int xs.length)).message)
      else .matched (.text (.ofList xs)) (.int (c + xs.length))) := by
  have hlength : xs.length = fitting 1 (p.streak (s.ahead c)) M := by
    rw [← hxs, length_takeUpTo, streak_of_test hp, Stream.ahead_of_le hc, Stream.run]
  have hslice : s.slice c (c + xs.length) = xs := by
    obtain ⟨ys, happ, -⟩ := takeUpTo_append M (s.run c test)
    rw [hxs] at happ
    have hfront : xs <+: s.run c test := ⟨ys, happ⟩
    rw [Stream.slice_add,
      ← List.prefix_iff_eq_take.mp (hfront.trans (List.takeWhile_prefix test))]
  obtain ⟨ms, h⟩ := exists_uses_of_width (width?_of_test hp) M s c
  rw [← hlength, Nat.one_mul, ← hmax] at h
  have houtcome := (p.keeps_captures fun _ => False).outcome_range_of_uses
    (hmax ▸ Number.isSome_value?_bound M) h
  rw [hslice] at houtcome
  exact run_range_of_outcome houtcome

end Primitive

end CursorParsers
