import Mathlib.Data.List.Induction
import TagTemplate.Text.Position

set_option autoImplicit false

/-! # Exact positions

A position is exact in a text (`Position.Exact`) if its line and its column are those of the place
that its offset names: the line counts the line feeds before that place, and the column the code
points behind the last of them. Counting along the front of a text, one character at a time, gives
exact positions and no others (`Position.exact_iff`).
-/

namespace TagTemplate

/-- How many code points stand behind the last line feed of a text; all of them if there is none. -/
def Text.lastLineLength (t : Text) : Nat := (t.reverse.takeWhile fun c => c != '\n').length

theorem Text.lastLineLength_append (t : Text) (c : Char) :
    lastLineLength (t ++ [c]) = if c = '\n' then 0 else lastLineLength t + 1 := by
  unfold lastLineLength
  rw [List.reverse_append, List.reverse_singleton, List.singleton_append, List.takeWhile_cons]
  by_cases h : c = '\n' <;> simp [h]

namespace Position

/-- The column counts the code points behind the last line feed that was passed. -/
theorem advance_column (t : Text) :
    (start.advance t).column = 1 + Text.lastLineLength t := by
  induction t using List.reverseRecOn with
  | nil => rfl
  | append_singleton t c ih =>
      rw [advance_append, Text.lastLineLength_append, advance_cons, advance_nil]
      unfold step
      split
      · rfl
      · rw [ih, Nat.add_assoc]

/-- A position is exact in a text: its offset lies in the text, and its line and its column are
counted by the text before that offset. -/
structure Exact (t : Text) (p : Position) : Prop where
  offset_le : p.offset ≤ t.length
  line_eq : p.line = 1 + (t.take p.offset).count '\n'
  column_eq : p.column = 1 + Text.lastLineLength (t.take p.offset)

/-- **Exact are the positions behind the fronts of the text.** -/
theorem exact_iff {t : Text} {p : Position} :
    p.Exact t ↔ ∃ front rest, t = front ++ rest ∧ p = start.advance front := by
  constructor
  · rintro ⟨hoffset, hline, hcolumn⟩
    refine ⟨t.take p.offset, t.drop p.offset, (List.take_append_drop _ _).symm, ?_⟩
    have hlength : (t.take p.offset).length = p.offset := List.length_take_of_le hoffset
    have h1 : (start.advance (t.take p.offset)).offset = p.offset := by
      rw [advance_offset, hlength]
      exact Nat.zero_add _
    have h2 : (start.advance (t.take p.offset)).line = p.line := by
      rw [advance_line, hline]
      rfl
    have h3 : (start.advance (t.take p.offset)).column = p.column := by
      rw [advance_column, hcolumn]
    generalize start.advance (t.take p.offset) = q at h1 h2 h3
    obtain ⟨offset, line, column⟩ := p
    obtain ⟨offset', line', column'⟩ := q
    dsimp only at h1 h2 h3
    rw [h1, h2, h3]
  · rintro ⟨front, rest, rfl, rfl⟩
    have hoffset : (start.advance front).offset = front.length := by
      rw [advance_offset]
      exact Nat.zero_add _
    have htake : (front ++ rest).take (start.advance front).offset = front := by
      rw [hoffset, List.take_left]
    refine ⟨?_, ?_, ?_⟩
    · rw [hoffset, List.length_append]
      exact Nat.le_add_right _ _
    · rw [htake, advance_line]
      rfl
    · rw [htake, advance_column]

end Position

end TagTemplate
