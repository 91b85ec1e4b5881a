import TagTemplate.Text.Basic

set_option autoImplicit false

/-! # Positions

A position says where in a text a reader stands: the number of code points before it, the line,
counted from one, and the column in that line, counted from one. Only a line feed starts a new line;
every other character, a tab or a carriage return included, moves one column on. -/

namespace TagTemplate

/-- A place in a text: how many code points lie before it, and its line and column. -/
structure Position where
  offset : Nat
  line : Nat
  column : Nat
deriving DecidableEq, Repr, Inhabited

namespace Position

/-- The place before the first character. -/
def start : Position := ⟨0, 1, 1⟩

def step (p : Position) (c : Char) : Position :=
  if c = '\n' then ⟨p.offset + 1, p.line + 1, 1⟩ else ⟨p.offset + 1, p.line, p.column + 1⟩

def advance (p : Position) (t : Text) : Position := t.foldl step p

@[simp] theorem advance_nil (p : Position) : p.advance [] = p := rfl

@[simp] theorem advance_cons (p : Position) (c : Char) (t : Text) :
    p.advance (c :: t) = (p.step c).advance t := rfl

theorem advance_append (p : Position) (s t : Text) :
    p.advance (s ++ t) = (p.advance s).advance t := by
  simp [advance, List.foldl_append]

/-- The offset counts the code points that were passed. -/
theorem advance_offset (p : Position) (t : Text) :
    (p.advance t).offset = p.offset + t.length := by
  induction t generalizing p with
  | nil => rfl
  | cons c t ih =>
    rw [advance_cons, ih, List.length_cons]
    unfold step
    split <;> simp only <;> omega

/-- The line counts the line feeds that were passed. -/
theorem advance_line (p : Position) (t : Text) :
    (p.advance t).line = p.line + t.count '\n' := by
  induction t generalizing p with
  | nil => rfl
  | cons c t ih =>
    rw [advance_cons, ih]
    unfold step
    split
    · next h => subst h; simp only [List.count_cons_self]; omega
    · next h => simp [h]

end Position

end TagTemplate
