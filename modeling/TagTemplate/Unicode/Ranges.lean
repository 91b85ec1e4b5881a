set_option autoImplicit false

/-! # Character classes as tables of ranges

A character class is given by the ranges of its code points, in increasing order and with gaps
between them. Membership reads the table from the front and stops at the first range that starts
above the code point, so it is quick for the small code points that fill most texts. -/

namespace TagTemplate.Unicode

/-- A code point lies in a table if one of the ranges, both ends included, contains it. -/
def inRanges : List (Nat × Nat) → Nat → Bool
  | [], _ => false
  | (low, high) :: rest, n => if n < low then false else n ≤ high || inRanges rest n

end TagTemplate.Unicode
