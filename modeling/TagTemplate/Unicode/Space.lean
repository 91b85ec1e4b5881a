import TagTemplate.Unicode.Ranges

set_option autoImplicit false

/-! # White space

The white space of every script, which surrounds numerals without being part of them, together with
the four separators of information among the control characters. -/

namespace TagTemplate.Unicode

def spaceRanges : List (Nat × Nat) :=
  [(0x9, 0xD), (0x1C, 0x20), (0x85, 0x85), (0xA0, 0xA0), (0x1680, 0x1680), (0x2000, 0x200A),
   (0x2028, 0x2029), (0x202F, 0x202F), (0x205F, 0x205F), (0x3000, 0x3000)]

def isSpace (c : Char) : Bool := inRanges spaceRanges c.toNat

end TagTemplate.Unicode
