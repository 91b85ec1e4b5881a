set_option autoImplicit false

/-! # Texts

A text is the list of its code points. Lengths, offsets and columns are counted in these, so a list
is the natural form, and a scan of a text is a recursion on the list. -/

namespace TagTemplate

/-- A text is the list of its code points. -/
abbrev Text := List Char

namespace Text

/-- The pieces of a list of texts with a separator between any two of them. -/
def join (separator : Text) : List Text → Text
  | [] => []
  | [piece] => piece
  | piece :: rest => piece ++ separator ++ join separator rest

/-- The pieces of a list of texts, each separated from the next by one space. -/
def unwords (pieces : List Text) : Text := join [' '] pieces

end Text

end TagTemplate
