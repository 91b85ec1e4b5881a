import TagTemplate.Text.Basic
import TagTemplate.Unicode.Letter
import TagTemplate.Unicode.DecimalDigit

set_option autoImplicit false

/-! # Identifiers

An identifier names a variable, a function or a tag: a letter, followed by any number of letters,
decimal digits of any script, and underscores. -/

namespace TagTemplate

/-- An identifier starts with a letter. -/
def isIdentifierStart (c : Char) : Bool := Unicode.isLetter c

/-- Letters, decimal digits and underscores continue an identifier. -/
def isIdentifierPart (c : Char) : Bool :=
  Unicode.isLetter c || Unicode.isDecimalDigit c || c == '_'

/-- A text is an identifier if it is a letter followed by identifier parts. -/
def isIdentifier : Text → Bool
  | [] => false
  | c :: rest => isIdentifierStart c && rest.all isIdentifierPart

structure Identifier where
  name : Text
  valid : isIdentifier name = true
deriving DecidableEq

instance : Inhabited Identifier := ⟨⟨['x'], by decide⟩⟩

theorem isIdentifierPart_of_start {c : Char} (h : isIdentifierStart c = true) :
    isIdentifierPart c = true := by
  unfold isIdentifierStart at h
  simp [isIdentifierPart, h]

end TagTemplate
