import TagTemplate.Text.Basic
import TagTemplate.Unicode.DecimalDigit
import TagTemplate.Unicode.Space

set_option autoImplicit false

/-! # Numerals

A numeral may be written in the decimal digits of any script, with white space around it and with
single underscores between its digits. Before it is read, its digits become ASCII digits, and white
space beyond ASCII becomes the space. -/

namespace TagTemplate.Numeral

/-- The white space that surrounds a numeral, once it is in ASCII. -/
def isBlank (c : Char) : Bool := c == ' ' || ('\t' ≤ c && c ≤ '\r')

/-- A character of a numeral in ASCII; what has no place in any numeral becomes a question mark. -/
def asciiChar (c : Char) : Char :=
  if c.toNat < 127 then c
  else if Unicode.isSpace c then ' '
  else match Unicode.decimalDigitValue? c with
    | some d => Nat.digitChar d
    | none => '?'

def ascii (t : Text) : Text := t.map asciiChar

def strip (t : Text) : Text := ((t.dropWhile isBlank).reverse.dropWhile isBlank).reverse

def splitSign : Text → Bool × Text
  | '-' :: rest => (true, rest)
  | '+' :: rest => (false, rest)
  | t => (false, t)

/-- A text without its underscores, nothing unless each of them stands between two digits. The first
argument tells whether a digit stands in front. -/
def joinDigits? (isDigit : Char → Bool) : Bool → Text → Option Text
  | _, [] => some []
  | afterDigit, '_' :: rest =>
    if afterDigit && rest.head?.any isDigit then joinDigits? isDigit false rest else none
  | _, c :: rest => (joinDigits? isDigit (isDigit c) rest).map (c :: ·)

end TagTemplate.Numeral
