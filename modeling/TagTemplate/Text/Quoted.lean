import TagTemplate.Text.Basic
import TagTemplate.Unicode.Unprintable

set_option autoImplicit false

/-! # Quoted text

Messages, displays of values and the outline of a tree show a text in quotes, on one line and in
printable characters alone. The quotes are single, unless the text holds a single quote and no
double one; the quote in use and the backslash are written behind a backslash, tab, line feed and
carriage return as `\t`, `\n` and `\r`, and every other unprintable character by the hexadecimal
digits of its code point, two, four or eight of them. -/

namespace TagTemplate.Text

/-- The hexadecimal digits of a number, in lower case, filled up with zeros on the left. -/
def hexDigits (width n : Nat) : Text :=
  let digits := Nat.toDigits 16 n
  List.replicate (width - digits.length) '0' ++ digits

/-- An unprintable character by its code point, in the shortest of the three forms that fits. -/
def codePointEscape (c : Char) : Text :=
  if c.toNat < 0x100 then ['\\', 'x'] ++ hexDigits 2 c.toNat
  else if c.toNat < 0x10000 then ['\\', 'u'] ++ hexDigits 4 c.toNat
  else ['\\', 'U'] ++ hexDigits 8 c.toNat

/-- One character between the given quotes. -/
def quotedChar (quote c : Char) : Text :=
  if c = quote ∨ c = '\\' then ['\\', c]
  else if c = '\t' then ['\\', 't']
  else if c = '\n' then ['\\', 'n']
  else if c = '\r' then ['\\', 'r']
  else if Unicode.isPrintable c then [c]
  else codePointEscape c

/-- The quotes of a text: double ones if it holds a single quote but no double one. -/
def quoteFor (t : Text) : Char :=
  if t.contains '\x27' && !t.contains '\x22' then '\x22' else '\x27'

def quoted (t : Text) : Text :=
  quoteFor t :: t.flatMap (quotedChar (quoteFor t)) ++ [quoteFor t]

end TagTemplate.Text
