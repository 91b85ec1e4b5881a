import TagTemplate.Text.Basic

set_option autoImplicit false

/-! # Cursors

YAML text is read through a cursor, which knows the line and the column it stands at, both counted
from zero. A line feed, a carriage return, the two of them together, and three more characters break
the lines of a scalar, but only the first three of these begin a new line of the text; a byte order
mark takes no column. Reading beyond the end gives the null character, which no YAML text
contains. -/

namespace TagTemplate.Runs.Yaml

/-! ## Characters -/

def byteOrderMark : Char := '\uFEFF'

def isBreak (c : Char) : Bool :=
  c == '\n' || c == '\r' || c == '\x85' || c == '\u2028' || c == '\u2029'

/-- The characters that end a comment or a line of a block scalar. -/
def endsLine (c : Char) : Bool := isBreak c || c == '\x00'

/-- The characters that separate an indicator from what follows it. -/
def endsWord (c : Char) : Bool := endsLine c || c == ' ' || c == '\t'

/-- The characters that YAML text may contain. -/
def isYamlChar (c : Char) : Bool :=
  c == '\t' || c == '\n' || c == '\r' || c == '\x85' || (' ' ≤ c && c ≤ '~') ||
    ('\u00A0' ≤ c && c ≤ '\uFFFD') || 0x10000 ≤ c.toNat

/-! ## Cursors -/

/-- A place in a YAML text: the text behind it, the number of characters before it, its line and its
column. -/
structure Cursor where
  rest : Text
  index : Nat
  line : Nat
  column : Nat

namespace Cursor

def start (t : Text) : Cursor := ⟨t, 0, 0, 0⟩

/-- The character that is so many characters away, null behind the end. -/
def peekAt (c : Cursor) (n : Nat) : Char := c.rest[n]?.getD '\x00'

def peek (c : Cursor) : Char := c.peekAt 0

/-- The place behind the next character. A carriage return before a line feed begins no line yet. -/
def forward (c : Cursor) : Cursor :=
  match c.rest with
  | [] => c
  | ch :: rest =>
    if ch == '\n' || (ch == '\r' && rest.head? != some '\n') then
      ⟨rest, c.index + 1, c.line + 1, 0⟩
    else ⟨rest, c.index + 1, c.line, if ch == byteOrderMark then c.column else c.column + 1⟩

def forwardBy : Nat → Cursor → Cursor
  | 0, c => c
  | n + 1, c => forwardBy n c.forward

def span (c : Cursor) (p : Char → Bool) : Text × Cursor :=
  let taken := c.rest.takeWhile p
  (taken, forwardBy taken.length c)

def skip (c : Cursor) (p : Char → Bool) : Cursor := (c.span p).2

/-- The line break at the front, as the character it stands for, and the place behind it. -/
def lineBreak? (c : Cursor) : Option (Char × Cursor) :=
  match c.rest with
  | '\r' :: '\n' :: _ => some ('\n', forwardBy 2 c)
  | ch :: _ =>
    if ch == '\r' || ch == '\n' || ch == '\x85' then some ('\n', c.forward)
    else if isBreak ch then some (ch, c.forward)
    else none
  | [] => none

/-- Whether a mark of three equal characters stands at the front as a word of its own. -/
def atMark (c : Cursor) (mark : Char) : Bool :=
  c.rest.take 3 == [mark, mark, mark] && endsWord (c.peekAt 3)

/-- Whether the start or the end of a document is marked at the front. -/
def atDocumentMark (c : Cursor) : Bool := c.atMark '-' || c.atMark '.'

end Cursor

end TagTemplate.Runs.Yaml
