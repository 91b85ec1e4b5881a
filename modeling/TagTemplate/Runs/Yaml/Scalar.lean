import TagTemplate.Runs.Yaml.Cursor
import TagTemplate.Runs.Yaml.Failure

set_option autoImplicit false

/-! # Scalars

A scalar is written plain, in quotes or as a block, and each of these styles folds its lines. A line
break between two lines of text becomes a space, and of several breaks in a row the first one is
dropped; only a literal block keeps its breaks as they are.

Loops over the text take a bound on their steps, which the length of the text gives. -/

namespace TagTemplate.Runs.Yaml

/-- A scalar that was read, the place behind it, and whether a line break ends it, so that a key may
follow. -/
structure ScalarRead where
  value : Text
  cursor : Cursor
  broken : Bool

/-- The breaks of a gap between two lines of text: the first is a space if it stands alone and is
dropped before others; one of the breaks that are no line feeds is kept. -/
def foldBreaks (first : Char) (others : Text) : Text :=
  if first ≠ '\n' then first :: others else if others = [] then [' '] else others

/-! ## Plain scalars -/

/-- The part of a plain scalar at the front of a line: up to whitespace, to a colon before
whitespace, or, in flow collections, to one of their indicators. -/
def plainPart (flow : Bool) : Text → Text
  | [] => []
  | c :: rest =>
    if endsWord c || (c == ':' && endsWord (rest.head?.getD '\x00')) ||
        (flow && [',', '[', ']', '\x7b', '\x7d'].contains c) then []
    else c :: plainPart flow rest

/-- A gap inside a plain scalar: what it contributes to the value, the place behind it, whether it
breaks a line, and whether the mark of a document ends the scalar there. -/
structure Gap where
  text : Text
  cursor : Cursor
  broken : Bool
  final : Bool

/-- The further breaks of a gap in a plain scalar, with the spaces between them dropped. -/
def plainBreaks : Nat → Text → Cursor → Text × Cursor × Bool
  | 0, breaks, c => (breaks, c, false)
  | steps + 1, breaks, c =>
    let c := c.skip (· == ' ')
    match c.lineBreak? with
    | none => (breaks, c, false)
    | some (b, c) =>
      let breaks := breaks ++ [b]
      if c.atDocumentMark then (breaks, c, true) else plainBreaks steps breaks c

def plainGap (c : Cursor) : Gap :=
  let (spaces, c) := c.span (· == ' ')
  match c.lineBreak? with
  | none => ⟨spaces, c, false, false⟩
  | some (b, c) =>
    if c.atDocumentMark then ⟨[], c, true, true⟩
    else
      let (breaks, c, final) := plainBreaks c.rest.length [] c
      ⟨foldBreaks b breaks, c, true, final⟩

/-- The rest of a plain scalar, given its value so far and the gap before the next part. -/
def plainFrom (flow : Bool) (indent : Nat) : Nat → ScalarRead → Text → ScalarRead
  | 0, read, _ => read
  | steps + 1, read, gap =>
    let part := plainPart flow read.cursor.rest
    if read.cursor.peek == '#' || part.isEmpty then read
    else
      let next := plainGap (.forwardBy part.length read.cursor)
      let read := ⟨read.value ++ gap ++ part, next.cursor, next.broken⟩
      if next.final || next.text.isEmpty || next.cursor.peek == '#' ||
          (!flow && next.cursor.column < indent) then read
      else plainFrom flow indent steps read next.text

/-- The plain scalar at the front. Outside of flow collections its further lines are indented at
least as much as given. -/
def readPlain (flow : Bool) (indent : Nat) (c : Cursor) : ScalarRead :=
  plainFrom flow indent (c.rest.length + 1) ⟨[], c, false⟩ []

/-! ## Quoted scalars -/

def simpleEscape? (c : Char) : Option Char :=
  [('0', '\x00'), ('a', '\x07'), ('b', '\x08'), ('t', '\t'), ('\t', '\t'), ('n', '\n'),
    ('v', '\x0b'), ('f', '\x0c'), ('r', '\r'), ('e', '\x1b'), (' ', ' '), ('\x22', '\x22'),
    ('/', '/'), ('\\', '\\'), ('N', '\x85'), ('_', '\u00A0'), ('L', '\u2028'),
    ('P', '\u2029')].lookup c

/-- How many hexadecimal digits follow an escaped character. -/
def codeLength? (c : Char) : Option Nat := [('x', 2), ('u', 4), ('U', 8)].lookup c

def charOfCode (code : Nat) : Except Failure Char :=
  if code.isValidChar then .ok (Char.ofNat code)
  else if code < 0x110000 then .error .malformed
  else .error (.codePoint code)

/-- The further breaks of a gap in quotes, with the whitespace between them dropped; a failure if the
mark of a document stands at the start of a line. -/
def quotedBreaks : Nat → Text → Cursor → Except Failure (Text × Cursor)
  | 0, breaks, c => .ok (breaks, c)
  | steps + 1, breaks, c =>
    if c.atDocumentMark then .error .malformed
    else
      let c := c.skip fun ch => ch == ' ' || ch == '\t'
      match c.lineBreak? with
      | none => .ok (breaks, c)
      | some (b, c) => quotedBreaks steps (breaks ++ [b]) c

/-- The escape sequence behind a backslash: what it stands for and the place behind it. -/
def quotedEscape (c : Cursor) : Except Failure (Text × Cursor) :=
  match simpleEscape? c.peek with
  | some d => .ok ([d], c.forward)
  | none =>
    match codeLength? c.peek with
    | some length => do
      let digits := (c.rest.drop 1).take length
      if digits.length < length || !digits.all (IntegerText.isDigitOf 16) then throw .malformed
      let d ← charOfCode (IntegerText.digitsValue 16 digits)
      return ([d], .forwardBy (length + 1) c)
    | none =>
      match c.lineBreak? with
      | some (_, c) => quotedBreaks (c.rest.length + 1) [] c
      | none => .error .malformed

/-- The characters that end a part of a quoted scalar unless the quotes give them a meaning. -/
def endsQuotedPart (c : Char) : Bool :=
  isBreak c || [' ', '\t', '\x27', '\x22', '\\', '\x00'].contains c

/-- A part of a quoted scalar without whitespace, behind the value so far. -/
def quotedPart (double : Bool) : Nat → Text → Cursor → Except Failure (Text × Cursor)
  | 0, value, c => .ok (value, c)
  | steps + 1, value, c =>
    let ch := c.peek
    if !double && ch == '\x27' && c.peekAt 1 == '\x27' then
      quotedPart double steps (value ++ ['\x27']) (.forwardBy 2 c)
    else if (double && ch == '\x27') || (!double && (ch == '\x22' || ch == '\\')) then
      quotedPart double steps (value ++ [ch]) c.forward
    else if double && ch == '\\' then
      match quotedEscape c.forward with
      | .ok (escaped, c) => quotedPart double steps (value ++ escaped) c
      | .error failure => .error failure
    else if endsQuotedPart ch then .ok (value, c)
    else quotedPart double steps (value ++ [ch]) c.forward

/-- The gap at the front inside quotes; a failure at the end of the text. -/
def quotedGap (c : Cursor) : Except Failure (Text × Cursor) :=
  let (spaces, c) := c.span fun ch => ch == ' ' || ch == '\t'
  if c.rest.isEmpty then .error .malformed
  else
    match c.lineBreak? with
    | none => .ok (spaces, c)
    | some (b, c) =>
      (quotedBreaks (c.rest.length + 1) [] c).map fun (breaks, c) => (foldBreaks b breaks, c)

def quotedFrom (double : Bool) : Nat → Text → Cursor → Except Failure (Text × Cursor)
  | 0, _, _ => .error .malformed
  | steps + 1, value, c => do
    if c.peek == (if double then '\x22' else '\x27') then return (value, c.forward)
    let (gap, c) ← quotedGap c
    let (value, c) ← quotedPart double (c.rest.length + 1) (value ++ gap) c
    quotedFrom double steps value c

def readQuoted (double : Bool) (c : Cursor) : Except Failure ScalarRead := do
  let c := c.forward
  let (value, c) ← quotedPart double (c.rest.length + 1) [] c
  let (value, c) ← quotedFrom double (c.rest.length + 1) value c
  return ⟨value, c, false⟩

/-! ## Block scalars -/

/-- What becomes of the breaks at the end of a block scalar: all are dropped, one is kept, or all
are kept. -/
inductive Chomping
  | strip
  | clip
  | keep
deriving DecidableEq, Repr

def chompingOf? (c : Char) : Option Chomping :=
  if c == '+' then some .keep else if c == '-' then some .strip else none

/-- The indentation of an indicator, counted from the parent. -/
def indentationOf? (c : Char) : Option Nat :=
  if '1' ≤ c && c ≤ '9' then some (c.toNat - '0'.toNat) else none

/-- The indicators of a block scalar in either order, each at most once. -/
def blockIndicators (c : Cursor) : Chomping × Option Nat × Cursor :=
  match chompingOf? c.peek with
  | some chomping =>
    match indentationOf? c.forward.peek with
    | some n => (chomping, some n, .forwardBy 2 c)
    | none => (chomping, none, c.forward)
  | none =>
    match indentationOf? c.peek with
    | some n =>
      match chompingOf? c.forward.peek with
      | some chomping => (chomping, some n, .forwardBy 2 c)
      | none => (.clip, some n, c.forward)
    | none => (.clip, none, c)

/-- The place behind the line of the indicators, on which only a comment may follow. -/
def blockHeaderEnd? (c : Cursor) : Option Cursor :=
  if !endsWord c.peek then none
  else
    let c := c.skip (· == ' ')
    let c := if c.peek == '#' then c.skip fun ch => !endsLine ch else c
    if endsLine c.peek then
      match c.lineBreak? with
      | some (_, c) => some c
      | none => some c
    else none

/-- The blank lines in front of a block scalar: their breaks, the column of the first break, the
deepest column that a space reaches, and the place behind them. -/
structure LeadingLines where
  breaks : Text
  first : Option Nat
  deepest : Nat
  cursor : Cursor

/-- The rest of the blank lines in front of a block scalar. -/
def leadingLines : Nat → LeadingLines → LeadingLines
  | 0, lines => lines
  | steps + 1, lines =>
    if lines.cursor.peek == ' ' then
      let c := lines.cursor.forward
      leadingLines steps { lines with deepest := max lines.deepest c.column, cursor := c }
    else
      match lines.cursor.lineBreak? with
      | some (b, c) => leadingLines steps
        { lines with
          breaks := lines.breaks ++ [b]
          first := some (lines.first.getD lines.cursor.column)
          cursor := c }
      | none => lines

/-- Whether a later one of some blank lines reaches deeper than the first, unless that is empty. -/
def LeadingLines.deepens (lines : LeadingLines) : Bool :=
  lines.first.any fun first => 0 < first && first < lines.deepest

def skipIndent (indent : Nat) : Nat → Cursor → Cursor
  | 0, c => c
  | steps + 1, c =>
    if c.column < indent && c.peek == ' ' then skipIndent indent steps c.forward else c

/-- The blank lines between two lines of a block scalar: their breaks and the place behind. -/
def blockBreaks (indent : Nat) : Nat → Text → Cursor → Text × Cursor
  | 0, breaks, c => (breaks, c)
  | steps + 1, breaks, c =>
    let c := skipIndent indent indent c
    match c.lineBreak? with
    | some (b, c) => blockBreaks indent steps (breaks ++ [b]) c
    | none => (breaks, c)

/-- The content of a block scalar: its lines so far, the last break and the breaks behind it. -/
structure BlockRead where
  value : Text
  lastBreak : Text
  breaks : Text
  cursor : Cursor

/-- The lines of a block scalar. At the margin of the text the mark of a document ends it. -/
def blockLines (folded atMargin : Bool) (indent : Nat) : Nat → BlockRead → BlockRead
  | 0, read => read
  | steps + 1, read =>
    if read.cursor.column ≠ indent || read.cursor.rest.isEmpty then read
    else
      let startsText := fun (c : Cursor) => c.peek ≠ ' ' && c.peek ≠ '\t'
      let leading := startsText read.cursor
      let (line, c) := read.cursor.span fun ch => !endsLine ch
      let (lastBreak, c) := match c.lineBreak? with
        | some (b, c) => ([b], c)
        | none => ([], c)
      let (breaks, c) := blockBreaks indent (c.rest.length + 1) [] c
      let value := read.value ++ read.breaks ++ line
      let ends := (atMargin && c.column == 0 && c.atDocumentMark) ||
        c.column ≠ indent || c.rest.isEmpty
      if ends then ⟨value, lastBreak, breaks, c⟩
      else if folded && lastBreak == ['\n'] && leading && startsText c then
        blockLines folded atMargin indent steps
          ⟨if breaks.isEmpty then value ++ [' '] else value, [], breaks, c⟩
      else blockLines folded atMargin indent steps ⟨value ++ lastBreak, [], breaks, c⟩

/-- The block scalar at the front, folded or literal, below a parent of the given indentation. -/
def readBlock? (folded : Bool) (parent : Int) (c : Cursor) : Option ScalarRead := do
  let (chomping, increment, c) := blockIndicators c.forward
  let c ← blockHeaderEnd? c
  let least := (parent + 1).toNat
  let (breaks, indent, c) ← match increment with
    | none =>
      let lines := leadingLines (c.rest.length + 1) ⟨[], none, 0, c⟩
      if lines.deepens then none
      else some (lines.breaks, max least lines.deepest, lines.cursor)
    | some n =>
      let indent := max least 1 + n - 1
      let (breaks, c) := blockBreaks indent (c.rest.length + 1) [] c
      some (breaks, indent, c)
  let atMargin := least == 0 && increment.isNone
  let read := blockLines folded atMargin indent (c.rest.length + 1) ⟨[], [], breaks, c⟩
  let value := match chomping with
    | .strip => read.value
    | .clip => read.value ++ read.lastBreak
    | .keep => read.value ++ read.lastBreak ++ read.breaks
  return ⟨value, read.cursor, true⟩

end TagTemplate.Runs.Yaml
