import TagTemplate.Runs.Yaml.Cursor
import TagTemplate.Number.IntegerText

set_option autoImplicit false

/-! # Tags and directives

A tag is written as a handle and a name; the handle stands for what a directive says, or by default
for the types of YAML if it has two exclamation marks and for itself if it has one. A tag in angle
brackets has no handle. Bytes of the name may be written by a percent sign and two hexadecimal
digits. -/

namespace TagTemplate.Runs.Yaml

structure Tag where
  handle : Option Text
  name : Text
deriving DecidableEq

/-- A directive in front of a document: the version of YAML, what a handle stands for, or one that
is reserved and says nothing. -/
inductive Directive
  | version (major minor : Nat)
  | handle (handle meaning : Text)
  | reserved
deriving DecidableEq

/-! ## Names -/

/-- Whether a character ends a line or is a space or the end of the text. -/
def endsTag (c : Char) : Bool := endsLine c || c == ' '

/-- The characters of names besides letters and digits. -/
def nameMarks : Text := "-;/?:@&=+$,_.!~*'()[]#".toList

def isNameChar (c : Char) : Bool := c.isAlphanum || nameMarks.contains c

/-- The byte that a percent sign and two hexadecimal digits at the front stand for. -/
def escapedByte? : Text → Option UInt8
  | '%' :: a :: b :: _ =>
    if IntegerText.isDigitOf 16 a && IntegerText.isDigitOf 16 b then
      some (UInt8.ofNat (IntegerText.digitsValue 16 [a, b]))
    else none
  | _ => none

/-- The bytes that are written one after the other at the front, and the text behind them; nothing if
a percent sign is followed by something else than two hexadecimal digits. -/
def escapedBytes? : Nat → Text → Option (List UInt8 × Text)
  | 0, t => some ([], t)
  | steps + 1, t =>
    if t.head? == some '%' then do
      let b ← escapedByte? t
      let (bytes, rest) ← escapedBytes? steps (t.drop 3)
      return (b :: bytes, rest)
    else some ([], t)

/-- The length of the name at the front, nothing if bytes in it make up no characters. -/
def nameLength? : Nat → Text → Option Nat
  | 0, _ => some 0
  | steps + 1, t =>
    match t with
    | '%' :: _ => do
      let (bytes, rest) ← escapedBytes? t.length t
      if (String.fromUTF8? ⟨bytes.toArray⟩).isNone then none
      return 3 * bytes.length + (← nameLength? steps rest)
    | c :: rest => if isNameChar c then (nameLength? steps rest).map (· + 1) else some 0
    | [] => some 0

def name? (c : Cursor) : Option (Text × Cursor) := do
  let length ← nameLength? (c.rest.length + 1) c.rest
  if length == 0 then none
  return (c.rest.take length, .forwardBy length c)

/-- A name with the bytes in it taken for characters. -/
def decodeName : Text → Text
  | '%' :: a :: b :: rest =>
    Char.ofNat (IntegerText.digitsValue 16 [a, b]) :: decodeName rest
  | c :: rest => c :: decodeName rest
  | [] => []

/-! ## Tags -/

/-- The handle at the front: an exclamation mark, letters, digits, dashes and underscores, and a
further exclamation mark. The first mark alone is a handle if a space follows. -/
def handle? (c : Cursor) : Option (Text × Cursor) :=
  match c.rest with
  | '!' :: rest =>
    if rest.head? == some ' ' then some (['!'], c.forward)
    else
      let word := rest.takeWhile fun ch => ch.isAlphanum || ch == '-' || ch == '_'
      if (rest.drop word.length).head? == some '!' then
        some ('!' :: word ++ ['!'], .forwardBy (word.length + 2) c)
      else none
  | _ => none

/-- The tag at the front, behind the first of two exclamation marks if there are two. -/
def shortTag? (short : Text) (c : Cursor) : Option (Tag × Cursor) :=
  let after := c.rest.drop 1
  if after.head? == some '<' then do
    let (name, c) ← name? (.forwardBy 2 c)
    if c.peek != '>' then none
    return (⟨none, name⟩, c.forward)
  else if endsWord (c.peekAt 1) then some (⟨none, short⟩, c.forward)
  else do
    let (handle, c) ←
      if (after.takeWhile fun ch => !endsTag ch).contains '!' then handle? c
      else some (short, c.forward)
    let (name, c) ← name? c
    return (⟨some handle, name⟩, c)

def tag? (c : Cursor) : Option (Tag × Cursor) := do
  let (tag, c) ←
    if c.peekAt 1 == '!' then shortTag? ['!', '!'] c.forward else shortTag? ['!'] c
  if !endsTag c.peek then none
  return (tag, c)

/-! ## Directives -/

def digits? (c : Cursor) : Option (Nat × Cursor) :=
  let (digits, c) := c.span Char.isDigit
  if digits.isEmpty then none else some (IntegerText.digitsValue 10 digits, c)

def versionDirective? (c : Cursor) : Option (Directive × Cursor) := do
  let (major, c) ← digits? (c.skip (· == ' '))
  if c.peek != '.' then none
  let (minor, c) ← digits? c.forward
  if !endsTag c.peek then none
  return (.version major minor, c)

def handleDirective? (c : Cursor) : Option (Directive × Cursor) := do
  let (handle, c) ← handle? (c.skip (· == ' '))
  if c.peek != ' ' then none
  let (meaning, c) ← name? (c.skip (· == ' '))
  if !endsTag c.peek then none
  return (.handle handle meaning, c)

/-- The directive at the front, behind its percent sign, and the place behind its line. -/
def directive? (c : Cursor) : Option (Directive × Cursor) := do
  let (word, c) := c.span fun ch => ch.isAlphanum || "-_:.".toList.contains ch
  if word.isEmpty || !endsTag c.peek then none
  let (directive, c) ←
    if word == "YAML".toList then versionDirective? c
    else if word == "TAG".toList then handleDirective? c
    else some (.reserved, c.skip fun ch => !endsLine ch)
  let c := c.skip (· == ' ')
  let c := if c.peek == '#' then c.skip fun ch => !endsLine ch else c
  if !endsLine c.peek then none
  return (directive, match c.lineBreak? with
    | some (_, c) => c
    | none => c)

end TagTemplate.Runs.Yaml
