import TagTemplate.Runs.Yaml.Scalar
import TagTemplate.Runs.Yaml.Tag

set_option autoImplicit false

/-! # YAML tokens

The tokens of a YAML text make its structure explicit: indentation becomes the start and end of
block collections, and what stands before a colon becomes a key. Whether a token begins a key is
known only at the colon behind it, on the same line and not too far away. So a token that can begin
a key is remembered by its number, and the key tokens are entered in front of it once the colon is
found.

Tokens are delivered as soon as it is known what stands in front of them: a token that can begin a
key, and those behind it, are held back. This shows in two ways. Where the text fails, only the
tokens delivered before are read. And in curly brackets a colon behind a colon begins a plain scalar
if the first colon is still held back. -/

namespace TagTemplate.Runs.Yaml

/-! ## Tokens -/

inductive Token
  | streamEnd
  | directive (directive : Directive)
  | documentStart
  | documentEnd
  | blockSequenceStart
  | blockMappingStart
  | blockEnd
  | flowSequenceStart
  | flowSequenceEnd
  | flowMappingStart
  | flowMappingEnd
  | blockEntry
  | flowEntry
  | key
  | value
  | alias (name : Text)
  | anchor (name : Text)
  | tag (tag : Tag)
  | scalar (value : Text) (plain : Bool)
deriving DecidableEq

/-! ## The state of the tokenizer -/

inductive Bracket
  | square
  | curly
deriving DecidableEq, Repr

/-- A token that can begin a key: its number, whether it has to, and where it stands. -/
structure PossibleKey where
  number : Nat
  required : Bool
  index : Nat
  line : Nat
  column : Nat

/-- The tokenizer: the place it has reached, the indentations of the open block collections, the
innermost first, the brackets of the open flow collections, the innermost first, whether a key may
begin, the possible key at each flow level, the tokens so far, the latest first, and the key tokens
to be entered in front of numbered tokens. -/
structure Tokenizer where
  cursor : Cursor
  indent : Int
  indents : List Int
  flow : List Bracket
  keyAllowed : Bool
  possibleKeys : List (Nat × PossibleKey)
  tokens : List Token
  entered : List (Nat × Token)

namespace Tokenizer

def start (c : Cursor) : Tokenizer := ⟨c, -1, [], [], true, [], [], []⟩

def level (t : Tokenizer) : Nat := t.flow.length

def inFlow (t : Tokenizer) : Bool := !t.flow.isEmpty

def push (t : Tokenizer) (token : Token) : Tokenizer := { t with tokens := token :: t.tokens }

def moveTo (t : Tokenizer) (c : Cursor) : Tokenizer := { t with cursor := c }

/-- The next characters make a token. -/
def take (t : Tokenizer) (length : Nat) (token : Token) : Tokenizer :=
  (t.moveTo (.forwardBy length t.cursor)).push token

/-- Whether a key may begin behind this. -/
def allowKey (t : Tokenizer) (allowed : Bool) : Tokenizer := { t with keyAllowed := allowed }

/-! ## Possible keys -/

/-- The possible key of the current flow level is given up; nothing if it was required. -/
def dropKey? (t : Tokenizer) : Option Tokenizer :=
  match t.possibleKeys.lookup t.level with
  | some key =>
    if key.required then none
    else some { t with possibleKeys := t.possibleKeys.filter fun k => k.1 != t.level }
  | none => some t

/-- The next token may begin a key, if keys are allowed. It has to at the indentation of a block
mapping. -/
def saveKey? (t : Tokenizer) : Option Tokenizer :=
  if t.keyAllowed then do
    let required := !t.inFlow && t.indent == (t.cursor.column : Int)
    let t ← t.dropKey?
    let key : PossibleKey :=
      ⟨t.tokens.length, required, t.cursor.index, t.cursor.line, t.cursor.column⟩
    return { t with possibleKeys := (t.level, key) :: t.possibleKeys }
  else some t

/-- The keys that lie on an earlier line or more than 1024 characters back are given up; nothing if
one of them was required. -/
def dropStaleKeys? (t : Tokenizer) : Option Tokenizer :=
  let stale := fun (key : PossibleKey) =>
    key.line != t.cursor.line || 1024 < t.cursor.index - key.index
  if t.possibleKeys.any fun k => stale k.2 && k.2.required then none
  else some { t with possibleKeys := t.possibleKeys.filter fun k => !stale k.2 }

/-! ## Indentation -/

/-- Block collections that are indented more than a column end. -/
def closeBlocks (column : Int) : List Int → Tokenizer → Tokenizer
  | [], t => t
  | outer :: indents, t =>
    if t.indent > column then
      closeBlocks column indents ({ t with indent := outer, indents := indents }.push .blockEnd)
    else t

/-- The block collections that end before a column; flow collections know no indentation. -/
def unwind (t : Tokenizer) (column : Int) : Tokenizer :=
  if t.inFlow then t else closeBlocks column t.indents t

/-- A deeper indentation, and whether it is one. -/
def deepen (t : Tokenizer) (column : Nat) : Bool × Tokenizer :=
  if t.indent < (column : Int) then
    (true, { t with indent := column, indents := t.indent :: t.indents })
  else (false, t)

/-! ## Whitespace and comments -/

/-- The place of the next token, behind spaces, comments and line breaks. A line break outside of
flow collections allows a key. -/
def skipToToken : Nat → Tokenizer → Tokenizer
  | 0, t => t
  | steps + 1, t =>
    let blank := fun (ch : Char) => ch == ' ' || (t.inFlow && ch == '\t')
    let c := t.cursor.skip blank
    let c := if c.peek == '#' then c.skip fun ch => !endsLine ch else c
    match c.lineBreak? with
    | some (_, c) => skipToToken steps ((t.moveTo c).allowKey (t.keyAllowed || !t.inFlow))
    | none => t.moveTo c

/-! ## Single tokens -/

/-- A mark of a document, three characters long. It ends all block collections. -/
def documentMark? (t : Tokenizer) (token : Token) : Option Tokenizer := do
  let t ← (t.unwind (-1)).dropKey?
  return (t.allowKey false).take 3 token

def openFlow? (t : Tokenizer) (bracket : Bracket) (token : Token) : Option Tokenizer := do
  let t ← t.saveKey?
  return ({ t with flow := bracket :: t.flow }.allowKey true).take 1 token

def closeFlow? (t : Tokenizer) (token : Token) : Option Tokenizer := do
  let t ← t.dropKey?
  return ({ t with flow := t.flow.tail }.allowKey false).take 1 token

def flowEntry? (t : Tokenizer) : Option Tokenizer := do
  let t ← (t.allowKey true).dropKey?
  return t.take 1 .flowEntry

/-- An indicator that can start a block collection: outside of flow collections it stands where a
key may begin, and starts the collection if it is indented deeper. -/
def startBlock? (t : Tokenizer) (token : Token) : Option Tokenizer :=
  if t.inFlow then some t
  else if !t.keyAllowed then none
  else
    match t.deepen t.cursor.column with
    | (true, t) => some (t.push token)
    | (false, t) => some t

def blockEntry? (t : Tokenizer) : Option Tokenizer := do
  let t ← t.startBlock? .blockSequenceStart
  let t ← (t.allowKey true).dropKey?
  return t.take 1 .blockEntry

def key? (t : Tokenizer) : Option Tokenizer := do
  let t ← t.startBlock? .blockMappingStart
  let t ← (t.allowKey (!t.inFlow)).dropKey?
  return t.take 1 .key

/-- The colon of a value. The possible key before it, if there is one, becomes a key, and outside
of flow collections may start a mapping. -/
def value? (t : Tokenizer) : Option Tokenizer := do
  match t.possibleKeys.lookup t.level with
  | some key =>
    let t := { t with
      possibleKeys := t.possibleKeys.filter fun k => k.1 != t.level
      entered := (key.number, .key) :: t.entered }
    let t :=
      if t.inFlow then t
      else
        match t.deepen key.column with
        | (true, t) => { t with entered := (key.number, .blockMappingStart) :: t.entered }
        | (false, t) => t
    return (t.allowKey false).take 1 .value
  | none =>
    let t ← t.startBlock? .blockMappingStart
    let t ← (t.allowKey (!t.inFlow)).dropKey?
    return t.take 1 .value

/-- A directive with its line. It ends all block collections. -/
def directiveToken? (t : Tokenizer) : Option Tokenizer := do
  let t ← (t.unwind (-1)).dropKey?
  let (directive, c) ← directive? t.cursor.forward
  return ((t.allowKey false).moveTo c).push (.directive directive)

def plainToken? (t : Tokenizer) : Option Tokenizer := do
  let t ← t.saveKey?
  let scalar := readPlain t.inFlow (t.indent + 1).toNat t.cursor
  return ((t.allowKey scalar.broken).moveTo scalar.cursor).push (.scalar scalar.value true)

def quotedToken (t : Tokenizer) (double : Bool) : Except Failure Tokenizer :=
  match t.saveKey? with
  | none => .error .malformed
  | some t => do
    let scalar ← readQuoted double t.cursor
    return ((t.allowKey false).moveTo scalar.cursor).push (.scalar scalar.value false)

/-- A block scalar, behind which a key may begin. -/
def blockScalar? (t : Tokenizer) (folded : Bool) : Option Tokenizer := do
  let t ← (t.allowKey true).dropKey?
  let scalar ← readBlock? folded t.indent t.cursor
  return (t.moveTo scalar.cursor).push (.scalar scalar.value false)

def isAnchorChar (c : Char) : Bool :=
  !([',', '[', ']', '\x7b', '\x7d', byteOrderMark].contains c) &&
    (('!' ≤ c && c ≤ '~') || ('\u00A0' ≤ c && c ≤ '\uFFFD') || 0x10000 ≤ c.toNat)

/-- The name of an anchor or an alias, behind its sign. -/
def anchorName? (t : Tokenizer) (token : Text → Token) : Option Tokenizer := do
  let t ← t.saveKey?
  let (name, c) := t.cursor.forward.span isAnchorChar
  let follows := isBreak c.peek ||
    ['\x00', ' ', '\t', '?', ':', ',', '[', ']', '\x7b', '\x7d', '%', '@', '\x60'].contains c.peek
  if name.isEmpty || !follows then none
  return ((t.allowKey false).moveTo c).push (token name)

def tagToken? (t : Tokenizer) : Option Tokenizer := do
  let t ← t.saveKey?
  let (tag, c) ← tag? t.cursor
  return ((t.allowKey false).moveTo c).push (.tag tag)

/-! ## The next token -/

/-- Whether a colon at the front is one of a value: before whitespace, and in curly brackets always
unless it follows another colon that is held back. -/
def startsValue (t : Tokenizer) (held : Bool) : Bool :=
  endsWord (t.cursor.peekAt 1) ||
    (t.flow.head? == some .curly && !(held && t.tokens.head? == some .value))

def startsPlain (t : Tokenizer) : Bool :=
  let c := t.cursor.peek
  let after := t.cursor.peekAt 1
  if isBreak c || endsWord c || "?:,[]#&*!|>'\"%@-".toList.contains c ||
      ['\x7b', '\x7d', '\x60'].contains c then
    (c == '-' && !endsWord after) ||
      (c == ':' && t.inFlow && after != ' ' && after != '\t') ||
      (!t.inFlow && (c == '?' || c == ':') && !endsWord after)
  else true

/-- The token at the front. Nothing if no token starts there. -/
def structural? (t : Tokenizer) (held : Bool) : Option Tokenizer :=
  let c := t.cursor
  let atMargin := c.column == 0
  match c.peek with
  | '[' => t.openFlow? .square .flowSequenceStart
  | '\x7b' => t.openFlow? .curly .flowMappingStart
  | ']' => t.closeFlow? .flowSequenceEnd
  | '\x7d' => t.closeFlow? .flowMappingEnd
  | ',' => t.flowEntry?
  | '*' => t.anchorName? .alias
  | '&' => t.anchorName? .anchor
  | '!' => t.tagToken?
  | ch =>
    if ch == '%' && atMargin then t.directiveToken?
    else if ch == '-' && atMargin && c.atMark '-' then t.documentMark? .documentStart
    else if ch == '.' && atMargin && c.atMark '.' then t.documentMark? .documentEnd
    else if ch == '-' && endsWord (c.peekAt 1) then t.blockEntry?
    else if ch == '?' && (t.inFlow || endsWord (c.peekAt 1)) then t.key?
    else if ch == ':' && t.startsValue held then t.value?
    else if ch == '|' && !t.inFlow then t.blockScalar? false
    else if ch == '>' && !t.inFlow then t.blockScalar? true
    else if t.startsPlain then t.plainToken?
    else none

/-- The end of the text. -/
def ending? (t : Tokenizer) : Option Tokenizer := do
  let t ← (t.unwind (-1)).dropKey?
  return t.push .streamEnd

/-- The next token, behind whitespace and comments, and the ends of the block collections before
it. -/
def next (t : Tokenizer) : Except Failure Tokenizer :=
  match (skipToToken (t.cursor.rest.length + 1) t).dropStaleKeys? with
  | none => .error .malformed
  | some t' =>
    let held := !t.possibleKeys.isEmpty
    let t' := t'.unwind t'.cursor.column
    let scanned := fun (result : Option Tokenizer) =>
      match result with
      | some t => Except.ok t
      | none => .error .malformed
    match t'.cursor.rest with
    | [] => scanned t'.ending?
    | '\x27' :: _ => t'.quotedToken false
    | '\x22' :: _ => t'.quotedToken true
    | _ => scanned (t'.structural? held)

/-! ## All tokens -/

/-- The tokens in order, from the given number on, with the key tokens entered in front of theirs. -/
def merge (entered : List (Nat × Token)) : Nat → List Token → List Token
  | _, [] => []
  | number, token :: rest =>
    (entered.filter fun e => e.1 == number).map (·.2) ++ token :: merge entered (number + 1) rest

/-- So many of the tokens, with the key tokens among them. -/
def first (t : Tokenizer) (count : Nat) : List Token :=
  merge t.entered 0 (t.tokens.reverse.take count)

/-- How many tokens are delivered: those before the first that can begin a key. -/
def delivered (t : Tokenizer) : Nat :=
  (t.possibleKeys.map fun k => k.2.number).foldl min t.tokens.length

end Tokenizer

/-- The tokens of a YAML text and, if it does not end in order, the failure behind them. -/
structure TokenStream where
  tokens : List Token
  failure : Option Failure

namespace Tokenizer

/-- The tokens up to the end of the text. Those before the given number are delivered already. -/
def run : Nat → Nat → Tokenizer → TokenStream
  | 0, count, t => ⟨t.first count, some .malformed⟩
  | steps + 1, count, t =>
    if t.tokens.head? == some .streamEnd then ⟨t.first t.tokens.length, none⟩
    else
      match t.dropStaleKeys? with
      | none => ⟨t.first count, some .malformed⟩
      | some t =>
        match t.next with
        | .ok t' => run steps t.delivered t'
        | .error failure => ⟨t.first t.delivered, some failure⟩

end Tokenizer

/-- The tokens of a YAML text. A character that no such text contains makes up a failure before
all. -/
def tokensOf (text : Text) : TokenStream :=
  if !text.all isYamlChar then ⟨[], some .malformed⟩
  else
    let c := Cursor.start text
    (Tokenizer.start (if c.peek == byteOrderMark then c.forward else c)).run (text.length + 2) 0

end TagTemplate.Runs.Yaml
