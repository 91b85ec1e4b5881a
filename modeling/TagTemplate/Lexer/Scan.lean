import TagTemplate.Token.Basic
import TagTemplate.Identifier
import TagTemplate.Number.DigitLimit

set_option autoImplicit false

/-! # Scanning one token

A scan takes the rest of a text and cuts off the token at its front. In text mode that is a tag
opening or a run of plain text up to the next one; in tag mode, behind any whitespace, it is the end
of the tag, a name, a number, a function, a string or an operator. A scan that fails says how much
of the text it passed before it stopped: always `blank ++ passed ++ rest` is the text it was
given. -/

namespace TagTemplate

/-- What is wrong with the text at the front. -/
inductive LexFault
  | textEscape (escaped : Option Char)
  | stringEscape (escaped : Option Char)
  | unterminatedString
  | functionName
  | unexpectedCharacter (c : Char)
  | malformedNumber (literal : Text)
  | doubleRange (literal : Text)
  | integerRange (literal : Text)
deriving DecidableEq

/-- Why a scan produces no token: a fault of the text, or an integer with more digits than are
converted. -/
inductive ScanFailure
  | fault (fault : LexFault)
  | digitLimit (count : Nat)
deriving DecidableEq

/-- What a scan makes of the text behind the whitespace: the part it passed, the rest, and the
payload of the token if there is one. -/
structure Reading where
  passed : Text
  rest : Text
  result : Except ScanFailure Payload

namespace Reading

/-- A reading that stops before the first character. -/
def stuck (t : Text) (failure : ScanFailure) : Reading := ⟨[], t, .error failure⟩

end Reading

/-! ## Escaped text

A run decodes a stretch of text with escape sequences. -/

/-- A decoded stretch: the source that was passed, its value, the rest, and what stopped it if that
was a fault. -/
structure Run where
  passed : Text
  value : Text
  rest : Text
  fault : Option LexFault

namespace Run

def done (rest : Text) : Run := ⟨[], [], rest, none⟩

def failed (rest : Text) (fault : LexFault) : Run := ⟨[], [], rest, some fault⟩

/-- A run with one more character in front, which the given source stands for. -/
def cons (source : Text) (c : Char) (r : Run) : Run :=
  ⟨source ++ r.passed, c :: r.value, r.rest, r.fault⟩

/-- The reading of a run whose value makes a token. -/
def toReading (r : Run) (payload : Text → Payload) : Reading :=
  ⟨r.passed, r.rest, match r.fault with
    | none => .ok (payload r.value)
    | some fault => .error (.fault fault)⟩

end Run

/-- What an escaped character stands for in plain text: a backslash and an opening brace for
themselves. -/
def textEscape? (c : Char) : Option Char :=
  if c = '\\' then some '\\' else if c = '\x7b' then some '\x7b' else none

/-- What an escaped character stands for in a string. -/
def stringEscape? (c : Char) : Option Char :=
  if c = '\\' then some '\\'
  else if c = '\x22' then some '\x22'
  else if c = 'n' then some '\n'
  else if c = 'r' then some '\r'
  else if c = 't' then some '\t'
  else none

/-- The run of plain text up to a tag opening or the end of the text. -/
def textRun : Text → Run
  | [] => .done []
  | '\x7b' :: '$' :: rest => .done ('\x7b' :: '$' :: rest)
  | '\\' :: c :: rest =>
    match textEscape? c with
    | some d => .cons ['\\', c] d (textRun rest)
    | none => .failed ('\\' :: c :: rest) (.textEscape (some c))
  | ['\\'] => .failed ['\\'] (.textEscape none)
  | c :: rest => .cons [c] c (textRun rest)

/-- The run of a string behind its opening quote, the closing quote included. -/
def stringRun : Text → Run
  | [] => .failed [] .unterminatedString
  | '\x22' :: rest => ⟨['\x22'], [], rest, none⟩
  | '\\' :: c :: rest =>
    match stringEscape? c with
    | some d => .cons ['\\', c] d (stringRun rest)
    | none => .failed ('\\' :: c :: rest) (.stringEscape (some c))
  | ['\\'] => .failed ['\\'] (.stringEscape none)
  | c :: rest => .cons [c] c (stringRun rest)

/-! ## Numbers

A number literal is a minus sign, if there is one, and the longest run of digits and points behind
it. What the run holds decides whether it is an integer, a double or malformed. -/

/-- Digits and points make up a number literal. -/
def isNumberPart (c : Char) : Bool := c.isDigit || c == '.'

def splitSign : Text → Bool × Text
  | '-' :: rest => (true, rest)
  | t => (false, t)

def signText (negative : Bool) : Text := if negative then ['-'] else []

def numberPayload (negative : Bool) (body : Text) : Except ScanFailure Payload :=
  let literal := signText negative ++ body
  let whole := body.takeWhile Char.isDigit
  match body.dropWhile Char.isDigit with
  | [] =>
    if maxIntegerDigits < body.length then .error (.digitLimit body.length)
    else
      let magnitude : Int := Nat.ofDigitChars 10 body 0
      let value := if negative then -magnitude else magnitude
      if inIntegerRange value then .ok (.integer value)
      else .error (.fault (.integerRange literal))
  | _ :: fraction =>
    if whole ≠ [] ∧ fraction ≠ [] ∧ fraction.all Char.isDigit then
      match Double.ofNumeral? negative whole fraction with
      | some x => .ok (.double x)
      | none => .error (.fault (.doubleRange literal))
    else .error (.fault (.malformedNumber literal))

/-- Whether a number literal starts at the front: a digit, or a minus sign directly before one. -/
def startsNumber : Text → Bool
  | '-' :: c :: _ => c.isDigit
  | c :: _ => c.isDigit
  | [] => false

/-- The number at the front. A letter, digit or underscore directly behind the literal spoils it. A
literal that makes no token is not passed. -/
def readNumber (t : Text) : Reading :=
  let (negative, unsigned) := splitSign t
  let body := unsigned.takeWhile isNumberPart
  let rest := unsigned.dropWhile isNumberPart
  let literal := signText negative ++ body
  match rest.head?.filter isIdentifierPart with
  | some c => .stuck t (.fault (.malformedNumber (literal ++ [c])))
  | none =>
    match numberPayload negative body with
    | .ok payload => ⟨literal, rest, .ok payload⟩
    | .error failure => .stuck t failure

/-! ## One token -/

/-- Whitespace in tags: space, tab, carriage return and line feed. -/
def isBlank (c : Char) : Bool := c == ' ' || c == '\t' || c == '\r' || c == '\n'

/-- The token at the front in text mode. -/
def readText : Text → Reading
  | [] => ⟨[], [], .ok .endOfInput⟩
  | '\x7b' :: '$' :: rest => ⟨tagStartText, rest, .ok .tagStart⟩
  | t => (textRun t).toReading .text

def readFunction (rest : Text) : Reading :=
  match rest with
  | c :: tail =>
    if isIdentifierStart c then
      let name := c :: tail.takeWhile isIdentifierPart
      ⟨'@' :: name, tail.dropWhile isIdentifierPart, .ok (.function name)⟩
    else .stuck ('@' :: rest) (.fault .functionName)
  | [] => .stuck ['@'] (.fault .functionName)

def readString (rest : Text) : Reading :=
  let run := stringRun rest
  { run with passed := '\x22' :: run.passed }.toReading .string

/-- The token at the front in tag mode, with no whitespace before it. -/
def readTag : Text → Reading
  | [] => ⟨[], [], .ok .endOfInput⟩
  | '$' :: '\x7d' :: rest => ⟨tagEndText, rest, .ok .tagEnd⟩
  | '=' :: rest => ⟨['='], rest, .ok (.identifier ['='])⟩
  | c :: rest =>
    if isIdentifierStart c then
      let name := c :: rest.takeWhile isIdentifierPart
      ⟨name, rest.dropWhile isIdentifierPart, .ok (.identifier name)⟩
    else if startsNumber (c :: rest) then readNumber (c :: rest)
    else if c = '@' then readFunction rest
    else if c = '\x22' then readString rest
    else if (Operator.ofSymbol? c).isSome then ⟨[c], rest, .ok (.operator c)⟩
    else .stuck (c :: rest) (.fault (.unexpectedCharacter c))

/-- A scan: the whitespace it skipped and what it made of the text behind. -/
structure Scan extends Reading where
  blank : Text

/-- The scan of the rest of a text in a mode. -/
def scan : Mode → Text → Scan
  | .text, t => ⟨readText t, []⟩
  | .tag, t => ⟨readTag (t.dropWhile isBlank), t.takeWhile isBlank⟩

end TagTemplate
