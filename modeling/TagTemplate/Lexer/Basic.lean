import TagTemplate.Lexer.Scan
import TagTemplate.Diagnostic
import TagTemplate.Text.Quoted

set_option autoImplicit false

/-! # The lexer

A lexer stands in a text and produces one token at a time, in the mode it has been set to. It does
not change its mode itself: whoever reads the tokens knows where a tag begins and ends.

A fault of the text is final. A lexer that has met one answers every later request with the same
fault at the same place, and after the end of the input there is nothing more to ask for. The one
failure that leaves no trace is an integer with too many digits: the lexer stays in front of it. -/

namespace TagTemplate

/-! ## Failures -/

namespace LexFault

/-- How a message shows the escape sequence of an escaped character. -/
def escapeText : Option Char → String
  | none => "'\\' at end of input"
  | some c => String.ofList (Text.quoted ['\\', c])

def message : LexFault → String
  | textEscape escaped => "Invalid escape sequence in text: " ++ escapeText escaped
  | stringEscape escaped => "Invalid escape sequence in string: " ++ escapeText escaped
  | unterminatedString => "Unterminated string"
  | functionName => "Function name must start with a letter after '@'"
  | unexpectedCharacter c => "Unexpected character in tag: " ++ String.ofList (Text.quoted [c])
  | malformedNumber literal => "Malformed number: " ++ String.ofList (Text.quoted literal)
  | doubleRange literal => "Number out of range: " ++ String.ofList (Text.quoted literal)
  | integerRange literal => "Integer out of range: " ++ String.ofList (Text.quoted literal)

end LexFault

/-- Why a lexer gives no token: a fault of the text, an earlier fault, the end of the input, or, if
its last token is asked for, that there is none. -/
inductive LexCause
  | fault (fault : LexFault)
  | stopped (fault : LexFault)
  | pastEnd
  | noToken
deriving DecidableEq

def LexCause.message : LexCause → String
  | fault f => f.message
  | stopped f => "Lexer stopped after an earlier error: " ++ f.message
  | pastEnd => "Cannot tokenize past end of input"
  | noToken => "No token has been produced yet"

structure LexError where
  cause : LexCause
  position : Position
deriving DecidableEq

def LexError.diagnostic (e : LexError) : Diagnostic :=
  .atPosition e.cause.message .lexical e.position

/-- A failed request for a token: a lexical error, or an integer beyond the limit of digits. -/
inductive LexFailure
  | error (error : LexError)
  | digitLimit (count : Nat)
deriving DecidableEq

/-- The refusal of an integer beyond the limit of digits, which is no diagnostic. -/
def digitLimitRefusal (count : Nat) : Refusal := ⟨.valueError, digitLimitMessage count⟩

/-! ## The lexer and its steps -/

/-- A fault that a lexer has met, and where it reports it. -/
structure MetFault where
  fault : LexFault
  position : Position
deriving DecidableEq

/-- A lexer: its mode, the text still to read, where it stands, the last token it produced and the
fault that stopped it, if there are such. -/
structure Lexer where
  mode : Mode
  rest : Text
  position : Position
  last : Option Token
  met : Option MetFault

namespace Lexer

/-- A new lexer, in text mode before the first character. -/
def ofText (t : Text) : Lexer := ⟨.text, t, .start, none, none⟩

def setMode (l : Lexer) (mode : Mode) : Lexer := { l with mode := mode }

def isFinished (l : Lexer) : Bool :=
  match l.last with
  | some t => t.isEnd
  | none => false

/-- Where a fault is reported: an unterminated string where it starts, and any other fault where
the scan stopped. -/
def faultPosition (fault : LexFault) (start stop : Position) : Position :=
  if fault = .unterminatedString then start else stop

/-- The lexer behind a scan, and what the scan gave. -/
def afterScan (l : Lexer) (s : Scan) : Except LexFailure Token × Lexer :=
  let start := l.position.advance s.blank
  let stop := start.advance s.passed
  let moved := { l with rest := s.rest, position := stop }
  match s.result with
  | .ok payload => (.ok ⟨payload, start⟩, { moved with last := some ⟨payload, start⟩ })
  | .error (.digitLimit count) => (.error (.digitLimit count), moved)
  | .error (.fault fault) =>
    let place := faultPosition fault start stop
    (.error (.error ⟨.fault fault, place⟩), { moved with met := some ⟨fault, place⟩ })

def next (l : Lexer) : Except LexFailure Token × Lexer :=
  match l.met with
  | some met => (.error (.error ⟨.stopped met.fault, met.position⟩), l)
  | none =>
    if l.isFinished then (.error (.error ⟨.pastEnd, l.position⟩), l)
    else l.afterScan (scan l.mode l.rest)

def token (l : Lexer) : Except LexError Token :=
  match l.last with
  | some t => .ok t
  | none => .error ⟨.noToken, l.position⟩

end Lexer

/-! ## Checked arguments -/

/-- Why a lexer or a parser refuses what it is given. -/
inductive InputRejection
  | lexerInput (typeName : String)
  | lexerMode (typeName : String)
  | documentBody (typeName : String)

def InputRejection.message : InputRejection → String
  | lexerInput typeName => "Lexer input must be a string, got " ++ typeName
  | lexerMode typeName => "Lexer state must be a LexerState, got " ++ typeName
  | documentBody typeName => "Document body must be a string, got " ++ typeName

def InputRejection.refusal (r : InputRejection) : Refusal := ⟨.typeError, r.message⟩

namespace Lexer

/-- A new lexer over a datum, which has to be a text. -/
def ofDatum : Datum → Except InputRejection Lexer
  | .text t => .ok (ofText t)
  | d => .error (.lexerInput d.typeName)

/-- The lexer in the mode that a datum names. -/
def setModeTo (l : Lexer) : Datum → Except InputRejection Lexer
  | .mode mode => .ok (l.setMode mode)
  | d => .error (.lexerMode d.typeName)

end Lexer

end TagTemplate
