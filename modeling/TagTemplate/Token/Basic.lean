import TagTemplate.Datum.Basic
import TagTemplate.Text.Position

set_option autoImplicit false

/-! # Tokens

A token is what a lexer makes of a stretch of text: a payload, which is the token's kind together
with its value, and the position where the stretch begins. -/

namespace TagTemplate

inductive Payload
  | endOfInput
  | text (value : Text)
  | tagStart
  | tagEnd
  | identifier (name : Text)
  | integer (value : Int)
  | double (value : Double)
  | string (value : Text)
  | function (name : Text)
  | operator (symbol : Char)
deriving DecidableEq

def tagStartText : Text := ['\x7b', '$']

def tagEndText : Text := ['$', '\x7d']

namespace Payload

def kind : Payload → TokenKind
  | endOfInput => .endOfInput
  | text _ => .textString
  | tagStart => .tagStart
  | tagEnd => .tagEnd
  | identifier _ => .identifier
  | integer _ => .integer
  | double _ => .double
  | string _ => .tagString
  | function _ => .function
  | operator _ => .operator

/-- The value of a token: none at the end of the input, and the characters of the tag delimiters. -/
def value : Payload → Datum
  | endOfInput => .none
  | text value => .text value
  | tagStart => .text tagStartText
  | tagEnd => .text tagEndText
  | identifier name => .text name
  | integer value => .integer value
  | double value => .float (.finite value)
  | string value => .text value
  | function name => .text name
  | operator symbol => .text [symbol]

end Payload

/-- A payload with the position where its text begins. -/
structure Token where
  payload : Payload
  position : Position
deriving DecidableEq

/-- Whether a token is the last one of a text. -/
def Token.isEnd (t : Token) : Bool := t.payload == .endOfInput

end TagTemplate
