set_option autoImplicit false

/-! # Kinds of tokens, modes and kinds of failure

Three closed vocabularies that messages and displays name: the kinds of tokens, the two modes of a
lexer, and the kinds of failure that reading a template can end with. -/

namespace TagTemplate

inductive TokenKind
  | endOfInput
  | textString
  | tagStart
  | tagEnd
  | identifier
  | integer
  | double
  | tagString
  | function
  | operator
deriving DecidableEq, Repr

namespace TokenKind

def all : List TokenKind :=
  [endOfInput, textString, tagStart, tagEnd, identifier, integer, double, tagString, function,
    operator]

def name : TokenKind → String
  | endOfInput => "END_OF_INPUT"
  | textString => "TEXT_STRING"
  | tagStart => "TAG_START"
  | tagEnd => "TAG_END"
  | identifier => "IDENTIFIER"
  | integer => "INTEGER"
  | double => "DOUBLE"
  | tagString => "TAG_STRING"
  | function => "FUNCTION"
  | operator => "OPERATOR"

end TokenKind

/-- A lexer reads plain text or the inside of a tag. -/
inductive Mode
  | text
  | tag
deriving DecidableEq, Repr

namespace Mode

def all : List Mode := [text, tag]

def name : Mode → String
  | text => "TEXT"
  | tag => "TAG"

end Mode

/-- The kinds of failure that reading a template can end with. -/
inductive FailureKind
  | lexical
  | unexpectedToken
  | unclosedTag
  | unknownTag
  | arity
  | invalidArgument
  | endArguments
  | unbalancedEnd
  | unbalancedFor
deriving DecidableEq, Repr

namespace FailureKind

def all : List FailureKind :=
  [lexical, unexpectedToken, unclosedTag, unknownTag, arity, invalidArgument, endArguments,
    unbalancedEnd, unbalancedFor]

def name : FailureKind → String
  | lexical => "LEX"
  | unexpectedToken => "UNEXPECTED_TOKEN"
  | unclosedTag => "UNCLOSED_TAG"
  | unknownTag => "UNKNOWN_TAG"
  | arity => "ARITY"
  | invalidArgument => "INVALID_ARGUMENT"
  | endArguments => "END_ARGUMENTS"
  | unbalancedEnd => "UNBALANCED_END"
  | unbalancedFor => "UNBALANCED_FOR"

/-- The code of a kind of failure in reports: its name in lower case. -/
def code : FailureKind → String
  | lexical => "lex"
  | unexpectedToken => "unexpected_token"
  | unclosedTag => "unclosed_tag"
  | unknownTag => "unknown_tag"
  | arity => "arity"
  | invalidArgument => "invalid_argument"
  | endArguments => "end_arguments"
  | unbalancedEnd => "unbalanced_end"
  | unbalancedFor => "unbalanced_for"

end FailureKind

end TagTemplate
