import TagTemplate.Element.Construct
import TagTemplate.Lexer.Basic

set_option autoImplicit false

/-! # Failures of the parser

The tokens of a text need not form a template. `SyntaxCause` lists the ways in which they can fail
to; each has its wording, its kind and the position it is reported at. A parse also ends with a
failure of the lexer. -/

namespace TagTemplate

/-- The tags that take arguments. -/
inductive ArgumentTag
  | echo
  | loop
deriving DecidableEq, Repr

def ArgumentTag.name : ArgumentTag → String
  | echo => "="
  | loop => "FOR"

/-- How the tokens of a text fail to form a template. -/
inductive SyntaxCause
  | unexpectedOutside (kind : TokenKind)
  | tagNotClosed
  | tagNameExpected (kind : TokenKind)
  | unknownTag (name : Text)
  | argumentsNotClosed (tag : ArgumentTag)
  | unexpectedArgument (tag : ArgumentTag) (kind : TokenKind)
  | equalsArgument (tag : ArgumentTag)
  | loopArity (count : Nat)
  | loopVariable (element : Element)
  | strictBound (element : Element)
  | endNotClosed
  | endWithArguments
  | endWithoutLoop
  | loopsNotClosed (count : Nat) (innermost : Identifier)
deriving DecidableEq

namespace SyntaxCause

def message : SyntaxCause → String
  | unexpectedOutside kind => "Unexpected token " ++ kind.name ++ " outside of a tag"
  | tagNotClosed => "Tag not closed"
  | tagNameExpected kind => "Expected tag name, got " ++ kind.name
  | unknownTag name => "Unknown tag name '" ++ String.ofList name ++ "'"
  | argumentsNotClosed tag => tag.name ++ " tag not closed"
  | unexpectedArgument tag kind => "Unexpected token " ++ kind.name ++ " in " ++ tag.name ++ " tag"
  | equalsArgument tag => "'=' is not a valid argument in " ++ tag.name ++ " tag"
  | loopArity count => "FOR tag takes 3 or 4 arguments, got " ++ toString count
  | loopVariable element =>
    "FOR loop variable must be a variable, got '" ++ String.ofList element.literal ++ "'"
  | strictBound element =>
    "FOR bound or step cannot be '" ++ String.ofList element.literal ++ "'"
  | endNotClosed => "END tag not closed"
  | endWithArguments => "END tag takes no arguments"
  | endWithoutLoop => "END tag without a matching FOR"
  | loopsNotClosed count innermost =>
    toString count ++ " FOR tag(s) not closed with END (innermost: " ++
      String.ofList innermost.name ++ ")"

def kind : SyntaxCause → FailureKind
  | unexpectedOutside _ => .unexpectedToken
  | tagNotClosed => .unclosedTag
  | tagNameExpected _ => .unknownTag
  | unknownTag _ => .unknownTag
  | argumentsNotClosed _ => .unclosedTag
  | unexpectedArgument _ _ => .unexpectedToken
  | equalsArgument _ => .invalidArgument
  | loopArity _ => .arity
  | loopVariable _ => .invalidArgument
  | strictBound _ => .invalidArgument
  | endNotClosed => .unclosedTag
  | endWithArguments => .endArguments
  | endWithoutLoop => .unbalancedEnd
  | loopsNotClosed _ _ => .unbalancedFor

end SyntaxCause

structure SyntaxError where
  cause : SyntaxCause
  position : Position
deriving DecidableEq

def SyntaxError.diagnostic (e : SyntaxError) : Diagnostic :=
  .atPosition e.cause.message e.cause.kind e.position

/-- Why a parse ends without a document. -/
inductive ParseFailure
  | lexical (error : LexError)
  | digitLimit (count : Nat)
  | malformed (error : SyntaxError)
  | rejected (rejection : Rejection)

def ParseFailure.ofLex : LexFailure → ParseFailure
  | .error error => .lexical error
  | .digitLimit count => .digitLimit count

end TagTemplate
