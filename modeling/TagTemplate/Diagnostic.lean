import TagTemplate.Text.Position
import TagTemplate.Vocabulary

set_option autoImplicit false

/-! # Diagnostics and refusals

A diagnostic reports a failure to the author of a template: what is wrong, of which kind the failure
is, and where it is. A refusal tells the caller of a constructor that its arguments will not do, and
has no place. -/

namespace TagTemplate

structure Diagnostic where
  message : String
  kind : FailureKind
  offset : Int
  line : Int
  column : Int
deriving DecidableEq

namespace Diagnostic

def atPosition (message : String) (kind : FailureKind) (p : Position) : Diagnostic :=
  ⟨message, kind, p.offset, p.line, p.column⟩

/-- The message followed by line and column. -/
def text (d : Diagnostic) : String :=
  d.message ++ " at " ++ toString d.line ++ ":" ++ toString d.column

end Diagnostic

/-- The classes of errors that are no diagnostics. Those that only come from outside of the library
are known by name. -/
inductive ErrorClass
  | typeError
  | valueError
  | indexError
  | attributeError
  | frozenInstance
  | other (name : String)
deriving DecidableEq, Repr

def ErrorClass.name : ErrorClass → String
  | typeError => "TypeError"
  | valueError => "ValueError"
  | indexError => "IndexError"
  | attributeError => "AttributeError"
  | frozenInstance => "FrozenInstanceError"
  | other name => name

/-- A refusal as the caller sees it. -/
structure Refusal where
  errorClass : ErrorClass
  message : String
deriving DecidableEq

end TagTemplate
