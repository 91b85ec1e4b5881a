import TagTemplate.Parser.Builder
import TagTemplate.Lexer.Progress
import TagTemplate.Options.Basic

set_option autoImplicit false

/-! # Parsing

A parse asks its lexer for one token at a time, each in the mode that the place of the builder
calls for, and takes the builder's step. It ends with the document at the end of the input, or with
the first failure of lexer or builder; behind a failure no further token is read. -/

namespace TagTemplate

/-- A parse: the tokens it has read, what it ended with, and its lexer at that point. -/
structure ParseRun where
  tokens : List Token
  result : Except ParseFailure (List Node)
  lexer : Lexer

/-- The parse from a state of the builder and a lexer on. -/
def BuildState.run (options : Options) (s : BuildState) (l : Lexer) : ParseRun :=
  match _h : (l.setMode s.place.mode).next with
  | (.error failure, l') => ⟨[], .error (.ofLex failure), l'⟩
  | (.ok t, l') =>
    match _hs : s.step options.strict t with
    | .error failure => ⟨[t], .error failure, l'⟩
    | .ok (.finished document) => ⟨[t], .ok document, l'⟩
    | .ok (.next s') =>
      let run := s'.run options l'
      { run with tokens := t :: run.tokens }
termination_by l.rest.length
decreasing_by
  have hlt := Lexer.next_rest_lt _h (step_next_not_end _hs)
  exact hlt

def parseRun (options : Options) (t : Text) : ParseRun :=
  BuildState.start.run options (Lexer.ofText t)

/-- The nodes of the document that a text stands for. -/
def parse (options : Options) (t : Text) : Except ParseFailure (List Node) :=
  (parseRun options t).result

/-- The text that a datum hands to the parser. -/
def documentBody : Datum → Except InputRejection Text
  | .text t => .ok t
  | d => .error (.documentBody d.typeName)

end TagTemplate
