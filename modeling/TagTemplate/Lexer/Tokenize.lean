import TagTemplate.Lexer.Progress

set_option autoImplicit false

/-! # The tokens of a text

A whole text is tokenized by one rule about modes: the token that opens a tag switches to tag mode,
the token that closes one switches back to text mode, and no other token changes the mode. -/

namespace TagTemplate

/-- The mode behind a token that was read in the given mode. -/
def modeAfter (mode : Mode) : Payload → Mode
  | .tagStart => .tag
  | .tagEnd => .text
  | _ => mode

/-- The tokens that a lexer produced, the failure that ended them if there was one, and the lexer
behind them. -/
structure TokenRun where
  tokens : List Token
  failure : Option LexFailure
  lexer : Lexer

/-- The run of a lexer up to the end of the input or the first failure. -/
def Lexer.drain (l : Lexer) : TokenRun :=
  match _h : l.next with
  | (.error failure, l') => ⟨[], some failure, l'⟩
  | (.ok t, l') =>
    if _ht : t.isEnd then ⟨[t], none, l'⟩
    else
      let run := (l'.setMode (modeAfter l'.mode t.payload)).drain
      { run with tokens := t :: run.tokens }
termination_by l.rest.length
decreasing_by
  have hlt := next_rest_lt _h (by simpa using _ht)
  exact hlt

def tokenize (t : Text) : Except LexFailure (List Token) :=
  let run := (Lexer.ofText t).drain
  match run.failure with
  | none => .ok run.tokens
  | some failure => .error failure

end TagTemplate
