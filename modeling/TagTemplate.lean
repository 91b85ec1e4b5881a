import TagTemplate.Lexer.Tokenize
import TagTemplate.Token.Record
import TagTemplate.Tree.Equality
import TagTemplate.Tree.Outline
import TagTemplate.Parser.Parse
import TagTemplate.Store.Construct
import TagTemplate.Store.Equality
import TagTemplate.Store.Walker
import TagTemplate.Number.FloatText
import TagTemplate.Runs.Yaml.Value
import TagTemplate.Proofs.Number.Literal
import TagTemplate.Proofs.Lexer.Literal
import TagTemplate.Proofs.Lexer.Run
import TagTemplate.Proofs.Parser.Replay
import TagTemplate.Proofs.Parser.Step
import TagTemplate.Proofs.Parser.Grammar
import TagTemplate.Proofs.Tree.NormalForm
import TagTemplate.Proofs.Parser.NormalForm
import TagTemplate.Proofs.RoundTrip
import TagTemplate.Proofs.Lexer.DigitLimit
import TagTemplate.Proofs.Parser.Failure
import TagTemplate.Proofs.Lexer.Request
import TagTemplate.Proofs.Number.Nearest
import TagTemplate.Proofs.Lexer.Lexeme
import TagTemplate.Proofs.Parser.Lockstep
import TagTemplate.Proofs.Lexer.Partition
import TagTemplate.Proofs.Parser.Position
import TagTemplate.Proofs.Parser.Tags
import TagTemplate.Proofs.Parser.FirstFault
import TagTemplate.Proofs.Lexer.Final
import TagTemplate.Proofs.Parser.Strict
import TagTemplate.Proofs.Lexer.Lookahead
import TagTemplate.Proofs.Lexer.Extension
import TagTemplate.Proofs.Parser.Image
import TagTemplate.Proofs.Concatenation
import TagTemplate.Proofs.Lexer.Cut
import TagTemplate.Proofs.Nesting
import TagTemplate.Proofs.Layout
import TagTemplate.Proofs.Parser.OpenLoops
import TagTemplate.Proofs.Parser.BeforeFailure
import TagTemplate.Proofs.Lexer.WellFormed
import TagTemplate.Proofs.Lexer.NumberLiteral
import TagTemplate.Proofs.Lexer.DoubleLiteral
import TagTemplate.Proofs.Lexer.Canonical
import TagTemplate.Proofs.Termination
import TagTemplate.Proofs.Parser.LaterText
import TagTemplate.Proofs.Store.Sharing
import TagTemplate.Proofs.Tree.Equality
import TagTemplate.Proofs.Store.Equality
import TagTemplate.Proofs.Store.Rendering
import TagTemplate.Proofs.Store.Traversal
import TagTemplate.Proofs.Lexer.Name
import TagTemplate.Proofs.Lexer.Forward
import TagTemplate.Proofs.Store.Outline
import TagTemplate.Proofs.Options.Mapping
import TagTemplate.Proofs.Parser.TagReport
