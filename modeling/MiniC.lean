import MiniC.Dialect
import MiniC.Position
import MiniC.Token.Kind
import MiniC.Text.Graphic
import MiniC.Text.Quoted
import MiniC.Text.Blank
import MiniC.Text.Lines
import MiniC.Text.Align
import MiniC.Binary64.Basic
import MiniC.Binary64.Nearest
import MiniC.Binary64.Shortest
import MiniC.Binary64.Layout
import MiniC.Listing.Basic
import MiniC.Token.Basic
import MiniC.Token.Numeral
import MiniC.Diagnostic.Basic
import MiniC.Diagnostic.Snippet
import MiniC.Text.Bytes
import MiniC.Lexer.Pattern
import MiniC.Lexer.Pattern.Lemmas
import MiniC.Lexer.Segment
import MiniC.Lexer.Segment.Lemmas
import MiniC.Lexer.Tokenize
import MiniC.Lexer.Cursor
import MiniC.Syntax.Operator
import MiniC.Syntax.Basic
import MiniC.Syntax.Render
import MiniC.Syntax.Listing
import MiniC.Syntax.Equality
import MiniC.Parser.Basic
import MiniC.Parser.Expr
import MiniC.Parser.Stmt
import MiniC.Parser.Grammar
import MiniC.Analysis
import MiniC.Prompt.LineBuffer
import MiniC.CommandLine.Settings
import MiniC.CommandLine.Report
import MiniC.Prompt.Session
import MiniC.CommandLine.Files
import MiniC.CommandLine.Run
import MiniC.Main
import MiniC.Proofs.Parser.Run
import MiniC.Proofs.Parser.Progress
import MiniC.Proofs.Grammar.Progress
import MiniC.Proofs.Grammar.Derivation
import MiniC.Proofs.Parser.Reads
import MiniC.Proofs.Grammar.Soundness
import MiniC.Proofs.Parser.Accepts
import MiniC.Proofs.Grammar.Completeness
import MiniC.Proofs.Grammar.Recognition
import MiniC.Proofs.Parser.Prefix
import MiniC.Proofs.Parser.Lookahead
import MiniC.Proofs.Grammar.Lookahead
import MiniC.Proofs.Grammar.Continuation
import MiniC.Proofs.Binary64.ReadBack
import MiniC.Proofs.Lexer.FirstMatch
import MiniC.Proofs.Lexer.Yields
import MiniC.Proofs.Rendering.Expressions
import MiniC.Proofs.Rendering.Parts
import MiniC.Proofs.Rendering.Statements
import MiniC.Proofs.Rendering.RoundTrip
import MiniC.Proofs.Rendering.Literals
import MiniC.Proofs.Syntax.Composed
import MiniC.Proofs.Grammar.Composition
import MiniC.Proofs.Prompt.TextScan
import MiniC.Proofs.Lexer.Reach
import MiniC.Proofs.Prompt.Agreement
import MiniC.Proofs.Prompt.Completion
import MiniC.Proofs.Lexer.Values
import MiniC.Proofs.Rendering.Nesting
import MiniC.Proofs.Lexer.Place
import MiniC.Proofs.Lexer.Lexeme
import MiniC.Proofs.Lexer.Iteration
import MiniC.Proofs.Lexer.Items
import MiniC.Proofs.Lexer.Lookahead
import MiniC.Proofs.Lexer.LineBreak
import MiniC.Proofs.Lexer.Fading
import MiniC.Proofs.Lexer.Erasure
import MiniC.Proofs.Lexer.Respacing
import MiniC.Proofs.Lexer.LongestMatch
import MiniC.Proofs.Lexer.Exponents
import MiniC.Proofs.Text.LineEnds
import MiniC.Proofs.Lexer.LineEnds
import MiniC.Proofs.Analysis.LineEnds
import MiniC.Proofs.Parser.Reasons
import MiniC.Proofs.Grammar.Reasons
import MiniC.Proofs.Diagnostic.Frame
import MiniC.Proofs.Analysis.Framed
import MiniC.Proofs.Grammar.Respelling
import MiniC.Proofs.Analysis.Location
import MiniC.Proofs.Syntax.Depth
import MiniC.Proofs.Grammar.Depth
import MiniC.Proofs.Analysis.Accepted
import MiniC.Proofs.Token.Shape
import MiniC.Proofs.Parser.Narrowing
import MiniC.Proofs.Grammar.Narrowing
import MiniC.Proofs.Analysis.Outcome
import MiniC.Proofs.Analysis.Shape
import MiniC.Proofs.Grammar.Minus
import MiniC.Proofs.Grammar.Precedence
import MiniC.Proofs.Prompt.Conservation
import MiniC.Proofs.Text.Encoding
import MiniC.Proofs.CommandLine.Arguments
import MiniC.Proofs.Prompt.Sessions
import MiniC.Proofs.Parser.Evaluation
import MiniC.Proofs.Grammar.Termination
import MiniC.Proofs.CommandLine.Dispatch
import MiniC.Proofs.Lexer.WholeNumbers
import MiniC.Proofs.Lexer.Queue
import MiniC.Proofs.Parser.Nesting
import MiniC.Proofs.Parser.Tracks
import MiniC.Proofs.Grammar.Nesting
import MiniC.Proofs.Grammar.Blame
