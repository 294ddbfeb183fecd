import TemplateMarkup.Assembler
import TemplateMarkup.CommandLine.Arguments
import TemplateMarkup.CommandLine.Line
import TemplateMarkup.CommandLine.Report
import TemplateMarkup.Event
import TemplateMarkup.Json.Basic
import TemplateMarkup.Json.Lexeme
import TemplateMarkup.Json.Skip
import TemplateMarkup.Lexer.Basic
import TemplateMarkup.Lexer.Comment
import TemplateMarkup.Lexer.Expression
import TemplateMarkup.Lexer.Log
import TemplateMarkup.Lexer.Move
import TemplateMarkup.Lexer.State
import TemplateMarkup.Lexer.Step
import TemplateMarkup.Lexer.Tag
import TemplateMarkup.Lexer.Text
import TemplateMarkup.Options
import TemplateMarkup.Reference.Lookup
import TemplateMarkup.Reference.Named
import TemplateMarkup.Reference.Numeric
import TemplateMarkup.Source.Buffer
import TemplateMarkup.Source.Position
import TemplateMarkup.SyntaxError
import TemplateMarkup.Text.CharClass
import TemplateMarkup.Text.LineEnding
import TemplateMarkup.Token.Basic
import TemplateMarkup.Token.Display
import TemplateMarkup.Token.Edit
import TemplateMarkup.Token.ToJson
import TemplateMarkup.Tokenizer
import TemplateMarkup.Main
import TemplateMarkup.Proofs.Lexer.Steps
import TemplateMarkup.Proofs.Lexer.Lookahead
import TemplateMarkup.Proofs.Lexer.Extend
import TemplateMarkup.Proofs.Lexer.Session
import TemplateMarkup.Proofs.Assembler.Shape
import TemplateMarkup.Proofs.Assembler.Tokens
import TemplateMarkup.Proofs.Tokenizer.Session
import TemplateMarkup.Proofs.Tokenizer.Chunking
import TemplateMarkup.Proofs.Assembler.Outline
import TemplateMarkup.Proofs.Lexer.References
import TemplateMarkup.Proofs.Tokenizer.Outline
import TemplateMarkup.Proofs.Lexer.Stops
import TemplateMarkup.Proofs.Tokenizer.Tiling
import TemplateMarkup.Proofs.Assembler.Contents
import TemplateMarkup.Proofs.Lexer.Slice
import TemplateMarkup.Proofs.Tokenizer.Locality
import TemplateMarkup.Proofs.Lexer.Expressions
import TemplateMarkup.Proofs.Lexer.Rejection
import TemplateMarkup.Proofs.Tokenizer.Rejection
import TemplateMarkup.Proofs.Text.Dashes
import TemplateMarkup.Proofs.Event.Construct
import TemplateMarkup.Proofs.Event.Stage
import TemplateMarkup.Proofs.Lexer.Protocol
import TemplateMarkup.Proofs.Assembler.Targets
import TemplateMarkup.Proofs.Tokenizer.Requests
import TemplateMarkup.Proofs.Tokenizer.Safety
import TemplateMarkup.Proofs.Lexer.Decoding
import TemplateMarkup.Proofs.Tokenizer.Decoding
import TemplateMarkup.Proofs.Tokenizer.Documents
import TemplateMarkup.Proofs.Tokenizer.TextRuns
import TemplateMarkup.Proofs.Tokenizer.WellFormed
import TemplateMarkup.Proofs.Tokenizer.RoundTrip
import TemplateMarkup.Proofs.Assembler.Handover
import TemplateMarkup.Proofs.Lexer.Values
import TemplateMarkup.Proofs.Tokenizer.Composition
import TemplateMarkup.Proofs.Tokenizer.Values
import TemplateMarkup.Proofs.Tokenizer.Braces
import TemplateMarkup.Proofs.Token.Layout
import TemplateMarkup.Proofs.Lexer.Tags
import TemplateMarkup.Proofs.Tokenizer.Comments
import TemplateMarkup.Proofs.Tokenizer.TextBraces
import TemplateMarkup.Proofs.Tokenizer.Tags
import TemplateMarkup.Proofs.Token.ExpressionLayout
import TemplateMarkup.Proofs.Lexer.BrokenExpressions
import TemplateMarkup.Proofs.Tokenizer.Expressions
import TemplateMarkup.Proofs.Assembler.Variants
import TemplateMarkup.Proofs.Tokenizer.Variants
import TemplateMarkup.Proofs.Tokenizer.EndForms
import TemplateMarkup.Proofs.Lexer.Braces
import TemplateMarkup.Proofs.Tokenizer.PlainTexts
import TemplateMarkup.Proofs.Text.Pieces
import TemplateMarkup.Proofs.Lexer.Buffered
import TemplateMarkup.Proofs.Lexer.Work
import TemplateMarkup.Proofs.Lexer.Flush
import TemplateMarkup.Proofs.Token.Opening
import TemplateMarkup.Proofs.Lexer.Dropped
import TemplateMarkup.Proofs.Lexer.Marks
import TemplateMarkup.Proofs.Lexer.Openings
import TemplateMarkup.Proofs.Tokenizer.Dropped
import TemplateMarkup.Proofs.Tokenizer.Marks
import TemplateMarkup.Proofs.Reference.Numeral
import TemplateMarkup.Proofs.Json.Scalar
import TemplateMarkup.Proofs.Json.Render
import TemplateMarkup.Proofs.Token.ToJson
import TemplateMarkup.Proofs.Source.Flat
import TemplateMarkup.Proofs.Source.Use
