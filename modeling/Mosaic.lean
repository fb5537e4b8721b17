import Mosaic.Backends
import Mosaic.CommandLine
import Mosaic.Config
import Mosaic.Decimal
import Mosaic.Dispatch
import Mosaic.Document
import Mosaic.Embedding.Embed
import Mosaic.Embedding.Inline
import Mosaic.Embedding.Region
import Mosaic.Failure
import Mosaic.Files
import Mosaic.Grammar
import Mosaic.Json.Encode
import Mosaic.Json.Pretty
import Mosaic.Json.Value
import Mosaic.Location
import Mosaic.Main
import Mosaic.Markup.Piece
import Mosaic.Markup.Stringify
import Mosaic.Markup.Tag
import Mosaic.Markup.Tokenize
import Mosaic.Output.Formats
import Mosaic.Output.TreeView
import Mosaic.Path
import Mosaic.Proofs.Bytewise.Checked
import Mosaic.Proofs.Bytewise.Dispatch
import Mosaic.Proofs.Bytewise.Encoding
import Mosaic.Proofs.Bytewise.Markup.Cursor
import Mosaic.Proofs.Bytewise.Markup.Document
import Mosaic.Proofs.Bytewise.Markup.Tag
import Mosaic.Proofs.Bytewise.Position
import Mosaic.Proofs.Bytewise.Progress
import Mosaic.Proofs.Bytewise.Script.Document
import Mosaic.Proofs.Bytewise.Script.Lexeme
import Mosaic.Proofs.Bytewise.Style.Document
import Mosaic.Proofs.Bytewise.Style.Lexeme
import Mosaic.Proofs.Bytewise.Template
import Mosaic.Proofs.Bytewise.Walk
import Mosaic.Proofs.Coordinates
import Mosaic.Proofs.Dialect
import Mosaic.Proofs.Embedding.Again
import Mosaic.Proofs.Embedding.Effect
import Mosaic.Proofs.Embedding.Failure
import Mosaic.Proofs.Embedding.Inline
import Mosaic.Proofs.Embedding.Located
import Mosaic.Proofs.Embedding.Nesting
import Mosaic.Proofs.Embedding.Order
import Mosaic.Proofs.Embedding.Parts
import Mosaic.Proofs.Embedding.Passes
import Mosaic.Proofs.Embedding.Separation
import Mosaic.Proofs.Embedding.Tree
import Mosaic.Proofs.Embedding.Types
import Mosaic.Proofs.Embedding.Wrapper
import Mosaic.Proofs.Exchange
import Mosaic.Proofs.Failure
import Mosaic.Proofs.Json.Encode
import Mosaic.Proofs.Json.Pretty
import Mosaic.Proofs.Location
import Mosaic.Proofs.Locator
import Mosaic.Proofs.Markup.Agreement
import Mosaic.Proofs.Markup.Cut
import Mosaic.Proofs.Markup.Detail
import Mosaic.Proofs.Markup.Failure
import Mosaic.Proofs.Markup.Piece
import Mosaic.Proofs.Markup.RawText
import Mosaic.Proofs.Markup.Tag
import Mosaic.Proofs.Markup.TextRun
import Mosaic.Proofs.Outcome
import Mosaic.Proofs.Output.Lines
import Mosaic.Proofs.Output.Preorder
import Mosaic.Proofs.RoundTrip
import Mosaic.Proofs.Script.Brackets
import Mosaic.Proofs.Script.Cut
import Mosaic.Proofs.Script.Division
import Mosaic.Proofs.Script.Extent
import Mosaic.Proofs.Script.Failure
import Mosaic.Proofs.Script.Grammar
import Mosaic.Proofs.Script.Lines
import Mosaic.Proofs.Script.Reading
import Mosaic.Proofs.Script.Tree
import Mosaic.Proofs.Spot
import Mosaic.Proofs.Style.Agreement
import Mosaic.Proofs.Style.Comment
import Mosaic.Proofs.Style.Ends
import Mosaic.Proofs.Style.Failure
import Mosaic.Proofs.Style.NestedRule
import Mosaic.Proofs.Style.Piece
import Mosaic.Proofs.Style.Run
import Mosaic.Proofs.Style.Segment
import Mosaic.Proofs.Style.Stand
import Mosaic.Proofs.Style.Wrapper
import Mosaic.Proofs.Template
import Mosaic.Proofs.Template.Agreement
import Mosaic.Proofs.Template.Balance
import Mosaic.Proofs.Template.Extent
import Mosaic.Proofs.Text
import Mosaic.Proofs.Token
import Mosaic.Proofs.Unused
import Mosaic.Script.Lexeme
import Mosaic.Script.Parse
import Mosaic.Script.Tree
import Mosaic.Settings.Layers
import Mosaic.Settings.Loader
import Mosaic.Settings.Value
import Mosaic.Style.Lexeme
import Mosaic.Style.Piece
import Mosaic.Style.Tokenize
import Mosaic.Template.Adapter
import Mosaic.Template.Scanner
import Mosaic.Text.Blank
import Mosaic.Text.CodeRanges
import Mosaic.Text.Escape
import Mosaic.Text.Letter
import Mosaic.Text.Measure
import Mosaic.Text.Numeral
import Mosaic.Text.Visible
import Mosaic.Token.Basic
import Mosaic.Token.Kind
import Mosaic.Token.Tag
import Mosaic.Toml.Document
import Mosaic.Toml.Scalar
import Mosaic.Toml.Table
