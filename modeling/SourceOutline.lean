import SourceOutline.Cache
import SourceOutline.Config.Basic
import SourceOutline.Config.Coerce
import SourceOutline.Config.Reader
import SourceOutline.Cpp.Declarator
import SourceOutline.Cpp.Feature
import SourceOutline.Cpp.Grammar
import SourceOutline.Cpp.LineFilter
import SourceOutline.Cpp.Parser
import SourceOutline.Cpp.Scope
import SourceOutline.Cpp.Symbols
import SourceOutline.Dart.Declaration
import SourceOutline.Dart.Feature
import SourceOutline.Dart.Flutter
import SourceOutline.Dart.Parser
import SourceOutline.Dart.Pattern
import SourceOutline.Dart.Step
import SourceOutline.Dart.Strategy
import SourceOutline.Dart.Symbols
import SourceOutline.Digest
import SourceOutline.Error
import SourceOutline.Extraction
import SourceOutline.Feature
import SourceOutline.FileTree
import SourceOutline.Json.Reader
import SourceOutline.Json.Writer
import SourceOutline.Language
import SourceOutline.Log
import SourceOutline.Node
import SourceOutline.Number.Binary64
import SourceOutline.Number.Decimal
import SourceOutline.Number.Shortest
import SourceOutline.Outline
import SourceOutline.Parsing
import SourceOutline.Path
import SourceOutline.Pattern.Basic
import SourceOutline.Pattern.Build
import SourceOutline.Pattern.Search
import SourceOutline.Proofs.Cache.Operation
import SourceOutline.Recovery
import SourceOutline.Session.Basic
import SourceOutline.Session.File
import SourceOutline.Session.Parse
import SourceOutline.Session.Request
import SourceOutline.Session.Symbols
import SourceOutline.Source.Basic
import SourceOutline.Source.Chunk
import SourceOutline.Source.Declaration
import SourceOutline.Source.Index
import SourceOutline.Swift.Access
import SourceOutline.Swift.Declaration
import SourceOutline.Swift.Feature
import SourceOutline.Swift.Parser
import SourceOutline.Swift.Pattern
import SourceOutline.Swift.Step
import SourceOutline.Swift.Symbols
import SourceOutline.Swift.TypeBody
import SourceOutline.Symbol
import SourceOutline.Symbol.Named
import SourceOutline.Text.Blank
import SourceOutline.Text.Capital
import SourceOutline.Text.CodeSet
import SourceOutline.Text.CommaList
import SourceOutline.Text.Given
import SourceOutline.Text.Lines
import SourceOutline.Text.Piece
import SourceOutline.Text.Printable
import SourceOutline.Text.Quoted
import SourceOutline.Text.Utf8
import SourceOutline.Text.Word
import SourceOutline.Tool.Call
import SourceOutline.Tool.Description
import SourceOutline.Value.Basic
import SourceOutline.Value.Display
import SourceOutline.Proofs.Cache.Recency
import SourceOutline.Proofs.Parsing.Provenance
import SourceOutline.Proofs.Session.Run
import SourceOutline.Proofs.Session.Transparency
import SourceOutline.Proofs.Dart.Claim
import SourceOutline.Proofs.Dart.Streaming
import SourceOutline.Proofs.Session.Reachable
import SourceOutline.Proofs.Session.PartialTree
import SourceOutline.Proofs.Cpp.Complete
import SourceOutline.Proofs.Cpp.Stack
import SourceOutline.Proofs.Cpp.RootPath
import SourceOutline.Proofs.Cache.Distance
import SourceOutline.Proofs.Number.Rounding
import SourceOutline.Proofs.Session.Event
import SourceOutline.Proofs.Session.Failure
import SourceOutline.Proofs.Session.Hit
import SourceOutline.Proofs.Symbol.Path
import SourceOutline.Proofs.Session.FilePath
import SourceOutline.Proofs.Parsing.Metadata
import SourceOutline.Proofs.Session.CacheError
import SourceOutline.Proofs.Cpp.Truncation
import SourceOutline.Proofs.Extraction.Attempt
import SourceOutline.Proofs.Node.Marked
import SourceOutline.Proofs.Dart.Parts
import SourceOutline.Proofs.Parsing.Problems
import SourceOutline.Proofs.Parsing.Isolation
import SourceOutline.Proofs.Dart.Complete
import SourceOutline.Proofs.Dart.Recorded
import SourceOutline.Proofs.Pattern.Ending
import SourceOutline.Proofs.Pattern.Extent
import SourceOutline.Proofs.Pattern.Cut
import SourceOutline.Proofs.Pattern.Scan
import SourceOutline.Proofs.Source.Bisection
import SourceOutline.Proofs.Source.Index
import SourceOutline.Proofs.Source.Position
import SourceOutline.Proofs.Dart.Header
import SourceOutline.Proofs.Dart.Chunkwise
import SourceOutline.Proofs.Dart.CutHeader
import SourceOutline.Proofs.Path.Acceptance
import SourceOutline.Proofs.Path.Containment
import SourceOutline.Proofs.Cpp.Declared
import SourceOutline.Proofs.Cpp.Visibility
import SourceOutline.Proofs.Outline.Line
import SourceOutline.Proofs.Outline.Shape
import SourceOutline.Proofs.Source.Block
import SourceOutline.Proofs.Pattern.Part
import SourceOutline.Proofs.Swift.Header
import SourceOutline.Proofs.Swift.Nested
import SourceOutline.Proofs.Swift.Innermost
import SourceOutline.Proofs.Source.Location
import SourceOutline.Proofs.Source.OpenBrace
import SourceOutline.Proofs.Dart.EnumValue
import SourceOutline.Proofs.Dart.Drawn
import SourceOutline.Proofs.Dart.Members
import SourceOutline.Proofs.Parsing.Location
import SourceOutline.Proofs.Parsing.Complete
import SourceOutline.Proofs.Extraction.Limit
import SourceOutline.Proofs.Swift.Limit
import SourceOutline.Proofs.Dart.Limit
import SourceOutline.Proofs.Parsing.Limit
import SourceOutline.Proofs.Swift.Delivered
import SourceOutline.Proofs.Config.Normalised
import SourceOutline.Proofs.Dart.Limited
import SourceOutline.Proofs.Pattern.Spelling
import SourceOutline.Proofs.Dart.WidgetHeading
import SourceOutline.Proofs.Dart.Widgets
import SourceOutline.Proofs.Cache.Accounting
import SourceOutline.Proofs.Cache.Capacity
import SourceOutline.Proofs.Outline.Nesting
import SourceOutline.Proofs.Outline.Answer
import SourceOutline.Proofs.Outline.Nearest
import SourceOutline.Proofs.Dart.TopLevel
import SourceOutline.Proofs.Pattern.Onward
import SourceOutline.Proofs.Text.CommaList
import SourceOutline.Proofs.Source.Body
import SourceOutline.Proofs.Dart.Gap
import SourceOutline.Proofs.Dart.EnumName
import SourceOutline.Proofs.Dart.EnumComment
import SourceOutline.Proofs.Dart.EnumOrder
import SourceOutline.Proofs.Text.Nesting
import SourceOutline.Proofs.Text.Piece
import SourceOutline.Proofs.Cpp.Qualified
import SourceOutline.Proofs.Cpp.Inspection
import SourceOutline.Proofs.Cpp.Walk
import SourceOutline.Proofs.Cpp.MissingNode
import SourceOutline.Proofs.Source.Matching
import SourceOutline.Proofs.Pattern.Preferred
import SourceOutline.Proofs.Pattern.Language
import SourceOutline.Proofs.Swift.Access
import SourceOutline.Proofs.Pattern.Context
import SourceOutline.Proofs.Cpp.Constructor
import SourceOutline.Proofs.Cpp.CommentLine
import SourceOutline.Proofs.Source.Tiling
import SourceOutline.Proofs.Source.Coordinate
import SourceOutline.Proofs.Text.CommaJoin
import SourceOutline.Proofs.Text.Utf8
import SourceOutline.Proofs.Cpp.ByteRange
