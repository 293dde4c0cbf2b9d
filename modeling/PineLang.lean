import PineLang.Build.Compiler
import PineLang.Build.Pipeline
import PineLang.Build.Stage
import PineLang.Build.Toolchain
import PineLang.Build.Version
import PineLang.C.Companion
import PineLang.C.Printer
import PineLang.C.Split
import PineLang.C.Tree
import PineLang.Cache.MessagePack
import PineLang.Cache.Store
import PineLang.Check.Reserved
import PineLang.Check.Rules
import PineLang.Check.Suggest
import PineLang.Cli.Call
import PineLang.Cli.Command
import PineLang.Cli.Completion
import PineLang.Cli.Flag
import PineLang.Cli.Projects
import PineLang.Cli.Session
import PineLang.Cli.Sources
import PineLang.Compile
import PineLang.Diag.Bag
import PineLang.Diag.Code
import PineLang.Diag.Diagnostic
import PineLang.Diag.Render
import PineLang.Diag.Reporter
import PineLang.Diag.SharedStream
import PineLang.Disk.Tree
import PineLang.Lower
import PineLang.Main
import PineLang.Number.Double
import PineLang.Number.Shortest
import PineLang.Project.Manifest
import PineLang.Project.Target
import PineLang.Proofs.BareTrees
import PineLang.Proofs.BlankLines
import PineLang.Proofs.BlockScoping
import PineLang.Proofs.BuiltTrees
import PineLang.Proofs.CConstants
import PineLang.Proofs.CExprs
import PineLang.Proofs.COperands
import PineLang.Proofs.CReader
import PineLang.Proofs.CReading
import PineLang.Proofs.CSpelling
import PineLang.Proofs.CStmts
import PineLang.Proofs.CTokens
import PineLang.Proofs.CTypes
import PineLang.Proofs.CUnits
import PineLang.Proofs.CacheEntries
import PineLang.Proofs.CacheTransparency
import PineLang.Proofs.CanonicalBags
import PineLang.Proofs.Choices
import PineLang.Proofs.CleanPaths
import PineLang.Proofs.CodeSites
import PineLang.Proofs.Complete
import PineLang.Proofs.Constructors
import PineLang.Proofs.Decompositions
import PineLang.Proofs.Descents
import PineLang.Proofs.DiagnosticLimit
import PineLang.Proofs.DirectoryFiles
import PineLang.Proofs.DoubleRounding
import PineLang.Proofs.ElsePlacement
import PineLang.Proofs.FileNumbers
import PineLang.Proofs.FileScope
import PineLang.Proofs.FixedTokens
import PineLang.Proofs.FloatText
import PineLang.Proofs.FormatFixedPoint
import PineLang.Proofs.FormatRoundTrip
import PineLang.Proofs.FormatTokens
import PineLang.Proofs.FreeNames
import PineLang.Proofs.GeneratedFiles
import PineLang.Proofs.Grammar
import PineLang.Proofs.HeaderClosure
import PineLang.Proofs.Indentation
import PineLang.Proofs.IntegerLiterals
import PineLang.Proofs.LegibleUnits
import PineLang.Proofs.LibraryAnswers
import PineLang.Proofs.LineBounds
import PineLang.Proofs.LineEndings
import PineLang.Proofs.LiteralLowering
import PineLang.Proofs.LosslessTokens
import PineLang.Proofs.Lowerable
import PineLang.Proofs.LoweredSites
import PineLang.Proofs.LoweredUnit
import PineLang.Proofs.LoweringFaults
import PineLang.Proofs.NameCodes
import PineLang.Proofs.NameTokens
import PineLang.Proofs.NearestElse
import PineLang.Proofs.NeatText
import PineLang.Proofs.NodeFiles
import PineLang.Proofs.NodeForests
import PineLang.Proofs.NodeGraphs
import PineLang.Proofs.NodeParsing
import PineLang.Proofs.NodeWalks
import PineLang.Proofs.NormalForm
import PineLang.Proofs.ParallelParsing
import PineLang.Proofs.ParsedLiterals
import PineLang.Proofs.ParsedNames
import PineLang.Proofs.ParserComplete
import PineLang.Proofs.ParserFaults
import PineLang.Proofs.ParserSound
import PineLang.Proofs.ParserSteps
import PineLang.Proofs.Pieces
import PineLang.Proofs.Places
import PineLang.Proofs.Plans
import PineLang.Proofs.Positions
import PineLang.Proofs.PrecedenceGrammar
import PineLang.Proofs.PrintedExprs
import PineLang.Proofs.PrintedItems
import PineLang.Proofs.PrintedStmts
import PineLang.Proofs.ReadBack
import PineLang.Proofs.ReaderNames
import PineLang.Proofs.Redeclaration
import PineLang.Proofs.References
import PineLang.Proofs.Relocation
import PineLang.Proofs.RenderedDiagnostics
import PineLang.Proofs.Reports
import PineLang.Proofs.SharedStream
import PineLang.Proofs.ShortestDigits
import PineLang.Proofs.Sites
import PineLang.Proofs.SourceGaps
import PineLang.Proofs.SpanNesting
import PineLang.Proofs.SpelledTokens
import PineLang.Proofs.Spelling
import PineLang.Proofs.StageProtocol
import PineLang.Proofs.StringConstants
import PineLang.Proofs.StringLiterals
import PineLang.Proofs.Suggestions
import PineLang.Proofs.TokenKinds
import PineLang.Proofs.TokenStream
import PineLang.Proofs.ToldFailures
import PineLang.Proofs.TypeNames
import PineLang.Proofs.UnambiguousExprs
import PineLang.Proofs.UsedNames
import PineLang.Proofs.Utf8
import PineLang.Proofs.Validity
import PineLang.Proofs.WordNames
import PineLang.Source.Directory
import PineLang.Source.File
import PineLang.Source.FileSet
import PineLang.Source.Interner
import PineLang.Source.Library
import PineLang.Source.Path
import PineLang.Source.Recent
import PineLang.Source.Sha256
import PineLang.Source.Span
import PineLang.Source.Workers
import PineLang.Syntax.Arena
import PineLang.Syntax.Descent
import PineLang.Syntax.Dump
import PineLang.Syntax.Holes
import PineLang.Syntax.Names
import PineLang.Syntax.NodeParser
import PineLang.Syntax.NodeWalk
import PineLang.Syntax.Parser
import PineLang.Syntax.Precedence
import PineLang.Syntax.Printer
import PineLang.Syntax.SyntaxError
import PineLang.Syntax.Tree
import PineLang.Syntax.Walk
import PineLang.Terminal.Mode
import PineLang.Terminal.Progress
import PineLang.Text.Colour
import PineLang.Text.Diff
import PineLang.Text.Json
import PineLang.Text.Normal
import PineLang.Text.Quoted
import PineLang.Text.Range
import PineLang.Text.Space
import PineLang.Text.Timestamp
import PineLang.Text.Utf8
import PineLang.Text.Yaml
import PineLang.Token.Basic
import PineLang.Token.Kind
import PineLang.Token.LexError
import PineLang.Token.Lexer
import PineLang.Token.Listing
import PineLang.Toml.Document
import PineLang.Toml.Reader
import PineLang.Toml.Value
import PineLang.Trace.Level
import PineLang.Trace.Tracer
import PineLang.Unicode.Canonical
import PineLang.Unicode.Category
import PineLang.Unicode.Printable
import PineLang.Unicode.Width
import PineLang.Unix.Arithmetic
import PineLang.Unix.Builtin
import PineLang.Unix.Condition
import PineLang.Unix.Format
import PineLang.Unix.Pattern
import PineLang.Unix.Program
import PineLang.Unix.Reader
import PineLang.Unix.Run
import PineLang.Unix.Script
import PineLang.Unix.State
import PineLang.Unix.Status
import PineLang.Unix.Tools
