import StepTrace.Text.Blank
import StepTrace.Text.Lines
import StepTrace.Text.Search
import StepTrace.Text.WordChar
import StepTrace.Text.Case
import StepTrace.Number.Binary
import StepTrace.Number.Shortest
import StepTrace.Number.Text
import StepTrace.Number.Reading
import StepTrace.Json
import StepTrace.Pattern.Positions
import StepTrace.Pattern.Basic
import StepTrace.Pattern.Search
import StepTrace.Language
import StepTrace.Structure
import StepTrace.Syntax.Token
import StepTrace.Syntax.Lexer
import StepTrace.Syntax.Tree
import StepTrace.Syntax.Reader
import StepTrace.Syntax.Parser
import StepTrace.Capture.Candidates
import StepTrace.Capture.LineMap
import StepTrace.Capture.Placement
import StepTrace.Pattern.Pieces
import StepTrace.Lowering.Rule
import StepTrace.Lowering.Shared
import StepTrace.Lowering.Java
import StepTrace.Lowering.Cpp
import StepTrace.Lowering.Host
import StepTrace.Text.Quoted
import StepTrace.Value.Basic
import StepTrace.Scope.Basic
import StepTrace.Scope.Environment
import StepTrace.Value.Heap
import StepTrace.Value.Text
import StepTrace.Eval.Fault
import StepTrace.Value.Limit
import StepTrace.Number.Bits
import StepTrace.Value.Equality
import StepTrace.Value.Operator
import StepTrace.Trace.Snapshot
import StepTrace.Value.Property
import StepTrace.Builtin.Math
import StepTrace.Builtin.Conversion
import StepTrace.Builtin.TextMethod
import StepTrace.Builtin.Sort
import StepTrace.Trace.Step
import StepTrace.Eval.History
import StepTrace.Eval.State
import StepTrace.Builtin.ArrayMethod
import StepTrace.Builtin.NativeCall
import StepTrace.Eval.Loop
import StepTrace.Eval.Program
import StepTrace.Eval.Run
import StepTrace.Trace.Stream
import StepTrace.Trace.Report
import StepTrace.Session
import StepTrace.Text.Cluster
import StepTrace.Text.Presentation
import StepTrace.Text.Width
import StepTrace.Viewer.Style
import StepTrace.Viewer.Picture
import StepTrace.Viewer.ListRow
import StepTrace.Viewer.Highlight
import StepTrace.Viewer.SourcePane
import StepTrace.Viewer.ScopePane
import StepTrace.Viewer.StructurePane
import StepTrace.Viewer.StatusBar
import StepTrace.Viewer.Cursor
import StepTrace.Viewer.Model
import StepTrace.Command.Options
import StepTrace.Command.FileTree
import StepTrace.Command.Answer
import StepTrace.Main
import StepTrace.Proofs.Computation
import StepTrace.Proofs.Placement
import StepTrace.Proofs.Correspondence
import StepTrace.Proofs.CorrespondingPrograms
import StepTrace.Proofs.Handover
import StepTrace.Proofs.Unbounded
import StepTrace.Proofs.Abandonment
import StepTrace.Proofs.Stream
import StepTrace.Proofs.ReportedRun
import StepTrace.Proofs.StreamOperations
import StepTrace.Proofs.Words
import StepTrace.Proofs.ParsedTree
import StepTrace.Proofs.Snapshots
import StepTrace.Proofs.Unfolding
import StepTrace.Proofs.Transparency
import StepTrace.Proofs.RecordedSteps
import StepTrace.Proofs.VisibleBindings
import StepTrace.Proofs.CapturePlacement
import StepTrace.Proofs.Pieces
import StepTrace.Proofs.LineScan
import StepTrace.Proofs.Numerals
import StepTrace.Proofs.ScannedLexemes
import StepTrace.Proofs.CodeLines
import StepTrace.Proofs.Parts
import StepTrace.Proofs.TokenWalk
import StepTrace.Proofs.ReadBraces
import StepTrace.Proofs.ScannedBodies
import StepTrace.Proofs.BodyLines
import StepTrace.Proofs.Ends
import StepTrace.Proofs.WellShapedRuns
import StepTrace.Proofs.Frames
import StepTrace.Proofs.StackDiscipline
import StepTrace.Proofs.LexicalScopes
import StepTrace.Proofs.ReportedPlaces
import StepTrace.Proofs.LexicalCalls
import StepTrace.Proofs.LimitedRuns
import StepTrace.Proofs.Edits
import StepTrace.Proofs.MatchedLines
import StepTrace.Proofs.LineNumbers
import StepTrace.Proofs.LiteralSearch
import StepTrace.Proofs.UntouchedText
import StepTrace.Proofs.NegatedQueries
import StepTrace.Proofs.CalledNames
import StepTrace.Proofs.ReadCalls
import StepTrace.Proofs.EntryCall
import StepTrace.Proofs.Sessions
import StepTrace.Proofs.LeftmostMatch
import StepTrace.Proofs.GenericTypes
import StepTrace.Proofs.GenericRounds
import StepTrace.Proofs.StoredValues
import StepTrace.Proofs.StringLimit
import StepTrace.Proofs.StringLiterals
import StepTrace.Proofs.StringOperations
import StepTrace.Proofs.EvaluatedStrings
import StepTrace.Proofs.LimitedStrings
import StepTrace.Proofs.Evaluation
import StepTrace.Proofs.Tiling
import StepTrace.Proofs.OperatorGrouping
import StepTrace.Proofs.SortedArrays
import StepTrace.Proofs.RoundVariables
import StepTrace.Proofs.IntegerWidth
import StepTrace.Proofs.TextConversion
import StepTrace.Proofs.ArrayTexts
import StepTrace.Proofs.ExactCounts
import StepTrace.Proofs.SpelledCounts
import StepTrace.Proofs.ArrayKeys
import StepTrace.Proofs.Callbacks
import StepTrace.Proofs.ComparedDoubles
import StepTrace.Proofs.ValueEquality
import StepTrace.Proofs.StateCells
import StepTrace.Proofs.ParallelAssignment
import StepTrace.Proofs.Occurrences
import StepTrace.Proofs.LinePatterns
import StepTrace.Proofs.ParameterNames
import StepTrace.Proofs.TypedSignatures
import StepTrace.Proofs.PrintedTrees
import StepTrace.Proofs.AbsentPatterns
import StepTrace.Proofs.ArrayDeclarations
import StepTrace.Proofs.LoweredArrays
import StepTrace.Proofs.ArrayTokens
import StepTrace.Proofs.ArrayLiterals
import StepTrace.Proofs.NestedArrays
import StepTrace.Proofs.SplitTexts
import StepTrace.Proofs.ExactIntegers
import StepTrace.Proofs.SplicedArrays
import StepTrace.Proofs.RadixTexts
import StepTrace.Proofs.NumeralDoubles
import StepTrace.Proofs.NumeralFronts
import StepTrace.Proofs.NumeralBytes
import StepTrace.Proofs.LoopLevels
import StepTrace.Proofs.LoopForests
import StepTrace.Proofs.JoinedPrograms
import StepTrace.Proofs.Progress
import StepTrace.Proofs.ViewerRuns
import StepTrace.Proofs.ParserProgress
import StepTrace.Proofs.HighlightedLines
