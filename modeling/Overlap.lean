import Overlap.Analysis.Context
import Overlap.Analysis.Run
import Overlap.Analysis.Setup
import Overlap.Annotation
import Overlap.CallGraph.Basic
import Overlap.CallGraph.Hierarchy
import Overlap.CallGraph.Mode
import Overlap.CallGraph.Rapid
import Overlap.CallGraph.Resolver
import Overlap.CallGraph.TypeFlow
import Overlap.CallTree
import Overlap.Command.Execute
import Overlap.Command.Flag
import Overlap.Command.Hint
import Overlap.Command.Launch
import Overlap.Command.Options
import Overlap.Config.Basic
import Overlap.Config.Load
import Overlap.Decimal.Digits
import Overlap.Decimal.Format
import Overlap.Decimal.Read
import Overlap.DefUse
import Overlap.Dependence.Analyzer
import Overlap.Dependence.Graph
import Overlap.Dependence.Kind
import Overlap.Dot
import Overlap.Effect.Basic
import Overlap.Effect.Query
import Overlap.Files
import Overlap.GlobalAccess
import Overlap.Graph.Closure
import Overlap.Graph.Cycle
import Overlap.Graph.PostOrder
import Overlap.Graph.Search
import Overlap.Keyed
import Overlap.Log
import Overlap.Main
import Overlap.Memory.Constraint
import Overlap.Memory.Layout
import Overlap.Memory.Nodes
import Overlap.Memory.PointsTo
import Overlap.NodeSet
import Overlap.Profile.Basic
import Overlap.Profile.Load
import Overlap.Profile.Samples
import Overlap.Proofs.Aliases
import Overlap.Proofs.Analyze
import Overlap.Proofs.AnalyzePair
import Overlap.Proofs.AnswerTables
import Overlap.Proofs.ArgumentNodes
import Overlap.Proofs.CallTree
import Overlap.Proofs.CallTreeDrawing
import Overlap.Proofs.Circuits
import Overlap.Proofs.Components
import Overlap.Proofs.ConflictOrder
import Overlap.Proofs.Conflicts
import Overlap.Proofs.Deduplication
import Overlap.Proofs.DefUseChains
import Overlap.Proofs.DependenceGraph
import Overlap.Proofs.DepthFirst
import Overlap.Proofs.DerivedWrites
import Overlap.Proofs.Dominance
import Overlap.Proofs.EffectAnswer
import Overlap.Proofs.EffectExact
import Overlap.Proofs.Gather
import Overlap.Proofs.GlobalAccess
import Overlap.Proofs.GraphOperations
import Overlap.Proofs.InstructionAccess
import Overlap.Proofs.Lists
import Overlap.Proofs.LookupOrder
import Overlap.Proofs.NodeSets
import Overlap.Proofs.OrderCycles
import Overlap.Proofs.Paths
import Overlap.Proofs.PostOrder
import Overlap.Proofs.ProfileRecords
import Overlap.Proofs.Program
import Overlap.Proofs.ProgramOrder
import Overlap.Proofs.Reach
import Overlap.Proofs.RealTimes
import Overlap.Proofs.Recursion
import Overlap.Proofs.ReportedGroups
import Overlap.Proofs.Resolution
import Overlap.Proofs.RunRecords
import Overlap.Proofs.SampledTimes
import Overlap.Proofs.ServedGroups
import Overlap.Proofs.Sorting
import Overlap.Proofs.StoredRuns
import Overlap.Proofs.Tables
import Overlap.Proofs.Timestamps
import Overlap.Proofs.UnknownCallees
import Overlap.Quantity
import Overlap.Regex.Basic
import Overlap.Regex.Pattern
import Overlap.Render
import Overlap.Report.Document
import Overlap.Report.Group
import Overlap.Report.Text
import Overlap.Serve
import Overlap.Source.Outline
import Overlap.Source.Token
import Overlap.Ssa.Flow
import Overlap.Ssa.Interchange
import Overlap.Ssa.MethodSet
import Overlap.Ssa.Names
import Overlap.Ssa.Object
import Overlap.Ssa.Program
import Overlap.Ssa.Text
import Overlap.Ssa.Type
import Overlap.Store.Open
import Overlap.Store.Results
import Overlap.Store.Table
import Overlap.Store.Timestamp
import Overlap.Text.Base64
import Overlap.Text.Blank
import Overlap.Text.Bytes
import Overlap.Text.Hex
import Overlap.Text.Json
import Overlap.Text.Json.Read
import Overlap.Text.Path
import Overlap.Text.Percent
import Overlap.Text.Printable
import Overlap.Text.Quoted
import Overlap.Yaml.Cursor
import Overlap.Yaml.Decode
import Overlap.Yaml.Node
import Overlap.Yaml.Scalar
import Overlap.Yaml.Token
import Overlap.Yaml.Value
import Overlap.Proofs.PathTables
import Overlap.Proofs.AnalysisRuns
import Overlap.Proofs.DependenceDrawing
import Overlap.Proofs.RepeatedAnalysis
import Overlap.Proofs.SortedResults
