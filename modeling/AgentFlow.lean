import AgentFlow.Main
import AgentFlow.Compiled
import AgentFlow.Editor.Session
import AgentFlow.Http.Service
import AgentFlow.Schema.Catalog
import AgentFlow.Text.CamelCase
import AgentFlow.Proofs.Canonical
import AgentFlow.Proofs.Editor.Runs
import AgentFlow.Proofs.Skeleton.Generation
import AgentFlow.Proofs.Validation.ExportReady
import AgentFlow.Proofs.Grouping
import AgentFlow.Proofs.Plan.Assembly
import AgentFlow.Proofs.Plan.Branches
import AgentFlow.Proofs.Plan.Transitions
import AgentFlow.Proofs.Plan.RouteKeys
import AgentFlow.Proofs.Plan.DuplicateKeys
import AgentFlow.Proofs.Plan.Reachability
import AgentFlow.Proofs.Skeleton.Reader
import AgentFlow.Proofs.Text.LiteralReading
import AgentFlow.Proofs.Skeleton.PythonReader
import AgentFlow.Proofs.Skeleton.Wiring
import AgentFlow.Proofs.Skeleton.Readings
import AgentFlow.Proofs.Skeleton.ProgramsAgree
import AgentFlow.Proofs.Editor.Changes
import AgentFlow.Proofs.Editor.EdgeIds
import AgentFlow.Proofs.Editor.Locality
import AgentFlow.Proofs.Editor.Pins
import AgentFlow.Proofs.Editor.Removal
import AgentFlow.Proofs.Compiled.Edges
import AgentFlow.Proofs.Text.WholeWord
import AgentFlow.Proofs.Compiled.RoundTrip
import AgentFlow.Proofs.Renaming.Canonical
import AgentFlow.Proofs.Renaming.Plan
import AgentFlow.Proofs.Renaming.Program
import AgentFlow.Proofs.Schema.Breaks
import AgentFlow.Proofs.Http.Status
import AgentFlow.Proofs.FrontEnds
import AgentFlow.Proofs.Skeleton.DocText
import AgentFlow.Proofs.Skeleton.Docstrings
import AgentFlow.Proofs.Text.Slugs
import AgentFlow.Proofs.Plan.ReservedWords
import AgentFlow.Proofs.Skeleton.Comments
import AgentFlow.Proofs.Skeleton.Tokens
import AgentFlow.Proofs.Skeleton.Vocabulary
import AgentFlow.Proofs.Skeleton.PythonFacts
import AgentFlow.Proofs.Skeleton.TypeScriptFacts
import AgentFlow.Proofs.Skeleton.FunctionNames
import AgentFlow.Proofs.Catalog.Instances
import AgentFlow.Proofs.Agreement
import AgentFlow.Proofs.Skeleton.Outline
import AgentFlow.Proofs.Editor.Dumps
import AgentFlow.Proofs.Plan.Emission
import AgentFlow.Proofs.Plan.GraphKeys
import AgentFlow.Proofs.RoutedKeys
import AgentFlow.Proofs.Skeleton.PythonLiterals
import AgentFlow.Proofs.RoleClosure
import AgentFlow.Proofs.RoutingBySource
import AgentFlow.Proofs.Editor.Commutation
import AgentFlow.Proofs.Editor.ParallelEdges
import AgentFlow.Proofs.Skeleton.TypeScriptLiterals
import AgentFlow.Proofs.GivenNames
import AgentFlow.Proofs.MemorySignal
import AgentFlow.Proofs.Text.LowerCase
import AgentFlow.Proofs.Skeleton.StatementEnd
