import TraceLineage.Config.Change
import TraceLineage.Minting.Survey
import TraceLineage.Scenario.Generation
import TraceLineage.Scenario.Report
import TraceLineage.Scenario.Slots
import TraceLineage.Settings.Decode
import TraceLineage.Proofs.Adapter.JobSeries
import TraceLineage.Proofs.Adapter.Propagation
import TraceLineage.Proofs.Adapter.Provenance
import TraceLineage.Proofs.Adapter.Twins
import TraceLineage.Proofs.Config.Rules
import TraceLineage.Proofs.Context.AppendOnly
import TraceLineage.Proofs.Execution.Isolation
import TraceLineage.Proofs.Http.Phases
import TraceLineage.Proofs.Config.Stepwise
import TraceLineage.Proofs.Config.ReadBack
import TraceLineage.Proofs.Execution.Correspondence
import TraceLineage.Proofs.Execution.Parallel
import TraceLineage.Proofs.Adapter.Parallel
import TraceLineage.Proofs.Http.Options
import TraceLineage.Proofs.Boundary.Atomicity
import TraceLineage.Proofs.Execution.Guards
import TraceLineage.Proofs.Http.Rejection
import TraceLineage.Proofs.Minting.Composition
import TraceLineage.Proofs.Text.Inbound
import TraceLineage.Proofs.Config.Acceptance
import TraceLineage.Proofs.Context.Resemblance
import TraceLineage.Proofs.Adapter.Discreet
import TraceLineage.Proofs.Adapter.CopiedHeaders
import TraceLineage.Proofs.Adapter.StackedExecutors
import TraceLineage.Proofs.Adapter.CapturedSpans
import TraceLineage.Proofs.Adapter.JobRecords
import TraceLineage.Proofs.Config.Decoding
import TraceLineage.Proofs.Http.HeaderNames
