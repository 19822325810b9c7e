import Sow.Effect.Wp
import Sow.Js.Sort
import Sow.Js.Utf8
import Sow.Js.Value
import Sow.Knowledge.MarkdownVault.Atomicity
import Sow.Knowledge.MarkdownVault.RegionGrammar
import Sow.Knowledge.MarkdownVault.NoteBody
import Sow.Knowledge.MarkdownVault.Upsert
import Sow.Knowledge.KnowledgeWriter.FrontmatterCodec
import Sow.Knowledge.KnowledgeWriter.ScalarCodec
import Sow.Knowledge.KnowledgeWriter.FrontmatterReading
import Sow.Knowledge.KnowledgeWriter.Plan
import Sow.Knowledge.KnowledgeWriter.Revision
import Sow.Knowledge.KnowledgeWriter.Ownership
import Sow.Knowledge.Gbrain.Derive.CanonicalFactDeriver
import Sow.Knowledge.KnowledgeWriter.ProvenanceStamp
import Sow.Knowledge.KnowledgeWriter.Projection
import Sow.Knowledge.KnowledgeWriter.Writer
import Sow.Knowledge.KnowledgeWriter.WriterModel
import Sow.Knowledge.KnowledgeWriter.WriterSpec
import Sow.Knowledge.KnowledgeWriter.MemoryPorts
import Sow.Knowledge.KnowledgeWriter.PlainNotes
import Sow.Knowledge.KnowledgeWriter.RevisionIdentity
import Sow.Knowledge.KnowledgeWriter.WriterAtomicity
import Sow.Knowledge.KnowledgeWriter.RevisionChain
import Sow.Knowledge.KnowledgeWriter.StampAgreement
import Sow.Knowledge.KnowledgeWriter.CreateRegions
import Sow.Knowledge.KnowledgeWriter.RegionPatch
import Sow.Effect.Interleave
import Sow.Js.Number
import Sow.Contracts.Models
import Sow.Db.Errors
import Sow.Db.Invariants.OperationalTruth
import Sow.Db.Approvals
import Sow.Db.ApprovalRace
import Sow.Db.CopilotChats
import Sow.Db.EventLog
import Sow.Db.Migrate.Runner
import Sow.Db.Migrate.BootHistory
import Sow.Sql.Keyset
import Sow.Worker.Stream.ApprovalStream
import Sow.Worker.Stream.EventClasses
import Sow.Worker.Stream.PushStream
import Sow.Worker.Stream.Lossless
import Sow.Worker.Stream.OutboundOrder
import Sow.Integrations.Tools.Ports
import Sow.Integrations.Tools.ReceiptStore
import Sow.Integrations.Tools.Gateway
import Sow.Integrations.Tools.Outbox
import Sow.Integrations.Tools.OutboxDrain
import Sow.Integrations.Tools.ToolModel
import Sow.Integrations.Tools.HeldWrites
import Sow.Integrations.Tools.AtMostOneObject
import Sow.Integrations.Tools.DispatchSpec
import Sow.Integrations.Tools.AppliedOnce
import Sow.Integrations.Tools.IntentSpec
import Sow.Integrations.Tools.NewestIntent
import Sow.Js.Case
import Sow.Policy.Processors
import Sow.Policy.Egress
import Sow.Policy.AuditSignal
import Sow.Policy.Authority
import Sow.Policy.Loopback
import Sow.Policy.Slips
import Sow.Policy.EgressVeto
import Sow.Db.InstanceLeases
import Sow.Worker.Lease.InstanceLease
import Sow.Worker.Lease.SingleHolder
import Sow.Worker.Lease.LeaseFence
import Sow.Effect.Program
import Sow.Domain.State.Machines
import Sow.Db.WorkflowRunRefs
import Sow.Workflows.Runtime.WorkflowRun
import Sow.Workflows.Runtime.RunRegistry
import Sow.Workflows.Runtime.RunHistory
import Sow.Workflows.ApprovalFlow
import Sow.Workflows.Activities.ApprovalTransition
import Sow.Contracts.SemanticFact
import Sow.Worker.Api.ApprovalCommands
import Sow.Worker.Approvals.ApprovalHistory
import Sow.Queue.BoundedDrain
import Sow.Db.GbrainSyncOutbox
import Sow.Knowledge.KnowledgeWriter.SyncOutbox
import Sow.Knowledge.Gbrain.IndexSync
import Sow.Worker.Gbrain.SyncOutbox
import Sow.Worker.Gbrain.DrainModel
import Sow.Worker.Gbrain.DrainSpec
import Sow.Worker.Gbrain.DrainProgress
import Sow.Domain.Keys
import Sow.Domain.KeyIdentity
import Sow.Domain.RedactString
import Sow.Domain.BlankedMarkers
import Sow.Domain.Sha256
import Sow.Integrations.Connectors.FileSource
import Sow.Db.Outbox
import Sow.Worker.Approvals.ExternalDispatch
import Sow.Worker.Approvals.SentAsApproved
import Sow.Time.Rfc3339
import Sow.Policy.Visibility
import Sow.Knowledge.Gcl.CrossWorkspaceLinks
import Sow.Knowledge.Gcl.LinkHistory
import Sow.Knowledge.Gbrain.Parity.Reconciler
import Sow.Knowledge.Gbrain.Parity.Verdict
import Sow.Knowledge.Gbrain.Parity.HiddenFacts
import Sow.Policy.CopilotTools
import Sow.Policy.CopilotConfinement
import Sow.Policy.ProviderMatrix
import Sow.Providers.Broker.RouteBinding
import Sow.Providers.Broker.Pipeline
import Sow.Providers.Broker.GateBinding
import Sow.Providers.Broker.ReplayLedger
import Sow.Knowledge.Gbrain.Derive.PageBinding
import Sow.Knowledge.Gbrain.Derive.PageFacts
import Sow.Knowledge.Gbrain.Derive.FactKeys
import Sow.Knowledge.Gbrain.Derive.ExactFacts
import Sow.Knowledge.Gbrain.Serving.QuarantineLedger
import Sow.Knowledge.Gbrain.Serving.RehydrationGate
import Sow.Knowledge.Gbrain.Serving.AdmitsCommitted
import Sow.Db.Backup.BackupSink
import Sow.Db.Backup.SinkSpec
import Sow.Db.Backup.RunSpec
import Sow.Db.Backup.Restorable
import Sow.Workflows.Runtime.CatchUpWindow
import Sow.Workflows.Activities.PrunePolicy
import Sow.Workflows.RetentionPrune
import Sow.Workflows.PruneAudit
import Sow.Js.Path
import Sow.Knowledge.KnowledgeWriter.WorkspacePathGuard
import Sow.Worker.Copilot.ServedPaths
import Sow.Workflows.Activities.Projections.NoteSlug
import Sow.Workflows.Activities.Projections.MeetingOutputs
import Sow.Workflows.Activities.Projections.MeetingActions
import Sow.Worker.Composition.SourceNotePath
import Sow.Policy.Admission
import Sow.Workflows.Activities.RunAgentJob
import Sow.Worker.Composition.SourceExtraction
import Sow.Worker.Copilot.ProposeSink
import Sow.Worker.Copilot.HonestRecord
import Sow.Worker.Copilot.KnowledgeSink
import Sow.Worker.Copilot.ProposeKnowledge
import Sow.Worker.Copilot.SavedActions
import Sow.Worker.Copilot.SemanticDispatch
import Sow.Effect.Crash
import Sow.Workflows.DecideFlow
import Sow.Worker.Composition.ApprovedDispatch
import Sow.Knowledge.KnowledgeWriter.CommitRecord
import Sow.Workflows.Activities.CommitKnowledge
import Sow.Workflows.Activities.BuildOutputs
import Sow.Workflows.Activities.BuildSyncOutputs
import Sow.Js.Json
import Sow.Workflows.Activities.CommittedOutputs
import Sow.Workflows.Activities.MeetingProjection
import Sow.Workflows.Activities.OutputBuilders
import Sow.Workflows.Runtime.Resume
import Sow.Workflows.Activities.EnvelopeReuse
import Sow.Worker.Lifecycle.Recovery
import Sow.Integrations.Tools.CreatedOnce
import Sow.Worker.Lifecycle.HonestRecovery
import Sow.Db.WorkspaceConfig
import Sow.Worker.Composition.WorkspaceCalls
import Sow.Worker.Composition.EgressFinal
import Sow.Worker.Composition.DispositionDurable
import Sow.Worker.Composition.TriageConverges
import Sow.Knowledge.Synthesis.EntityResolver
import Sow.Knowledge.Synthesis.Planner
import Sow.Knowledge.Synthesis.ConfinedSynthesis
import Sow.Worker.Watch.OwnWrites
import Sow.Worker.Watch.VaultWatcher
import Sow.Worker.Watch.WatchLoop
import Sow.Contracts.GclProjection
import Sow.Knowledge.Gcl.VisibilityGate
import Sow.Knowledge.Gbrain.WriteFence
import Sow.Knowledge.KnowledgeWriter.LinkEdits
import Sow.Worker.Composition.OperationLog
import Sow.Knowledge.KnowledgeWriter.SecretScan
import Sow.Knowledge.Audit.ValidationRefusal
