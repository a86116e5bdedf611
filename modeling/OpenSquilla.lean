import OpenSquilla.Transport.FlowRetirement
import OpenSquilla.Transport.FlowWatermarks
import OpenSquilla.Transport.Budget
import OpenSquilla.Streams.ReplayCompleteness
import OpenSquilla.Scheduler.EditFence
import OpenSquilla.Approvals.Authority
import OpenSquilla.Approvals.Consistency
import OpenSquilla.Histories.ProviderValid
import OpenSquilla.Patches.Parser
import OpenSquilla.Patches.Commit
import OpenSquilla.Repetition.Chunking
import OpenSquilla.ToolStreams.Assembly
import OpenSquilla.Ingress.SingleClaim
import OpenSquilla.TextTools.Conservation
import OpenSquilla.PendingInputs.ExactlyOnce
import OpenSquilla.Goals.Authority
import OpenSquilla.Plans.Lifecycle
import OpenSquilla.Scheduler.IntervalGrid
import OpenSquilla.Transport.FlowRefusal
import OpenSquilla.Activations.Fences
import OpenSquilla.Scheduler.Occurrences
import OpenSquilla.Snapshots.Keeping
import OpenSquilla.Streams.CallRollback
import OpenSquilla.Channels.ArtifactDelivery
import OpenSquilla.Channels.StorageEffects
import OpenSquilla.Compaction.TailCut
import OpenSquilla.Goals.Continuations
import OpenSquilla.Histories.IncompleteHistory
import OpenSquilla.Histories.Reconstruction
import OpenSquilla.Patches.Anchoring
import OpenSquilla.TextTools.CutTags
import OpenSquilla.Metering.CostRecomputation
import OpenSquilla.Sandbox.ReadOnlyCopy
import OpenSquilla.Commands.HereDocumentBodies
import OpenSquilla.Commands.Separators
import OpenSquilla.Commands.SystemToolGate
import OpenSquilla.Sandbox.HostSpellings
import OpenSquilla.Transport.SnapshotRoundTrip
import OpenSquilla.Outputs.LogGrepLaws
import OpenSquilla.Previews.JsonAgreement
import OpenSquilla.Previews.Revocation
import OpenSquilla.Channels.DebounceRuns
import OpenSquilla.Cooldowns.Waits
import OpenSquilla.UserInputs.AnsweredOnce
import OpenSquilla.Projections.HistoricalReplay
import OpenSquilla.Checkpoints.CheckpointRendering
import OpenSquilla.Outputs.OutputPreview
import OpenSquilla.Vaults.Batches
