import DeterminFlow.Engine.BranchSkipping
import DeterminFlow.Engine.SequenceBound
import DeterminFlow.Engine.FaithfulSnapshots
import DeterminFlow.Engine.ThreeChoices
import DeterminFlow.Recovery.Variables
import DeterminFlow.Recovery.ControlRuns
import DeterminFlow.Routing.OwnershipRuns
import DeterminFlow.Approval.Takeover
import DeterminFlow.Engine.StartingNode
import DeterminFlow.Web.Connection
import DeterminFlow.Persistence.TaskFile
import DeterminFlow.Persistence.SessionFile
import DeterminFlow.Chat.Inbox
import DeterminFlow.Web.SnapshotCuts
import DeterminFlow.Plugins.Integrity
import DeterminFlow.Usage.NodeLedgers
import DeterminFlow.Subprocess.Termination
import DeterminFlow.Roundtable.Manager
import DeterminFlow.Cron.Interleaving
import DeterminFlow.Workflow.FrozenIdentity
import DeterminFlow.Workflow.Pairing
import DeterminFlow.Plugins.ProvisioningRuns
import DeterminFlow.Plugins.LayeredSaves
import DeterminFlow.Plugins.LifecycleRuns
import DeterminFlow.Pricing.Raising
import DeterminFlow.Usage.CostSummary
import DeterminFlow.Persistence.DefinitionRecord
import DeterminFlow.Workflow.WrappedJson
import DeterminFlow.Persistence.LegacyMessages
import DeterminFlow.Plugins.UninstallUndo
import DeterminFlow.Context.RequestBudget
import DeterminFlow.Chat.OverflowRetry
import DeterminFlow.Plugins.Registry
import DeterminFlow.Usage.SessionLedger
import DeterminFlow.Chat.RetryOffer
import DeterminFlow.Chat.ToolSlots
import DeterminFlow.Web.TurnSegments
import DeterminFlow.Chat.ReplayedEvents
import DeterminFlow.Context.ContextLimits
import DeterminFlow.Cron.DueAlone
import DeterminFlow.Plugins.RedactedSave
import DeterminFlow.Coding.UniquePlaces
import DeterminFlow.Chat.ColdCache
import DeterminFlow.Chat.ModelRetry
import DeterminFlow.Chat.ToolRounds
import DeterminFlow.Context.ToolResultClip
import DeterminFlow.Workflow.ScriptAttestation
import DeterminFlow.Coding.WorkspaceOwners
import DeterminFlow.Roundtable.InterruptedSpeech
import DeterminFlow.Plugins.CatalogService
import DeterminFlow.Workflow.ScriptVars
