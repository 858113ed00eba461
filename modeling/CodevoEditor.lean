import CodevoEditor.Domain.BackgroundActivity
import CodevoEditor.Threads.TaskEvents
import CodevoEditor.History.DeltaAgreement
import CodevoEditor.RuntimeRequests.AbandonmentRuns
import CodevoEditor.RuntimeRequests.FeedRuns
import CodevoEditor.RuntimeRequests.JournalQueueRuns
import CodevoEditor.RuntimeRequests.SnapshotRetention
import CodevoEditor.RuntimeRequests.ProjectionWalk
import CodevoEditor.TurnLogStore.PageWalk
import CodevoEditor.TurnLogStore.Leases
import CodevoEditor.ClaudeSession.Isolation
import CodevoEditor.ClaudeSession.Chunks
import CodevoEditor.ClaudeSession.InputRuns
import CodevoEditor.ClaudeSession.RegistryAdmission
import CodevoEditor.ThreadRequests.MergeOrder
import CodevoEditor.CodexAppServer.FrameRuns
import CodevoEditor.RemoteRunner.EvidenceRuns
import CodevoEditor.History.SavedRuns
import CodevoEditor.AgentOutput.NoticeAccounts
import CodevoEditor.AgentEvents.LifecycleKeeping
import CodevoEditor.AgentOutput.PageLines
import CodevoEditor.AgentOutput.HeadTail
import CodevoEditor.VscodeTasks.Chains
import CodevoEditor.CodexAppServer.FailedHost
import CodevoEditor.DiffView.Hunks
import CodevoEditor.TurnLog.WindowBytes
import CodevoEditor.Persistence.CapAccounts
import CodevoEditor.Persistence.FinalAnswers
import CodevoEditor.Persistence.HydrationCarry
import CodevoEditor.Threads.SortOrders
import CodevoEditor.GitHistory.Graph
import CodevoEditor.Persistence.PromptClipping
import CodevoEditor.RemoteRunner.Quota
import CodevoEditor.RemoteRunner.RequestCache
import CodevoEditor.Domain.ProcessTaskPlan
import CodevoEditor.VscodeTasks.Dropped
import CodevoEditor.ClaudeSession.Costs
import CodevoEditor.TurnLogStore.ConnectionPool
import CodevoEditor.Domain.TerminalShellIntegration
import CodevoEditor.Domain.GitRepositoryMapping
import CodevoEditor.Domain.AgentTurnActivityWindow
import CodevoEditor.AgentEvents.TextByteStates
import CodevoEditor.Domain.ThreadQuietStream
import CodevoEditor.Domain.ThreadSearch
import CodevoEditor.Threads.SearchHits
import CodevoEditor.TurnLogStore.PageBudget
