import Oyster.SessionRegistry
import Oyster.RunnerStartup
import Oyster.EventReplay
import Oyster.SessionDeletionSafety
import Oyster.AppStoreIsolation
import Oyster.SseInjection
import Oyster.ScopedRequest
import Oyster.RunnerRestart
import Oyster.BoxHandshakeSafety
import Oyster.CloudAuthorizationSafety
import Oyster.CloudProvisioning
import Oyster.CloudCredentialsSafety
import Oyster.GrantRotation
import Oyster.HeadlessSettlement
import Oyster.HeadlessTranscript
import Oyster.RoutineErrors
import Oyster.RoutineLifecycle
import Oyster.PiOAuthFlowSafety
import Oyster.StoreFailures
import Oyster.PiCredentialsSafety
import Oyster.GrantSync
import Oyster.SessionTitles
import Oyster.FileConfinement
import Oyster.CheckpointProjection
import Oyster.DisposalContract
import Oyster.HotReloadSafety
import Oyster.RequestDrain
import Oyster.HublotSupervisor
import Oyster.HublotClosing
import Oyster.DialogAnswers
import Oyster.RunnerAttention
import Oyster.Composer
import Oyster.TranscriptContiguity
import Oyster.WatchdogRestart
import Oyster.SharedUpload
import Oyster.SessionCatalogs
import Oyster.SessionFamilyClosure
import Oyster.HublotShutdownTruth
import Oyster.PlanLoopExits
import Oyster.ClaudeCosts
import Oyster.ClaudeTranscriptSink
import Oyster.SecretRedaction
import Oyster.TranscriptWalk
import Oyster.RollbackJournalAgreement
import Oyster.MigrationRuns
import Oyster.WidgetGrouping
import Oyster.SearchIndex
import Oyster.Reidentification
import Oyster.SessionFork
import Oyster.HublotEvents
import Oyster.AuthThrottle
import Oyster.ByteRanges
import Oyster.TranscriptMerge
import Oyster.ReplayFilter
import Oyster.SseFrames
import Oyster.UsageTotals
import Oyster.PickerFamilies
import Oyster.DialTransparency
import Oyster.ChecklistBoxes
import Oyster.TranscriptChunks
import Oyster.Completions
import Oyster.RunnerEvents
import Oyster.FocusBoundaries
import Oyster.McpTools
import Oyster.CodexRollout
import Oyster.MermaidDiagrams
import Oyster.CredentialPolling
import Oyster.Proximity
import Oyster.LegacyImport
import Oyster.ModalHistory
