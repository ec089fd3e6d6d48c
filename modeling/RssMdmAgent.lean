import RssMdmAgent.ProgressClosure
import RssMdmAgent.LifecycleBudgets
import RssMdmAgent.RunnerRefinement
import RssMdmAgent.JournalResources
import RssMdmAgent.JournalReceipts
import RssMdmAgent.JournalAdmissions
import RssMdmAgent.JournalFinality
import RssMdmAgent.JournalCapacity
import RssMdmAgent.JournalMaterial
import RssMdmAgent.TaskHistory
import RssMdmAgent.SessionSchedule
import RssMdmAgent.RetirementReady
import RssMdmAgent.LogRuns
import RssMdmAgent.TelemetryFreezing
import RssMdmAgent.TransferRuns
import RssMdmAgent.AttemptCoherence
import RssMdmAgent.ConnectionRuns
import RssMdmAgent.PagingExactness
import RssMdmAgent.ViewBounds
import RssMdmAgent.OperationOutcomes
import RssMdmAgent.PrivateLinkLanes
import RssMdmAgent.ProviderEvents
import RssMdmAgent.SessionAdmissions
import RssMdmAgent.CredentialRuns
import RssMdmAgent.LoginProofs
import RssMdmAgent.WindowsArgv
import RssMdmAgent.InteractionRuns
import RssMdmAgent.LifecycleEnds
import RssMdmAgent.JournalCaptures
import RssMdmAgent.ProgressSequencing
import RssMdmAgent.RecoveryCleanup
import RssMdmAgent.ProgressPrefixes
import RssMdmAgent.PlanNames
import RssMdmAgent.PackBudget
import RssMdmAgent.LifecycleStorable
import RssMdmAgent.CollectedPages
import RssMdmAgent.CollectedRuns
import RssMdmAgent.DownloadProgress
import RssMdmAgent.TrustHistory
import RssMdmAgent.FrozenResults
