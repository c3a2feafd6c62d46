import Mottainai.RepositoryPrincipalReuse
import Mottainai.ReconciliationRows
import Mottainai.ManagerRetries
import Mottainai.CanonForkMachine
import Mottainai.ManagedPullRequests
import Mottainai.MigrationRuns
import Mottainai.BudgetLimits
import Mottainai.DedupeSoundness
import Mottainai.BurstOrder
import Mottainai.ProcessAccounting
import Mottainai.AdmissionSoundness
import Mottainai.SemanticConcurrentCommits
import Mottainai.SemanticLockGenerations
import Mottainai.DeploymentDescriptorIdentity
import Mottainai.ManagedRuntimeHistory
import Mottainai.HookStrength
import Mottainai.ManagedCheckReuse
import Mottainai.ReadWidening
import Mottainai.PushTargets
import Mottainai.CleanupTransactions
import Mottainai.InstanceAgreement
import Mottainai.SemanticSourceFingerprint
import Mottainai.PolicySpecialization
import Mottainai.SymbolChanges
import Mottainai.ImpactDepths
import Mottainai.CompensationRuns
import Mottainai.MutationAtomicity
import Mottainai.RemoteCommands
import Mottainai.HookConfigurationLaws
import Mottainai.FactCacheCollectionLaws
import Mottainai.CanonSelectorOrder
import Mottainai.CanonAdmissionEntries
import Mottainai.TextCompaction
import Mottainai.ClaimPreflight
