import Ranger.Foundation.Run
import Ranger.PolicyEvaluator.Conditions
import Ranger.PolicyEngine.AuditCache
import Ranger.PolicyRefresher
import Ranger.RecursivePaths
import Ranger.PolicyEvaluator.Levels
import Ranger.Admin.Grant
import Ranger.Admin.Revoke
import Ranger.Admin.PolicyUpdate
import Ranger.Admin.PolicyCreate
import Ranger.PolicyEvaluator.Descendants
import Ranger.PolicyEvaluator.Ancestors
import Ranger.PolicyEngine.AnyAccess
import Ranger.PolicyEngine.DirectQuery
import Ranger.PolicyEvaluator.ImpliedGrants
import Ranger.PolicyEvaluator.ResourceChoices
import Ranger.PolicyEvaluator.AddressConditions
import Ranger.PolicyEvaluator.TimeConditions
import Ranger.Audit.SpoolResume
import Ranger.Audit.SpoolPlaces
import Ranger.Foundation.Outcome
import Ranger.Admin.Transactions
import Ranger.Admin.FileStoreReferences
import Ranger.Admin.StoredPolicy
import Ranger.Foundation.Table
import Ranger.Foundation.Reconcile
import Ranger.Admin.ServiceDefUpdate
import Ranger.Admin.ServiceDefReconciled
import Ranger.Admin.ServiceRows
import Ranger.Admin.ServiceRowsFrame
import Ranger.Admin.DownloadFreshness
import Ranger.Admin.ResourceSignature
import Ranger.Admin.SignatureCollisions
import Ranger.Admin.AccessTypeChecks
import Ranger.Admin.NameConflicts
import Ranger.Admin.ItemRemoval
import Ranger.Admin.GrantAccess
import Ranger.Admin.PolicyEdits
import Ranger.Admin.ExactMatch
import Ranger.Admin.ExactMatchSound
import Ranger.Admin.EngineTracking
import Ranger.Admin.UniqueResources
import Ranger.Admin.GrantEffect
import Ranger.Foundation.Collect
import Ranger.Admin.V1Policy
import Ranger.Audit.BatchQueue
import Ranger.Audit.SummaryQueue
import Ranger.Audit.AsyncQueue
import Ranger.Agents.HbaseDecisions
import Ranger.Agents.HdfsRequirements
import Ranger.Agents.HiveDecisions
import Ranger.Kms.KeyMaterial
import Ranger.Kms.DurableKeys
import Ranger.Kms.EncodedRows
import Ranger.Ugsync.Convergence
import Ranger.Admin.OverlappingEdits
import Ranger.Admin.GrantScope
import Ranger.Foundation.Throwing
import Ranger.Admin.CallerFrame
import Ranger.Admin.GroupUsers
import Ranger.Admin.RoleEscalation
import Ranger.Admin.GroupMembership
import Ranger.Foundation.Spread
import Ranger.Foundation.Delimited
import Ranger.Foundation.Sweep
import Ranger.Foundation.Journal
import Ranger.Admin.PolicyHistory
import Ranger.Audit.BackPressure
import Ranger.Kms.FailedCalls
import Ranger.Admin.HistoryIntervals
import Ranger.Audit.DbAudit
import Ranger.Foundation.Lines
import Ranger.Audit.LocalFileBuffer
import Ranger.Ugsync.UnixUsers
import Ranger.Foundation.Split
import Ranger.Installer.XmlConfigChanger
import Ranger.Admin.V1Resource
import Ranger.Admin.V1Grant
import Ranger.Agents.HiveGrants
import Ranger.Foundation.Template
import Ranger.Audit.TokenReplacement
import Ranger.Admin.StringUtil
import Ranger.Audit.FanOut
import Ranger.Audit.AsyncProvider
import Ranger.Admin.SessionRights
import Ranger.Admin.HiddenPassword
import Ranger.Admin.PasswordUtils
import Ranger.Admin.ServiceConfigs
import Ranger.Admin.ServicePassword
import Ranger.Admin.ServiceWriteBack
import Ranger.Foundation.Interaction
import Ranger.Kms.KeyAcls
import Ranger.Kms.Server
import Ranger.Kms.Mediation
import Ranger.Kms.KeyIsolation
import Ranger.Kms.Refusals
import Ranger.Foundation.Walk
import Ranger.Agents.HdfsAudit
import Ranger.PolicyEngine.OneElement
import Ranger.Agents.HdfsAuditTrail
import Ranger.PolicyEngine.Attribution
import Ranger.Agents.HdfsMediation
import Ranger.PolicyPropagation
import Ranger.PolicyCurrency
