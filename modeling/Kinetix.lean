import Kinetix.Account.Recovery
import Kinetix.CredentialRefresh.Renewal
import Kinetix.Frontends.Anthropic.Agreement
import Kinetix.Frontends.Agreement
import Kinetix.Frontends.Usage
import Kinetix.OpaqueState.Agreement
import Kinetix.OpaqueState.Isolation
import Kinetix.Pipeline.Terminals
import Kinetix.ProviderCircuit.Reference
import Kinetix.Sse.Data
import Kinetix.Predicates.Totality
import Kinetix.Pipeline.StreamEnd
import Kinetix.UpstreamTraffic.Conservation
import Kinetix.Adapters.GeminiSchema
import Kinetix.Admin.PasswordChange
import Kinetix.Plugins.Probe
import Kinetix.Plugins.Approval
import Kinetix.Routing.DryRun
import Kinetix.Account.HalfOpen
import Kinetix.Pipeline.LogicalSkip
import Kinetix.Admission.Restart
import Kinetix.Admission.Exactness
import Kinetix.Config.Publication
import Kinetix.Config.Edits
import Kinetix.Enrollment.AuthorizationUrl
import Kinetix.Routing.AccountOrder
import Kinetix.Pipeline.StickyPromotion
import Kinetix.CredentialRefresh.Pacing
import Kinetix.RateLimit.IpLimiter
import Kinetix.Config.Servable
import Kinetix.Plugins.ResponseContract
import Kinetix.Pipeline.GeminiSignatures
import Kinetix.Pipeline.StrippedBody
import Kinetix.Adapters.ResponsesStream
import Kinetix.Adapters.Anthropic
import Kinetix.Admission.Estimate
import Kinetix.Plugins.Signature
import Kinetix.Outbound.Redaction
import Kinetix.Plugins.SettingsUpdate
import Kinetix.Adapters.ReasoningStored
import Kinetix.Pipeline.ErrorMembers
import Kinetix.ModelCatalog.Resolution
import Kinetix.Pipeline.FactProvenance
import Kinetix.Predicates.Malformed
import Kinetix.Plugins.SecretFlow
import Kinetix.UsageLog.Queue
import Kinetix.Telemetry.Conservation
import Kinetix.Alerts.Transitions
import Kinetix.Account.SoftQuota
import Kinetix.UsageLog.Export
import Kinetix.Account.HealthProbes
import Kinetix.Config.Validation
import Kinetix.OpaqueState.Recency
import Kinetix.Enrollment.StatusPolls
