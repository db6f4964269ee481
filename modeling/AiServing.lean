import AiServing.PiiTwoRuns
import AiServing.MaskingTwice
import AiServing.RateLimitBackends
import AiServing.PreAuthRateLimit
import AiServing.ReplayRace
import AiServing.FallbackRoundTrip
import AiServing.StreamLeases
import AiServing.LeaseLedger
import AiServing.StreamReading
import AiServing.BilledUsage
import AiServing.AuditOnce
import AiServing.KeyDelegation
import AiServing.KeyLifecycle
import AiServing.TenantIsolation
import AiServing.PiiPlaceholders
import AiServing.ClientIp
import AiServing.JwtIdentity
import AiServing.UsageTotals
import AiServing.ReplayedRow
import AiServing.AuditWidths
import AiServing.RetryAfter
import AiServing.PiiRenumbering
import AiServing.PolicyScans
import AiServing.KeyBookkeeping
import AiServing.LogSanitizer
import AiServing.BodyLimit
import AiServing.ProviderAnswers
import AiServing.CompletionIds
import AiServing.SmokeHarness
import AiServing.LuhnCheck
import AiServing.RuleCache
import AiServing.GatewayRuns
import AiServing.KeyListing
import AiServing.AuditTrail
import AiServing.RevokedKeys
import AiServing.GatewayStreams
import AiServing.MaskedView
import AiServing.ModelCatalog
import AiServing.AuditShutdown
import AiServing.LogLines
import AiServing.UsageCosts
