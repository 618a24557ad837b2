import AstraPort.Foundation.InsertionMap
import AstraPort.Foundation.Machine
import AstraPort.Foundation.TtlMap
import AstraPort.Foundation.Lru
import AstraPort.Foundation.QueryText
import AstraPort.Foundation.Recent
import AstraPort.Foundation.NearestRank
import AstraPort.Foundation.Throwing
import AstraPort.Foundation.Host
import AstraPort.Foundation.Text
import AstraPort.Foundation.Rounding
import AstraPort.Foundation.IsoDate
import AstraPort.Foundation.Sorting
import AstraPort.Foundation.JsString
import AstraPort.Foundation.JsonString
import AstraPort.Foundation.JsNumber
import AstraPort.Foundation.Json
import AstraPort.Foundation.PropertyOrder
import AstraPort.Foundation.JsValue
import AstraPort.Foundation.Casing
import AstraPort.Foundation.JsText
import AstraPort.Foundation.Magnitudes
import AstraPort.Foundation.NumberText
import AstraPort.Foundation.PrometheusText
import AstraPort.Foundation.PlainDecimals
import AstraPort.Foundation.Patterns
import AstraPort.Foundation.Hiding
import AstraPort.Foundation.ParsedJson
import AstraPort.Foundation.Joining
import AstraPort.Foundation.Glob
import AstraPort.Foundation.Bytes
import AstraPort.Foundation.Seeking
import AstraPort.Foundation.Slicing
import AstraPort.Foundation.Folding
import AstraPort.Pagination.Offset
import AstraPort.Pagination.Pages
import AstraPort.Pagination.Cursor
import AstraPort.Pagination.CursorCodec
import AstraPort.Pagination.Queries
import AstraPort.Pagination.CursorIteration
import AstraPort.AiTriggers.CursorPages
import AstraPort.RateLimit.Algorithms
import AstraPort.RateLimit.SlidingWindow
import AstraPort.RateLimit.TokenBucket
import AstraPort.RateLimit.Configuration
import AstraPort.RateLimit.Service
import AstraPort.RateLimit.Metered
import AstraPort.RateLimit.Verdicts
import AstraPort.RateLimit.RetryAfter
import AstraPort.RateLimit.Rejections
import AstraPort.RateLimit.EndpointIsolation
import AstraPort.RateLimit.IdleCleanup
import AstraPort.Cache.CacheKey
import AstraPort.Cache.Backends
import AstraPort.Cache.Recency
import AstraPort.Cache.Service
import AstraPort.Cache.Refinement
import AstraPort.Cache.Mirror
import AstraPort.Cache.Deletions
import AstraPort.Cache.Overlap
import AstraPort.Cache.Promotion
import AstraPort.Cache.Decorated
import AstraPort.Cache.Invalidation
import AstraPort.Cache.ArgumentKeys
import AstraPort.Cache.ETags
import AstraPort.Cache.PrefixAgreement
import AstraPort.Cache.ClassInvalidation
import AstraPort.Staking.Portfolio
import AstraPort.Staking.Ledger
import AstraPort.Staking.Lockup
import AstraPort.Staking.CachedViews
import AstraPort.Staking.Withdrawals
import AstraPort.Staking.AccruedYield
import AstraPort.Staking.EmergencyUnstake
import AstraPort.Staking.EmergencyLimits
import AstraPort.Staking.EmergencyAgreement
import AstraPort.Webhook.Subscriptions
import AstraPort.Webhook.Delivery
import AstraPort.Webhook.EventSelection
import AstraPort.Webhook.Exclusive
import AstraPort.Webhook.Settlement
import AstraPort.Webhook.Orphans
import AstraPort.Webhook.Sequential
import AstraPort.Webhook.Backoff
import AstraPort.Webhook.ActiveSends
import AstraPort.Webhook.SubscriptionCalls
import AstraPort.Webhook.DeliveryRecords
import AstraPort.Webhook.UserIsolation
import AstraPort.Webhook.SubscriptionPages
import AstraPort.Webhook.Acknowledgements
import AstraPort.Webhook.FailedCalls
import AstraPort.Webhook.Signatures
import AstraPort.Auth.Service
import AstraPort.Auth.Rotation
import AstraPort.Auth.RefreshTokens
import AstraPort.Auth.LogoutFinality
import AstraPort.Auth.Accounts
import AstraPort.Auth.Standing
import AstraPort.Auth.Revocation
import AstraPort.Auth.ApiKeys
import AstraPort.Auth.LogoutFailures
import AstraPort.Auth.Guards
import AstraPort.Auth.Access
import AstraPort.Audit.Integrity
import AstraPort.Audit.Truncations
import AstraPort.Audit.Coverage
import AstraPort.Audit.Orders
import AstraPort.Audit.CsvExport
import AstraPort.Audit.Queries
import AstraPort.Rebalancing.Drift
import AstraPort.Rebalancing.DriftHistory
import AstraPort.Rebalancing.DriftStatus
import AstraPort.Rebalancing.OpenAlerts
import AstraPort.Rebalancing.Notifications
import AstraPort.Rebalancing.DriftTrend
import AstraPort.Rebalancing.Planner
import AstraPort.Rebalancing.Executions
import AstraPort.Rebalancing.Strategies
import AstraPort.Rebalancing.Fees
import AstraPort.Rebalancing.SlippageGate
import AstraPort.Rebalancing.Schedules
import AstraPort.Rebalancing.NextExecution
import AstraPort.Monitoring.Metrics
import AstraPort.Monitoring.Samples
import AstraPort.Monitoring.MetricsText
import AstraPort.Monitoring.Interceptor
import AstraPort.Monitoring.Alerting
import AstraPort.Monitoring.AlertHistory
import AstraPort.Monitoring.TestAlerts
import AstraPort.Monitoring.Performance
import AstraPort.Monitoring.Percentiles
import AstraPort.Monitoring.Tracing
import AstraPort.Monitoring.Spans
import AstraPort.Monitoring.LogAggregation
import AstraPort.Logging.Redaction
import AstraPort.Logging.UrlRedaction
import AstraPort.Logging.LogRecords
import AstraPort.Validation.FileSignatures
import AstraPort.Validation.SizeLimits
import AstraPort.Validation.Amounts
import AstraPort.Validation.Sanitizing
import AstraPort.Validation.ZodSchemas
import AstraPort.Validation.OpenApi
import AstraPort.Validation.Registry
import AstraPort.Validation.DocumentedMeaning
import AstraPort.Docs.OpenApiDocument
import AstraPort.Docs.ClientSdk
import AstraPort.Files.Paths
import AstraPort.Files.Service
import AstraPort.Files.Moves
import AstraPort.Files.Collection
import AstraPort.Files.Isolation
import AstraPort.Files.Quota
import AstraPort.Files.Accounting
import AstraPort.Files.Chunks
import AstraPort.Cache.Bounds
import AstraPort.RateLimit.Reports
import AstraPort.RateLimit.ClockSteps
import AstraPort.RateLimit.Accounting
import AstraPort.Staking.EmergencyBalances
import AstraPort.Staking.PenaltySchedule
import AstraPort.Staking.Allocations
import AstraPort.Queue.Jobs
import AstraPort.Queue.Lookups
