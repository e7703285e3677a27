import XiaomiProxy.Config
import XiaomiProxy.Error
import XiaomiProxy.Handlers.Accounting
import XiaomiProxy.Handlers.Admin
import XiaomiProxy.Handlers.Attachment
import XiaomiProxy.Handlers.ClientKeyCache
import XiaomiProxy.Handlers.ClientLimits
import XiaomiProxy.Handlers.Completions
import XiaomiProxy.Handlers.DownstreamSync
import XiaomiProxy.Handlers.EmptyCredential
import XiaomiProxy.Handlers.Encodings
import XiaomiProxy.Handlers.LivePool
import XiaomiProxy.Handlers.LogPages
import XiaomiProxy.Handlers.Masking
import XiaomiProxy.Handlers.PageSize
import XiaomiProxy.Handlers.PoolWeights
import XiaomiProxy.Handlers.ProxyRoutes
import XiaomiProxy.Handlers.Responses
import XiaomiProxy.Handlers.Restarts
import XiaomiProxy.Handlers.Revocation
import XiaomiProxy.Handlers.Traffic
import XiaomiProxy.Handlers.Usage
import XiaomiProxy.Handlers.UsageReport
import XiaomiProxy.Http
import XiaomiProxy.Json
import XiaomiProxy.Lib.Base64
import XiaomiProxy.Lib.Grouping
import XiaomiProxy.Lib.KeyedTable
import XiaomiProxy.Lib.LastWrite
import XiaomiProxy.Lib.Ledger
import XiaomiProxy.Lib.Paging
import XiaomiProxy.Lib.RoundRobin
import XiaomiProxy.Lib.Runs
import XiaomiProxy.Lib.SharedVec
import XiaomiProxy.Lib.Sql
import XiaomiProxy.Lib.Threads
import XiaomiProxy.Lib.TokenBucket
import XiaomiProxy.Lib.Utf8
import XiaomiProxy.Middleware.Auth
import XiaomiProxy.Middleware.BasicAuth
import XiaomiProxy.Middleware.Credentials
import XiaomiProxy.Middleware.Quota
import XiaomiProxy.Middleware.RateLimit
import XiaomiProxy.Proxy.Backoff
import XiaomiProxy.Proxy.Breaker
import XiaomiProxy.Proxy.Cooldown
import XiaomiProxy.Proxy.DownstreamHeaders
import XiaomiProxy.Proxy.Forwarder
import XiaomiProxy.Proxy.KeyPool
import XiaomiProxy.Proxy.PoolAcquisition
import XiaomiProxy.Proxy.PoolGuards
import XiaomiProxy.Proxy.PoolHealing
import XiaomiProxy.Proxy.PoolRuns
import XiaomiProxy.Proxy.PoolStrikes
import XiaomiProxy.Proxy.PoolThreads
import XiaomiProxy.Proxy.RateLimiter
import XiaomiProxy.Proxy.RateLimiterCleanup
import XiaomiProxy.Proxy.RateLimiterRaces
import XiaomiProxy.Proxy.Retry
import XiaomiProxy.Proxy.RetryAccounting
import XiaomiProxy.Proxy.RetryBudget
import XiaomiProxy.Proxy.Rotation
import XiaomiProxy.Proxy.Selection
import XiaomiProxy.RustStd
import XiaomiProxy.Seeding
import XiaomiProxy.Server
import XiaomiProxy.Server.Alone
import XiaomiProxy.Server.Answering
import XiaomiProxy.Server.Billing
import XiaomiProxy.Server.Load
import XiaomiProxy.Server.Mediation
import XiaomiProxy.Server.Progress
import XiaomiProxy.State
import XiaomiProxy.Storage.Db
import XiaomiProxy.Storage.QueryLogs
import XiaomiProxy.Storage.QueryUsage
import XiaomiProxy.Storage.RequestLogs
import XiaomiProxy.Storage.Statements
