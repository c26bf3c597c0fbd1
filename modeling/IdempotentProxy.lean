import IdempotentProxy.Server.MemoryLease
import IdempotentProxy.Server.LockSteps
import IdempotentProxy.Server.EntryLeaks
import IdempotentProxy.Server.StuckLease
import IdempotentProxy.Server.Ownership
import IdempotentProxy.Server.Interchange
import IdempotentProxy.Server.IntoResponse
import IdempotentProxy.Server.CacheKeys
import IdempotentProxy.Worker.Fetch
import IdempotentProxy.Worker.ObjectNames
import IdempotentProxy.Worker.ResponseData
import IdempotentProxy.Worker.Auth
import IdempotentProxy.Worker.Masking
import IdempotentProxy.Canister.ProxyTokens
import IdempotentProxy.Canister.CycleAccounting
import IdempotentProxy.Canister.OneAgent
import IdempotentProxy.Canister.SequentialQuote
import IdempotentProxy.Canister.AllResults
import IdempotentProxy.Canister.Minting
import IdempotentProxy.Canister.TargetUrl
import IdempotentProxy.Canister.ExactCosts
import IdempotentProxy.Canister.ParallelQuote
import IdempotentProxy.Canister.AgentCalls
import IdempotentProxy.Canister.SentBytes
import IdempotentProxy.Types.TokenExpiry
import IdempotentProxy.Server.ConfiguredKeys
import IdempotentProxy.Server.MaskLaws
import IdempotentProxy.Canister.CallerRegistry
import IdempotentProxy.Server.WaitingDuplicates
import IdempotentProxy.Foundations.NamedTables
import IdempotentProxy.Foundations.PairedRuns
import IdempotentProxy.Server.SentUpstream
import IdempotentProxy.Server.Startup
import IdempotentProxy.Server.BackEnds
import IdempotentProxy.Server.OneCall
import IdempotentProxy.Server.Provenance
import IdempotentProxy.Canister.Replicas
import IdempotentProxy.Canister.AskedAlike
import IdempotentProxy.Server.RedisPool
import IdempotentProxy.Canister.TokenLifecycle
import IdempotentProxy.Canister.LastingTokens
import IdempotentProxy.Canister.Deployment
import IdempotentProxy.Canister.TokenSecrecy
import IdempotentProxy.Worker.Handler
import IdempotentProxy.Worker.Service
