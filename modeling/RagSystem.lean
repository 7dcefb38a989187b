import RagSystem.Etl.LakeExactness
import RagSystem.Shared.CircuitBreaker
import RagSystem.Shared.AccessControl
import RagSystem.Api.AuthEndpoints
import RagSystem.Etl.LakeFrame
import RagSystem.Etl.LakeRecovery
import RagSystem.Etl.MarkdownText
import RagSystem.Etl.SemanticChunker
import RagSystem.Etl.MdKeyChunker
import RagSystem.Api.Chat
import RagSystem.Core.CacheIsolation
import RagSystem.Api.Accounts
import RagSystem.Api.Deactivation
import RagSystem.Auth.KeyRotation
import RagSystem.Core.GraphBounds
import RagSystem.Data.Json
import RagSystem.Db.Migrations
import RagSystem.Etl.EventDelivery
import RagSystem.Etl.WalBackends
import RagSystem.Etl.WalConcurrency
import RagSystem.Core.KbManager
import RagSystem.Data.Timeline
import RagSystem.ModelEvolution.CanaryController
import RagSystem.ModelEvolution.ModelRegistry
import RagSystem.ModelEvolution.PromotionHistory
import RagSystem.Shared.DeadLetterQueue
import RagSystem.Shared.DlqLedger
import RagSystem.Shared.DlqRuns
import RagSystem.Shared.RateLimiter
import RagSystem.Tools.ParallelExecutor
import RagSystem.Tools.Visibility
import RagSystem.Core.CacheSoundness
import RagSystem.ModelEvolution.AdapterManager
import RagSystem.ModelEvolution.AdapterTruth
import RagSystem.Tools.CallsApart
import RagSystem.Data.RandomChoice
import RagSystem.Etl.AcceptedEvents
import RagSystem.Etl.AccessEndToEnd
import RagSystem.Etl.DocumentIds
import RagSystem.Etl.ExtractorSchedule
import RagSystem.ModelEvolution.CanaryRouting
import RagSystem.Shared.AccessPolicy
import RagSystem.Transition.LastWrite
import RagSystem.Etl.SharedWal
import RagSystem.Shared.ConnectionPool
import RagSystem.Shared.PoolForm
import RagSystem.Shared.PoolInvariant
import RagSystem.Etl.Rollback
import RagSystem.Etl.IncrementalExtraction
import RagSystem.Etl.IncrementalJob
import RagSystem.Etl.IncrementalProgress
import RagSystem.Core.Hitl
import RagSystem.Core.ReindexScheduler
import RagSystem.Data.FileSystem
import RagSystem.Data.Outline
import RagSystem.Data.ShellTexts
import RagSystem.Etl.AdaptiveChunker
import RagSystem.Etl.ChunkCoverage
import RagSystem.Etl.HeadingForest
import RagSystem.Etl.IncrementalWal
import RagSystem.Etl.TokenBound
import RagSystem.Llm.AnthropicStream
import RagSystem.ModelEvolution.ArtifactMap
import RagSystem.Tools.ProviderIndex
import RagSystem.Tools.ShellHandler
import RagSystem.Core.AdaptiveTopK
import RagSystem.Core.ContextBudget
import RagSystem.Core.ContextOrder
import RagSystem.Core.KneePruning
import RagSystem.Core.MultiHop
import RagSystem.Core.PruningOrder
import RagSystem.Core.RerankCache
import RagSystem.Core.TwoStageRerank
import RagSystem.Etl.HeadingChunks
import RagSystem.Core.Compression
import RagSystem.Core.CompressionBounds
import RagSystem.Core.EmbeddingCacheRuns
import RagSystem.Core.NeighbourExpansion
import RagSystem.Core.SemanticGroups
import RagSystem.Core.TokenBudget
import RagSystem.Core.Versioning
import RagSystem.Data.JsonBounds
import RagSystem.Data.JsonRoundTrip
import RagSystem.Data.Slices
import RagSystem.Shared.CacheBackends
import RagSystem.Shared.ConversationLedger
import RagSystem.Shared.SemanticAnswers
import RagSystem.Shared.SessionStore
import RagSystem.Api.LoginLockout
import RagSystem.Auth.KeyCap
import RagSystem.Auth.SecretRotation
import RagSystem.Data.IpAddress
import RagSystem.Data.JsonPath
import RagSystem.Data.Substitution
import RagSystem.ModelEvolution.CanaryProtection
import RagSystem.ModelEvolution.EvalGate
import RagSystem.ModelEvolution.RegistryFile
import RagSystem.ModelEvolution.RegistryStore
import RagSystem.Shared.BreakerAdmissions
import RagSystem.Shared.IpAccess
import RagSystem.Shared.QuerySanitizer
import RagSystem.Shared.ResponseMasking
import RagSystem.Core.Calibration
import RagSystem.Core.Confidence
import RagSystem.Core.ConfidenceAgreement
import RagSystem.Core.Evaluation
import RagSystem.Core.EvaluationBounds
import RagSystem.Core.ProgressiveSearch
import RagSystem.Core.ProgressiveStops
import RagSystem.Data.Batches
import RagSystem.Data.Components
import RagSystem.Data.Joining
import RagSystem.Data.Raising
import RagSystem.Etl.ColdRetention
import RagSystem.Etl.CommunityComponents
import RagSystem.Etl.EmbeddingAlignment
import RagSystem.Etl.GraphCleanup
import RagSystem.Etl.RaptorForest
import RagSystem.Tools.OpenApi
import RagSystem.Tools.OpenApiNames
import RagSystem.Core.FeedbackStore
import RagSystem.Core.LiveSources
import RagSystem.Core.LogRotation
import RagSystem.Core.RetrievalEvaluator
import RagSystem.Etl.TableExtractor
import RagSystem.Llm.ProviderRoundTrip
import RagSystem.Llm.SendRequest
import RagSystem.Tools.DependencyChains
import RagSystem.Tools.OpenApiDeclared
import RagSystem.Tools.OpenApiRequests
import RagSystem.Etl.StreamingPipeline
import RagSystem.Shared.Retry
