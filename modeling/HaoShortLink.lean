import HaoShortLink.RegisteredRoutes
import HaoShortLink.PublisherRuns
import HaoShortLink.PublishTallies
import HaoShortLink.KafkaAccessEventPublisher
import HaoShortLink.ShortLinkScrapes
import HaoShortLink.HttpReadings
import HaoShortLink.HttpExpositions
import HaoShortLink.HttpRenders
import HaoShortLink.HttpAccounts
import HaoShortLink.Expositions
import HaoShortLink.HttpScrapes
import HaoShortLink.RetryBackoffs
import HaoShortLink.GeneratedIds
import HaoShortLink.ContentLengths
import HaoShortLink.ConfigFiles
import HaoShortLink.UnsignedTexts
import HaoShortLink.ErrorBodies
import HaoShortLink.CorsMiddlewares
import HaoShortLink.FrameworkCookies
import HaoShortLink.SessionCookies
import HaoShortLink.PasswordHashes
import HaoShortLink.DeadLetterEnvelopes
import HaoShortLink.PartialUpdates
import HaoShortLink.ConflictReports
import HaoShortLink.CreateErrors
import HaoShortLink.StatisticsQueries
import HaoShortLink.TimestampTexts
import HaoShortLink.GeneratedCodes
import HaoShortLink.CacheValues
import HaoShortLink.InterruptedMigrations
import HaoShortLink.FailedRegistrations
import HaoShortLink.TlsConnections
import HaoShortLink.HttpCallbacks
import HaoShortLink.MessageFraming
import HaoShortLink.HeaderLookups
import HaoShortLink.RequestLines
import HaoShortLink.AgreeingRepositories
import HaoShortLink.MySqlRepository
import HaoShortLink.CommittedEvents
import HaoShortLink.StatisticsAnswers
import HaoShortLink.AccessStatisticsReader
import HaoShortLink.DeadLetterDelivery
import HaoShortLink.Registrations
import HaoShortLink.IssuedCodes
import HaoShortLink.RepositoryCalls
import HaoShortLink.RedirectEvents
import HaoShortLink.EventFormats
import HaoShortLink.FrameworkSessions
import HaoShortLink.Sessions
import HaoShortLink.Leases
import HaoShortLink.CursorPages
import HaoShortLink.LinkPages
import HaoShortLink.FailedUpdates
import HaoShortLink.MySqlShortLinks
import HaoShortLink.CacheStaleness
import HaoShortLink.CachedLinks
import HaoShortLink.KeyPrefixes
import HaoShortLink.ServerConfigs
import HaoShortLink.RedisCaches
import HaoShortLink.RateLimits
import HaoShortLink.FixedWindows
import HaoShortLink.RedisStores
import HaoShortLink.PoolChecks
import HaoShortLink.PoolWakeups
import HaoShortLink.ResponseSplitting
import HaoShortLink.LifecycleRedirects
import HaoShortLink.LinkHistories
import HaoShortLink.Histories
import HaoShortLink.OwnerIsolation
import HaoShortLink.OwnedLinks
import HaoShortLink.GuardedRoutes
import HaoShortLink.ApiRoutes
import HaoShortLink.RedirectHandlers
import HaoShortLink.StatisticsHandlers
import HaoShortLink.ApiHandlers
import HaoShortLink.Routers
import HaoShortLink.AuthHttp
import HaoShortLink.SameOriginPolicies
import HaoShortLink.AuthServices
import HaoShortLink.ShortLinkServices
import HaoShortLink.ServerStates
import HaoShortLink.AuthRepositories
import HaoShortLink.UtcTimestamps
import HaoShortLink.Actions
import HaoShortLink.RequestDispatch
import HaoShortLink.ClosingConnections
import HaoShortLink.RequestGrammars
import HaoShortLink.HttpServers
import HaoShortLink.HttpResponses
import HaoShortLink.HttpContexts
import HaoShortLink.HttpRequests
import HaoShortLink.Resumable
import HaoShortLink.OrderedMaps
import HaoShortLink.MemoryShortLinks
import HaoShortLink.ShortCodes
import HaoShortLink.ConsumerGroup
import HaoShortLink.AccessEventConsumer
import HaoShortLink.DeadLetters
import HaoShortLink.Program
import HaoShortLink.Transaction
import HaoShortLink.AccessStatistics
import HaoShortLink.StatisticsProjection
