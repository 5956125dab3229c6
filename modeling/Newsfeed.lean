import Newsfeed.FallibleOperations
import Newsfeed.TextOperations
import Newsfeed.SqlLogic
import Newsfeed.RelationalTables
import Newsfeed.StatementInterleaving
import Newsfeed.JsonText
import Newsfeed.FeedModels
import Newsfeed.PayloadItems
import Newsfeed.PayloadGrammar
import Newsfeed.PayloadRoundTrip
import Newsfeed.SeparatedLists
import Newsfeed.HttpHeaders
import Newsfeed.ContentTypes
import Newsfeed.IpAddresses
import Newsfeed.IpExtractor
import Newsfeed.ForwardedLines
import Newsfeed.ExtractedKeys
import Newsfeed.TokenBucket
import Newsfeed.RateLimit
import Newsfeed.CudHandlers
import Newsfeed.RepeatedElements
import Newsfeed.DuplicateTitles
import Newsfeed.StatusRows
import Newsfeed.CudResponses
import Newsfeed.ApiKeys
import Newsfeed.KeyScripts
import Newsfeed.PayloadRows
import Newsfeed.MariadbProcedures
import Newsfeed.MariadbStatuses
import Newsfeed.MariadbTitles
import Newsfeed.MariadbUpdates
import Newsfeed.MssqlProcedures
import Newsfeed.MssqlUpdates
import Newsfeed.MssqlWidths
import Newsfeed.PostgresProcedures
import Newsfeed.BatchAccounting
import Newsfeed.PostgresResponses
import Newsfeed.PostgresConstraints
import Newsfeed.PostgresRetries
import Newsfeed.PostgresBatchOrder
import Newsfeed.InsertRaces
import Newsfeed.MariadbRaces
import Newsfeed.ConcurrentInserts
import Newsfeed.EtagCache
import Newsfeed.OrderedSelection
import Newsfeed.SqlClauses
import Newsfeed.ExtractFilters
import Newsfeed.MariadbExtract
import Newsfeed.MariadbSessions
import Newsfeed.MariadbQueries
import Newsfeed.OmitCharacters
import Newsfeed.OnePassOmission
import Newsfeed.MssqlExtract
import Newsfeed.MssqlClauses
import Newsfeed.PostgresExtract
import Newsfeed.PostgresSanitising
import Newsfeed.PostgresDispatch
import Newsfeed.ExtractPages
import Newsfeed.PostgresEtag
import Newsfeed.EtagAvailability
import Newsfeed.PostgresTitles
import Newsfeed.PostgresReadBack
import Newsfeed.SuppliedFilters
import Newsfeed.Rfc3339Dates
import Newsfeed.ChronologicalOrder
import Newsfeed.KeyedStore
import Newsfeed.Services
import Newsfeed.FeedStore
import Newsfeed.PostgresStore
import Newsfeed.MssqlStore
import Newsfeed.MariadbStore
import Newsfeed.FeedService
import Newsfeed.FeedRuns
import Newsfeed.TokenBucketBounds
import Newsfeed.Router
import Newsfeed.ServerRuns
import Newsfeed.ServerHistory
import Newsfeed.ServerReads
import Newsfeed.PostgresReads
import Newsfeed.ServerLimits
import Newsfeed.PoolRuns
import Newsfeed.FeedPages
import Newsfeed.EnginePages
import Newsfeed.PoolReads
