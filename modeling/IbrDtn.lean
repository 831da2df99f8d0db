import IbrDtn.Data.UncompressedHeader
import IbrDtn.Data.CompressedHeader
import IbrDtn.Streams.StreamBuffer
import IbrDtn.Net.DatagramStream
import IbrDtn.Net.TCPConnection
import IbrDtn.Net.ConvergenceLayer
import IbrDtn.Core.BundleCore
import IbrDtn.Core.MemoryBundleStorage
import IbrDtn.Core.SimpleBundleStorage
import IbrDtn.Core.SimpleBundleRetrieval
import IbrDtn.Core.Rejection
import IbrDtn.Data.Truncation
import IbrDtn.Data.KeyOrders
import IbrDtn.Data.ExpiryIndex
import IbrDtn.Library.Medium
import IbrDtn.Data.BundleMerger
import IbrDtn.Data.Fragmentation
import IbrDtn.Security.BlockEncryption
import IbrDtn.Security.MutualSerializer
import IbrDtn.Security.BundleAuthenticationBlock
import IbrDtn.Library.StreamCoder
import IbrDtn.Data.BlockReplacement
import IbrDtn.Data.Compression
import IbrDtn.Data.PredictedLengths
import IbrDtn.Utils.Encapsulation
import IbrDtn.Data.RecordRoundTrip
import IbrDtn.Core.StatusReportGenerator
import IbrDtn.Library.BloomFilter
import IbrDtn.Routing.SummaryVector
import IbrDtn.Routing.NodeHandshakeExtension
import IbrDtn.Routing.MalformedAddresses
import IbrDtn.Routing.TransferRecords
import IbrDtn.Core.MemoryBundleLookup
import IbrDtn.Core.FailedStore
import IbrDtn.Core.SQLiteCallOrder
import IbrDtn.Core.SQLiteTables
import IbrDtn.Core.SQLiteExpiry
import IbrDtn.Core.SQLiteRoundTrip
import IbrDtn.Core.SQLiteFilters
import IbrDtn.Core.SQLiteRecovery
import IbrDtn.Core.SQLiteDurability
import IbrDtn.Core.StorageAgreement
import IbrDtn.Routing.PurgeVector
import IbrDtn.Routing.DuplicateSuppression
import IbrDtn.Routing.RetransmissionExtension
import IbrDtn.Routing.TransferSlots
import IbrDtn.Data.SharedBlocks
import IbrDtn.Core.EventDelivery
import IbrDtn.Core.EventReceivers
import IbrDtn.Api.Registration
import IbrDtn.Api.RegistrationDelivery
import IbrDtn.Api.BundleStreamBuf
import IbrDtn.Api.APIClient
import IbrDtn.Api.APIClientLines
import IbrDtn.Api.APIClientReplies
import IbrDtn.Data.SdnvCodec
import IbrDtn.Data.DictionaryUse
import IbrDtn.Security.SecurityTransport
import IbrDtn.Streams.StreamContactHeader
import IbrDtn.Net.DatagramService
import IbrDtn.Net.DiscoveryAnnouncement
import IbrDtn.Net.DatagramConvergenceLayer
import IbrDtn.Streams.ReceiveBuffer
import IbrDtn.Streams.StreamLink
import IbrDtn.Net.StopAndWait
import IbrDtn.Utils.Tokenize
import IbrDtn.Net.ServiceAddress
import IbrDtn.Utils.ExpireTime
import IbrDtn.Data.EidText
import IbrDtn.Api.BlockInserter
import IbrDtn.Core.StorageQueries
import IbrDtn.Net.DiscoveryRoundTrip
import IbrDtn.Security.PayloadConfidentialBlock
import IbrDtn.Core.ProcessBlocks
import IbrDtn.Net.LOWPANConvergenceLayer
import IbrDtn.Data.HopLimit
import IbrDtn.Core.DTNTPWorker
import IbrDtn.Net.ConnectionManager
import IbrDtn.Api.PayloadCommands
import IbrDtn.Data.SeparateRoundTrip
import IbrDtn.Library.Grammar
import IbrDtn.Net.BeaconGrammar
import IbrDtn.Net.IPNDAgent
import IbrDtn.Security.PayloadIntegrityBlock
import IbrDtn.Security.SignedTravel
import IbrDtn.Security.SecurityKeyManager
import IbrDtn.Security.SecurityManager
import IbrDtn.Security.StoredBundles
import IbrDtn.Api.PlainRoundTrip
