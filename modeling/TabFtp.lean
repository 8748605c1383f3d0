import TabFtp.AsyncRequests
import TabFtp.CertStoreTrust
import TabFtp.CommandLines
import TabFtp.DirectoryCacheRename
import TabFtp.EngineDispatchOnce
import TabFtp.FtpReplyAccounting
import TabFtp.OpLockHandles
import TabFtp.OpLockWaiters
import TabFtp.SafePath
import TabFtp.ServerPathRoundTrip
import TabFtp.EngineNotificationRuns
import TabFtp.PathCache
import TabFtp.SftpMessages
import TabFtp.SftpIoReplies
import TabFtp.FtpDataIntegrity
import TabFtp.FtpRestartOffset
import TabFtp.FtpTransferType
import TabFtp.ListingParserChunks
import TabFtp.ServerPathParents
import TabFtp.ServerPathFilename
import TabFtp.ServerPathDots
import TabFtp.DirectoryCacheLimits
import TabFtp.ListingNameIndex
import TabFtp.OptionNotificationRuns
import TabFtp.FtpReplyFramingRuns
import TabFtp.FtpAuthUpgrade
import TabFtp.QueueTotalsExact
import TabFtp.CommandQueueReplies
import TabFtp.ProxyTransfersApart
import TabFtp.TransferStop
import TabFtp.DirectoryCacheInvalidation
import TabFtp.LocalPathSyntax
import TabFtp.AlignedMerge
import TabFtp.FileListOrder
import TabFtp.FileListCtrl
import TabFtp.DirectoryComparison
import TabFtp.SortedRows
import TabFtp.LocalListView
import TabFtp.LocalListOrder
import TabFtp.CertStoreResumption
import TabFtp.TransferStatus
import TabFtp.LocalPathOrder
import TabFtp.SiteProtection
import TabFtp.XmlFileSurvival
import TabFtp.FilterRoundTrip
import TabFtp.ChunkSizes
import TabFtp.SentCommands
import TabFtp.ServerPathComparisons
import TabFtp.PathCacheInvalidation
import TabFtp.DirectoryCacheStore
import TabFtp.FtpPasvReply
import TabFtp.FtpResumeCapability
import TabFtp.ProxySocket
import TabFtp.ProxyReplies
import TabFtp.SocksRequests
import TabFtp.SocksTargets
import TabFtp.FtpMkdirRuns
import TabFtp.CommandQuoting
import TabFtp.HexTokens
import TabFtp.LineTokens
import TabFtp.ListingInclusion
import TabFtp.PathCacheTable
import TabFtp.SitePaths
import TabFtp.VersionNumbers
