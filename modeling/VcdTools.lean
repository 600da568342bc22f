import VcdTools.Lib.Json
import VcdTools.Lib.Proc
import VcdTools.Lib.Runs
import VcdTools.Lib.Pool
import VcdTools.Lib.Iter
import VcdTools.Lib.Groups
import VcdTools.Lib.Metered
import VcdTools.Data
import VcdTools.Catalog
import VcdTools.Command
import VcdTools.Legacy
import VcdTools.Query.Context
import VcdTools.Query.Stream
import VcdTools.Query.Extract
import VcdTools.Query.Reference
import VcdTools.Query.ExtractRuns
import VcdTools.Query.ExtractReference
import VcdTools.Query.ExtractLimits
import VcdTools.Opened.CompareWaveforms
import VcdTools.Opened.Metadata
import VcdTools.Opened.MetadataMoves
import VcdTools.Opened.MetadataInvariant
import VcdTools.Opened.MetadataAttempts
import VcdTools.Opened.MetadataMixed
import VcdTools.Server.Protocol
import VcdTools.Server.Output
import VcdTools.Server.OutputLifecycle
import VcdTools.Server.Dispatch
import VcdTools.Server.Service
import VcdTools.Server.FrameSize
import VcdTools.Server.StreamOutput
import VcdTools.Server.StreamPackaging
import VcdTools.Server.StreamErrors
import VcdTools.Server.MetadataRequests
import VcdTools.Server.MetadataRetry
import VcdTools.Server.MetadataProgress
import VcdTools.Lib.Merge
import VcdTools.Lib.MergeTimes
import VcdTools.Query.Compare
import VcdTools.Query.CompareReference
import VcdTools.Lib.Chunked
import VcdTools.Lib.Fallible
import VcdTools.Query.CompareProviders
import VcdTools.Query.CompareSymmetry
import VcdTools.Query.CompareTimes
import VcdTools.Query.CompareWindow
import VcdTools.Opened.Fst
import VcdTools.Query.Spellings
import VcdTools.Query.ExtractCollect
import VcdTools.Opened.FstExtract
import VcdTools.Opened.Waveform
import VcdTools.Opened.FstGeneration
import VcdTools.Server.LineFraming
import VcdTools.Lib.Decimal
import VcdTools.Lib.Fields
import VcdTools.Server.RequestJson
import VcdTools.Server.Request
import VcdTools.Server.RequestFields
import VcdTools.Server.RequestMethods
import VcdTools.Server.RequestGrammar
import VcdTools.Server.RequestCodec
import VcdTools.Server.Registry
import VcdTools.Lib.Leases
import VcdTools.Server.Connection
import VcdTools.Server.ConnectionInvariant
import VcdTools.Server.ConnectionSteps
import VcdTools.Server.IdReuse
import VcdTools.Server.MethodErrors
import VcdTools.Lib.Bracket
import VcdTools.Server.DispatchInner
import VcdTools.Server.ScanGate
import VcdTools.Server.ScanBlocked
import VcdTools.Server.ScanPermit
import VcdTools.Server.Listener
import VcdTools.Server.ListenerSteps
import VcdTools.Server.ListenerRace
import VcdTools.Server.Ledger
import VcdTools.Lib.JobQueue
import VcdTools.Server.Scheduler
import VcdTools.Server.SchedulerAccounts
import VcdTools.Server.SchedulerInvariant
import VcdTools.Server.SchedulerMoves
import VcdTools.Server.SchedulerRuns
import VcdTools.Server.SchedulerStages
import VcdTools.Lib.Visit
import VcdTools.Query.Ops
import VcdTools.Query.ExtractItems
import VcdTools.Opened.FstItems
import VcdTools.Query.FindOccurrence
import VcdTools.Opened.WaveformFind
import VcdTools.Lib.Pairs
import VcdTools.Query.Toggles
import VcdTools.Opened.WaveformToggles
import VcdTools.Query.ScanLimits
import VcdTools.Lib.Words
import VcdTools.Server.ScanLimits
import VcdTools.Lib.Utf8
import VcdTools.Header.Sanitize
import VcdTools.Header.SanitizeLines
import VcdTools.Header.SanitizeTokens
import VcdTools.Header.Split
import VcdTools.Opened.FstHierarchy
import VcdTools.CatalogTree
import VcdTools.Lib.Bytes
import VcdTools.Opened.FstPreflight
import VcdTools.Opened.MetadataScan
import VcdTools.Lib.Numeral
import VcdTools.Query.FoundAgain
import VcdTools.Server.StrictJson
import VcdTools.Lib.FixedPoint
import VcdTools.Server.EndFrame
import VcdTools.Lib.Joined
import VcdTools.Server.ErrorFrames
import VcdTools.Lib.RunReports
import VcdTools.Opened.VisitChanges
import VcdTools.Cli.Extract
import VcdTools.Cli.Vcd2trace
import VcdTools.Lib.Handle
import VcdTools.Lib.Buffered
import VcdTools.Opened.Identity
import VcdTools.Opened.HeaderIdentity
import VcdTools.Opened.BodyReader
import VcdTools.Query.CommandCount
import VcdTools.Opened.ScanWork
import VcdTools.Server.WorkStats
import VcdTools.Query.FormatValue
import VcdTools.Server.MissingDetails
import VcdTools.Lib.Potential
import VcdTools.Server.App
import VcdTools.Server.AppRuns
import VcdTools.Detection
import VcdTools.Server.GenerationSlot
import VcdTools.Server.SlotRuns
import VcdTools.Lib.Batches
import VcdTools.Cli.Trace
import VcdTools.Cli.TraceReports
import VcdTools.Cli.TraceOrder
import VcdTools.Server.Wire
import VcdTools.Server.WireDelivery
import VcdTools.Lib.JsonText
import VcdTools.Server.WireText
import VcdTools.Server.Describe
import VcdTools.Server.Answers
import VcdTools.Lib.Causes
import VcdTools.Server.Cancelling
import VcdTools.Server.Stopping
import VcdTools.Cli.Compare
import VcdTools.Opened.FstOpen
