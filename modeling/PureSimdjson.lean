import PureSimdjson.Effect
import PureSimdjson.Runs
import PureSimdjson.Replies
import PureSimdjson.Interactions
import PureSimdjson.Threads
import PureSimdjson.Probing
import PureSimdjson.Words
import PureSimdjson.SlotTable
import PureSimdjson.PreorderWords
import PureSimdjson.KeyedTotals
import PureSimdjson.Records
import PureSimdjson.Abi
import PureSimdjson.Values
import PureSimdjson.Decimals
import PureSimdjson.NumberLiterals
import PureSimdjson.TapeLayout
import PureSimdjson.Frames
import PureSimdjson.FrameRequests
import PureSimdjson.FrameDecoding
import PureSimdjson.Simdjson
import PureSimdjson.Nesting
import PureSimdjson.Materializer
import PureSimdjson.DepthBoundary
import PureSimdjson.ParseDiagnostics
import PureSimdjson.ParsePlacement
import PureSimdjson.WildcardPath
import PureSimdjson.WildcardScan
import PureSimdjson.WildcardGrammar
import PureSimdjson.Native
import PureSimdjson.Bridge
import PureSimdjson.SampleDocument
import PureSimdjson.WildcardTraversal
import PureSimdjson.Registry
import PureSimdjson.ParserLifecycle
import PureSimdjson.ElementViews
import PureSimdjson.Iterators
import PureSimdjson.BlockLedger
import PureSimdjson.Calls
import PureSimdjson.NativeFrame
import PureSimdjson.ByteBlocks
import PureSimdjson.ParseCalls
import PureSimdjson.NativeParsers
import PureSimdjson.NativeParserMoves
import PureSimdjson.DiagnosticHistory
import PureSimdjson.ParseHistory
import PureSimdjson.RegistryMoves
import PureSimdjson.CallMoves
import PureSimdjson.Ownership
import PureSimdjson.Freshness
import PureSimdjson.TapeSafety
import PureSimdjson.IndexValidity
import PureSimdjson.LeaseLinearity
import PureSimdjson.LeaseAllocation
import PureSimdjson.Iteration
import PureSimdjson.AllocTelemetry
import PureSimdjson.AllocAccounts
import PureSimdjson.BorrowedSpans
import PureSimdjson.Kernels
import PureSimdjson.KernelSelection
import PureSimdjson.KernelStability
import PureSimdjson.Minify
import PureSimdjson.ExactFloats
import PureSimdjson.Elements
import PureSimdjson.AccessorCalls
import PureSimdjson.AccessorWalk
import PureSimdjson.OpenDocuments
import PureSimdjson.ViewArrays
import PureSimdjson.Navigation
import PureSimdjson.PlainDocuments
import PureSimdjson.ValueLookups
import PureSimdjson.SessionFrames
import PureSimdjson.SessionAnswers
import PureSimdjson.SessionLookups
import PureSimdjson.SessionContainers
import PureSimdjson.SessionIterators
import PureSimdjson.SessionStates
import PureSimdjson.Sessions
import PureSimdjson.Texts
import PureSimdjson.Backoff
import PureSimdjson.Redirects
import PureSimdjson.Retry
import PureSimdjson.RetrySchedules
import PureSimdjson.ChecksumFiles
import PureSimdjson.Downloads
import PureSimdjson.Outcomes
import PureSimdjson.DownloadLadder
import PureSimdjson.ChecksumLadder
import PureSimdjson.VerifiedDownloads
import PureSimdjson.ActiveLibrary
import PureSimdjson.Wrappers
import PureSimdjson.GoParsers
import PureSimdjson.WrapperInvariants
import PureSimdjson.PoolExclusivity
import PureSimdjson.NativeHandles
import PureSimdjson.HeldParsers
import PureSimdjson.ParseOutcomes
import PureSimdjson.ParserContracts
import PureSimdjson.ParserSessions
import PureSimdjson.WrapperAgreement
import PureSimdjson.BusyRecords
import PureSimdjson.BindingCopies
import PureSimdjson.LockScripts
import PureSimdjson.LockOrder
import PureSimdjson.CallLocks
import PureSimdjson.Installations
import PureSimdjson.RetryViews
import PureSimdjson.BootstrapSync
import PureSimdjson.FailureMemo
