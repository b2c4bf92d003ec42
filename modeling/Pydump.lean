import Pydump.Lib.BigEndian
import Pydump.Lib.ByteParser
import Pydump.Lib.OpenCut
import Pydump.Lib.OrderChoice
import Pydump.Lib.OrderedDict
import Pydump.Lib.Utf8
import Pydump.Lib.Utf8Order
import Pydump.Lib.Sorting
import Pydump.Lib.Tally
import Pydump.Lib.ExceptLoop
import Pydump.Lib.RefCount
import Pydump.Lib.RefGraph
import Pydump.Lib.StrictMarking
import Pydump.Lib.StrictSubtrees
import Pydump.Lib.RefRenaming
import Pydump.Lib.RefRoots
import Pydump.Lib.RefAnchors
import Pydump.Lib.RowTable
import Pydump.Analyzer.Model
import Pydump.Analyzer.Reader
import Pydump.Analyzer.Retained
import Pydump.Analyzer.HeapGraph
import Pydump.Analyzer.RetainedSpec
import Pydump.Analyzer.CalculatorSpec
import Pydump.Analyzer.ThreadRoots
import Pydump.Analyzer.Contributions
import Pydump.Capture.Model
import Pydump.Capture.HeapWriter
import Pydump.Artifact.Layout
import Pydump.Artifact.WriterSpec
import Pydump.Artifact.ReaderSpec
import Pydump.Artifact.RoundTrip
import Pydump.Go.Model
import Pydump.Go.Reader
import Pydump.Go.ReaderAgreement
import Pydump.Go.Graph
import Pydump.Go.GraphSpec
import Pydump.Go.HeapGraph
import Pydump.Go.GraphRepresentation
import Pydump.Go.Retained
import Pydump.Go.RetainedSpec
import Pydump.Go.DeletionSpec
import Pydump.Go.CalculatorSpec
import Pydump.Go.RetainedAgreement
import Pydump.Go.StrictSubtrees
import Pydump.Go.ThreadAgreement
import Pydump.Go.Contributions
import Pydump.Go.Reachability
import Pydump.Protocol.Frames
import Pydump.Protocol.Socket
import Pydump.Protocol.SocketSpec
import Pydump.Protocol.BulkGrammar
import Pydump.Agent.Model
import Pydump.Agent.SendSpec
import Pydump.Capture.Collector
import Pydump.Agent.Batching
import Pydump.Capture.ReceiveSpec
import Pydump.Agent.ObjectFacts
import Pydump.Agent.Roots
import Pydump.Lib.Interleaving
import Pydump.Lib.Json
import Pydump.Analyzer.Cache
import Pydump.Analyzer.CacheEntries
import Pydump.Analyzer.CacheLoads
import Pydump.Analyzer.CacheSpec
import Pydump.Go.Cache
import Pydump.Go.CacheEntries
import Pydump.Go.CacheExchange
import Pydump.Go.CacheRuns
import Pydump.Go.CacheRunsSpec
import Pydump.Go.CacheSpec
import Pydump.Agent.Lifecycle
import Pydump.Agent.LifecycleSpec
import Pydump.Agent.Sessions
import Pydump.Capture.Delivery
import Pydump.Capture.Deliveries
import Pydump.Analyzer.ReaderShape
import Pydump.Analyzer.Rendering
import Pydump.Analyzer.Report
import Pydump.Analyzer.ReportSpec
import Pydump.Analyzer.ThreadRows
import Pydump.Go.ReaderShape
import Pydump.Go.Rendering
import Pydump.Go.Report
import Pydump.Go.ReportSpec
import Pydump.Go.ThreadRows
import Pydump.Go.Commands
import Pydump.Go.Documents
import Pydump.Go.CommandsSpec
import Pydump.Artifact.PrefixFree
import Pydump.Analyzer.ReaderErrors
import Pydump.Analyzer.ReaderFacts
import Pydump.Capture.Session
import Pydump.Capture.SessionLanguage
import Pydump.Capture.SessionSpec
import Pydump.Capture.Outcome
import Pydump.Capture.SessionRuns
import Pydump.Capture.ObjectGraph
import Pydump.Capture.GraphWalk
import Pydump.Capture.GraphCapture
import Pydump.Artifact.Strings
import Pydump.Injector.Arguments
import Pydump.Injector.ArgumentsSpec
import Pydump.Lib.ByteMemory
import Pydump.Lib.LittleEndian
import Pydump.Injector.Clones
import Pydump.Agent.Receive
import Pydump.Agent.ReceiveSpec
import Pydump.Capture.Install
import Pydump.Agent.Sending
import Pydump.Agent.Answering
import Pydump.Capture.NativeCapture
import Pydump.Capture.NativeAnalysis
import Pydump.Lib.Deferred
import Pydump.Lib.X64
import Pydump.Lib.X64Runs
import Pydump.Injector.Symbols
import Pydump.Injector.Tracee
import Pydump.Injector.Restoring
import Pydump.Injector.CloneCode
import Pydump.Injector.Target
import Pydump.Injector.TargetSpec
import Pydump.Injector.Thread
import Pydump.Injector.Cloning
import Pydump.Injector.Launching
