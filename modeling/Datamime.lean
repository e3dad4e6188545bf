import Datamime.Math.Run
import Datamime.Math.Bits
import Datamime.Math.Text
import Datamime.Search.ZeroCost
import Datamime.Csv.Scaling
import Datamime.Profiler.CacheWays
import Datamime.Profiler.MemTraffic
import Datamime.Profiler.Records
import Datamime.Profiler.Main
import Datamime.Profiler.Refresh
import Datamime.CacheUtils.Ucp
import Datamime.Math.ConvexAllocation
import Datamime.Harness.Alignment
import Datamime.Harness.Clients
import Datamime.Harness.Latencies
import Datamime.CacheUtils.Optimal
import Datamime.Math.PyNumber
import Datamime.Profiler.WaitLoop
import Datamime.Search.CostLaws
import Datamime.Search.GenerateStats
import Datamime.Search.Params
import Datamime.Search.RaisesNothing
import Datamime.Search.Reevaluation
import Datamime.Math.Avoids
import Datamime.Math.History
import Datamime.Profiler.IndexRanges
import Datamime.Csv.RoundTrip
import Datamime.Profiler.Pairing
import Datamime.Hardware.Calls
import Datamime.Profiler.Isolation
import Datamime.Hardware.Sharing
import Datamime.Profiler.Descriptors
import Datamime.Profiler.MonitorLength
import Datamime.Profiler.GroupSplit
import Datamime.Profiler.CurveColumns
import Datamime.Profiler.Rounds
import Datamime.Profiler.CommandLine
import Datamime.CacheUtils.Awards
import Datamime.CacheUtils.PartitionPlan
import Datamime.CacheUtils.SpeedupCurves
import Datamime.Csv.Assertions
import Datamime.Search.GenerateAvgs
import Datamime.Math.Pattern
import Datamime.Search.MultipleTargets
import Datamime.Profiler.ClosedFiles
import Datamime.Dnn.LayerOrder
import Datamime.Math.Memory
import Datamime.Dnn.GeneratedModel
import Datamime.Dnn.Server
import Datamime.Xapian.Server
import Datamime.Math.TextStream
import Datamime.Xapian.TermSet
import Datamime.Math.RejectionSampling
import Datamime.Xapian.Zipf
import Datamime.Math.CNumber
import Datamime.Memcached.Distributions
import Datamime.Memcached.TweetTrace
import Datamime.Math.Threads
import Datamime.Silo.Worker
import Datamime.Harness.Timing
import Datamime.CacheUtils.Smoothing
import Datamime.Harness.RoundRobin
import Datamime.Math.Mean
import Datamime.Profiler.HistoryWindow
import Datamime.Harness.Locks
import Datamime.Microbenchmark.Deletions
import Datamime.Harness.Networked
import Datamime.Harness.InFlight
import Datamime.Harness.Delivery
import Datamime.Harness.Region
import Datamime.Harness.Assertions
import Datamime.Harness.NetworkClock
import Datamime.Harness.Carried
import Datamime.Math.EventBuffer
import Datamime.Math.Outcome
import Datamime.Mutilate.Protocol
import Datamime.Mutilate.Connection
import Datamime.Mutilate.Session
import Datamime.Mutilate.Replies
import Datamime.Mutilate.Matching
import Datamime.Mutilate.Phases
import Datamime.Mutilate.Loader
import Datamime.Mutilate.Reading
import Datamime.Mutilate.Runs
import Datamime.Mutilate.AsciiReplies
import Datamime.Mutilate.BinaryReplies
import Datamime.Mutilate.Loads
import Datamime.Math.Commuting
import Datamime.Math.Dialogue
import Datamime.Math.Conversation
import Datamime.Math.Rendezvous
import Datamime.Mutilate.Agents
import Datamime.Mutilate.Barrier
import Datamime.Mutilate.AgentSession
import Datamime.Mutilate.OutOfStep
import Datamime.Mutilate.Shares
import Datamime.Mutilate.Totals
