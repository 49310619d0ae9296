import StreamDataProcessor.Foundation.Machine
import StreamDataProcessor.Foundation.Effect
import StreamDataProcessor.Foundation.Framing
import StreamDataProcessor.Foundation.Binary64
import StreamDataProcessor.Foundation.BinarySearch
import StreamDataProcessor.Foundation.HoppingWindow
import StreamDataProcessor.Arrow.Types
import StreamDataProcessor.Metadata.Keys
import StreamDataProcessor.Arrow.Table
import StreamDataProcessor.Metadata.Access
import StreamDataProcessor.Handlers.ThresholdStateMachine
import StreamDataProcessor.Handlers.ThresholdLaw
import StreamDataProcessor.Utils.Uvarint
import StreamDataProcessor.Kapacitor.RequestReader
import StreamDataProcessor.Kapacitor.RequestChunking
import StreamDataProcessor.Utils.ComputeUtils
import StreamDataProcessor.Handlers.Window
import StreamDataProcessor.Handlers.WindowSpec
import StreamDataProcessor.Utils.TimeUtils
import StreamDataProcessor.Handlers.DynamicWindow
import StreamDataProcessor.Handlers.DynamicWindowLaw
import StreamDataProcessor.Handlers.WindowTermination
import StreamDataProcessor.Kapacitor.DynamicWindowRequestHandler
import StreamDataProcessor.Utils.StringUtils
import StreamDataProcessor.Kapacitor.GroupingUtils
import StreamDataProcessor.Kapacitor.Points
import StreamDataProcessor.Kapacitor.PointsConverter
import StreamDataProcessor.Kapacitor.PointsRoundTrip
import StreamDataProcessor.Handlers.Derivative
import StreamDataProcessor.Handlers.DerivativeSteps
import StreamDataProcessor.Handlers.DerivativeSpec
import StreamDataProcessor.Handlers.DerivativeSafety
import StreamDataProcessor.Kapacitor.DerivativeRequestHandler
import StreamDataProcessor.Utils.TransportUtils
import StreamDataProcessor.Transport.Tcp
import StreamDataProcessor.Transport.PubSub
import StreamDataProcessor.Transport.PubSubLossless
import StreamDataProcessor.Arrow.Compute
import StreamDataProcessor.Handlers.AggregateFunctions
import StreamDataProcessor.Kapacitor.PointsStorage
import StreamDataProcessor.Kapacitor.RecordBatchRequestHandler
import StreamDataProcessor.Kapacitor.BatchProtocol
import StreamDataProcessor.Kapacitor.RejectedRestore
import StreamDataProcessor.Kapacitor.Brackets
import StreamDataProcessor.Foundation.Attempts
import StreamDataProcessor.Handlers.ReadableTimes
import StreamDataProcessor.Handlers.WindowFailure
import StreamDataProcessor.Handlers.DerivativeFailure
import StreamDataProcessor.Handlers.ThresholdFailure
import StreamDataProcessor.Handlers.FailedCalls
import StreamDataProcessor.Kapacitor.BatchAggregateRequestHandler
import StreamDataProcessor.Handlers.ThresholdBounds
import StreamDataProcessor.Handlers.Replanning
import StreamDataProcessor.Foundation.Numerals
import StreamDataProcessor.Handlers.DerivativeAbscissas
import StreamDataProcessor.Handlers.Emissions
import StreamDataProcessor.Handlers.LateRows
import StreamDataProcessor.Handlers.RecordedRuns
import StreamDataProcessor.Handlers.ChangingWindows
import StreamDataProcessor.Handlers.AggregateShape
import StreamDataProcessor.Utils.ArrowUtils
import StreamDataProcessor.Foundation.Clusters
import StreamDataProcessor.Foundation.Partwise
import StreamDataProcessor.Handlers.JoinHandler
import StreamDataProcessor.Foundation.SortedIndex
import StreamDataProcessor.Handlers.JoinRows
import StreamDataProcessor.Handlers.JoinCollect
import StreamDataProcessor.Handlers.JoinLaw
import StreamDataProcessor.Handlers.ToleranceJoin
import StreamDataProcessor.Foundation.Delimited
import StreamDataProcessor.Handlers.JoinKeys
import StreamDataProcessor.Handlers.JoinNulls
import StreamDataProcessor.Handlers.JoinUnits
import StreamDataProcessor.Parsers.GraphiteMetric
import StreamDataProcessor.Parsers.GraphiteTemplate
import StreamDataProcessor.Parsers.GraphiteParser
import StreamDataProcessor.Parsers.GraphiteLines
import StreamDataProcessor.Parsers.GraphiteMemory
import StreamDataProcessor.Foundation.FiniteDifference
import StreamDataProcessor.Utils.DerivativeCalculator
import StreamDataProcessor.Foundation.KeyedMerge
import StreamDataProcessor.Parsers.GraphiteRows
import StreamDataProcessor.Parsers.GraphiteSeries
import StreamDataProcessor.Foundation.Rounding
import StreamDataProcessor.Foundation.DecimalNumerals
import StreamDataProcessor.Parsers.GraphiteTypes
import StreamDataProcessor.Utils.StringSplits
import StreamDataProcessor.Foundation.Entries
import StreamDataProcessor.Kapacitor.GroupStrings
import StreamDataProcessor.Foundation.Grouping
import StreamDataProcessor.Utils.GroupSorting
import StreamDataProcessor.Utils.MessageSplitting
import StreamDataProcessor.Foundation.CheckedFold
import StreamDataProcessor.Kapacitor.WindowOptions
import StreamDataProcessor.Foundation.Blocks
import StreamDataProcessor.Kapacitor.DerivativeGrammar
import StreamDataProcessor.Utils.TimeConversion
import StreamDataProcessor.Foundation.Continued
import StreamDataProcessor.Utils.VarintGrammar
import StreamDataProcessor.Foundation.TwinSearch
import StreamDataProcessor.Utils.ArgExtremes
import StreamDataProcessor.Handlers.ColumnTypes
import StreamDataProcessor.Foundation.Dispatch
import StreamDataProcessor.Handlers.GroupDispatcher
import StreamDataProcessor.Kapacitor.StreamUdfs
import StreamDataProcessor.Kapacitor.Views
import StreamDataProcessor.Kapacitor.StreamResumption
import StreamDataProcessor.Kapacitor.Flushes
import StreamDataProcessor.Kapacitor.GroupIsolation
import StreamDataProcessor.Handlers.SharedWindow
import StreamDataProcessor.Kapacitor.StreamAggregation
import StreamDataProcessor.Handlers.AggregateValues
import StreamDataProcessor.Handlers.AggregateCells
import StreamDataProcessor.Handlers.AggregateLaw
import StreamDataProcessor.Handlers.AggregateResults
import StreamDataProcessor.Handlers.TumblingWindows
import StreamDataProcessor.Foundation.Dataflow
import StreamDataProcessor.Nodes.EvalNode
import StreamDataProcessor.Nodes.Pipelines
import StreamDataProcessor.Nodes.PipelineRuns
import StreamDataProcessor.Kapacitor.UdfAgent
import StreamDataProcessor.Kapacitor.AgentSession
import StreamDataProcessor.Kapacitor.AgentAnswers
import StreamDataProcessor.Kapacitor.TimerRequestHandler
import StreamDataProcessor.Kapacitor.TimerRuns
import StreamDataProcessor.Kapacitor.LoggingRequestHandler
import StreamDataProcessor.Kapacitor.LoggedPoints
import StreamDataProcessor.Handlers.SortHandler
import StreamDataProcessor.Handlers.GroupHandler
import StreamDataProcessor.Handlers.KeyedStream
import StreamDataProcessor.Nodes.RecordBatchNodes
import StreamDataProcessor.Foundation.AdvisoryLocks
import StreamDataProcessor.Server.UnixSocketServer
import StreamDataProcessor.Server.SocketOwnership
import StreamDataProcessor.Server.SocketStarts
import StreamDataProcessor.Kapacitor.ThresholdRequestHandler
import StreamDataProcessor.Handlers.DefaultHandler
import StreamDataProcessor.Kapacitor.StreamAggregateRequestHandler
import StreamDataProcessor.Foundation.TwosComplement
import StreamDataProcessor.Foundation.DoubleArithmetic
import StreamDataProcessor.Handlers.WrappedSeconds
import StreamDataProcessor.Handlers.WrappedRecords
