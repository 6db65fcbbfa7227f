import ApmAgent.Framework.LTS
import ApmAgent.Framework.Fuelled
import ApmAgent.Framework.Loop
import ApmAgent.Framework.InFlight
import ApmAgent.Framework.Components
import ApmAgent.Framework.Threads
import ApmAgent.Framework.Store
import ApmAgent.Framework.ObjectGraph
import ApmAgent.Framework.Dict
import ApmAgent.Framework.LazyInit
import ApmAgent.Framework.Json
import ApmAgent.Framework.JsonReader
import ApmAgent.Framework.Glob
import ApmAgent.Framework.Split
import ApmAgent.Framework.Replace
import ApmAgent.Framework.SearchPattern
import ApmAgent.Framework.Comparing
import ApmAgent.Framework.FirstIndex
import ApmAgent.Framework.MachineInt
import ApmAgent.Helpers.Utf16
import ApmAgent.Helpers.Text
import ApmAgent.Helpers.WildcardMatcher
import ApmAgent.Helpers.TwoPartSearch
import ApmAgent.Helpers.GlobMatching
import ApmAgent.Helpers.PartitionedMatching
import ApmAgent.Helpers.Numbers
import ApmAgent.Config.ConfigSnapshot
import ApmAgent.Config.ConfigurationReader
import ApmAgent.Config.OptionParsers
import ApmAgent.Config.GlobalLabels
import ApmAgent.Config.TimeIntervals
import ApmAgent.Config.ConfigOption
import ApmAgent.Config.KeyIsolation
import ApmAgent.Helpers.LazyContextualInit
import ApmAgent.Helpers.DisposableHelper
import ApmAgent.Helpers.SingleThreadTaskScheduler
import ApmAgent.BackendComm.BackendCommComponentBase
import ApmAgent.Helpers.TimeExtensions
import ApmAgent.ServerInfo.ElasticVersion
import ApmAgent.Sampler
import ApmAgent.Api.Destination
import ApmAgent.Helpers.DbConnectionStringParser
import ApmAgent.Helpers.ParserWithState
import ApmAgent.Api.Context
import ApmAgent.Api.ContextHeap
import ApmAgent.Api.ContextCopy
import ApmAgent.Model.Tracer
import ApmAgent.Model.TracerSteps
import ApmAgent.Model.TraceIdentity
import ApmAgent.Model.CurrentSegment
import ApmAgent.Model.SpanNesting
import ApmAgent.Model.TraceLinks
import ApmAgent.Model.NoOrphans
import ApmAgent.Model.SpanAccounting
import ApmAgent.Model.EndOnce
import ApmAgent.Model.CaptureHelpers
import ApmAgent.Model.SpanDestination
import ApmAgent.Model.DestinationGaps
import ApmAgent.Model.DestinationLookup
import ApmAgent.Model.DestinationCache
import ApmAgent.Model.ErrorSnapshot
import ApmAgent.Helpers.ServerText
import ApmAgent.Helpers.ConnectionPairs
import ApmAgent.Helpers.ServerForms
import ApmAgent.Helpers.ServerInstance
import ApmAgent.Helpers.KnownValues
import ApmAgent.Helpers.PlainHost
import ApmAgent.Helpers.NestedText
import ApmAgent.Helpers.OracleDescriptor
import ApmAgent.Helpers.AddressCoherence
import ApmAgent.BackendComm.CentralConfigResponseParser
import ApmAgent.BackendComm.CentralConfigFetcher
import ApmAgent.BackendComm.CentralConfigOverlay
import ApmAgent.BackendComm.ConfigExchange
import ApmAgent.BackendComm.CentralConfigLoop
import ApmAgent.BackendComm.CentralOption
import ApmAgent.Model.StartTransaction
import ApmAgent.DistributedTracing.TraceContext
import ApmAgent.DistributedTracing.Tracestate
import ApmAgent.DistributedTracing.KeyCharacters
import ApmAgent.DistributedTracing.TraceContinuity
import ApmAgent.Logging.LogValuesFormatter
import ApmAgent.Logging.ScopedLogger
import ApmAgent.Logging.CompositeFormat
import ApmAgent.Logging.MessageTemplate
import ApmAgent.Metrics.FreeAndTotalMemoryProvider
import ApmAgent.Metrics.MetricsCollector
import ApmAgent.Metrics.ConcurrentCollection
import ApmAgent.Metrics.SystemTotalCpuProvider
import ApmAgent.Metrics.CgroupDiscovery
import ApmAgent.AspNetCore.RequestBody
import ApmAgent.AspNetCore.RequestBodyLimit
import ApmAgent.AspNetCore.ContentTypePatterns
import ApmAgent.AspNetCore.ExceptionPaths
import ApmAgent.Report.EventQueue
import ApmAgent.Report.EventQueueInvariant
import ApmAgent.Report.PayloadSender
import ApmAgent.Report.FilterPipeline
import ApmAgent.Report.BatchLoss
import ApmAgent.Report.Intake
import ApmAgent.Report.Reporting
import ApmAgent.Report.PayloadItemSerializer
import ApmAgent.Model.LabelsDictionary
import ApmAgent.Model.RouteNames
import ApmAgent.Helpers.PropertyFetcher
import ApmAgent.Report.PropertyNames
import ApmAgent.Report.LabelsJsonConverter
import ApmAgent.Report.Sanitization
import ApmAgent.DiagnosticListeners.TracedSpans
import ApmAgent.DiagnosticListeners.SpanTracking
import ApmAgent.DiagnosticListeners.HttpDiagnosticListener
import ApmAgent.SqlClient.SqlEventListener
import ApmAgent.DiagnosticListeners.ExactTracking
import ApmAgent.AspNetCore.WebRequestTransactionCreator
import ApmAgent.DistributedTracing.ParentData
import ApmAgent.DistributedTracing.RequestHeaders
import ApmAgent.DistributedTracing.ServiceNetwork
import ApmAgent.Model.ExecutionFlows
import ApmAgent.DiagnosticListeners.DbInstrumentations
import ApmAgent.SamplingShare
import ApmAgent.BackendComm.BackendCommUtils
import ApmAgent.AspNetFullFramework.ElasticApmModule
