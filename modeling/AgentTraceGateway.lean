import AgentTraceGateway.Attribution
import AgentTraceGateway.Authority
import AgentTraceGateway.Config
import AgentTraceGateway.ConfigLimits
import AgentTraceGateway.ConfigReload
import AgentTraceGateway.ConfigStore
import AgentTraceGateway.Drain
import AgentTraceGateway.Engine
import AgentTraceGateway.Export.Batching
import AgentTraceGateway.Export.Collector
import AgentTraceGateway.Export.Conservation
import AgentTraceGateway.Export.Otlp
import AgentTraceGateway.Export.PercentDecode
import AgentTraceGateway.Export.Pool
import AgentTraceGateway.Export.Secrecy
import AgentTraceGateway.Export.SpanKeys
import AgentTraceGateway.Export.Target
import AgentTraceGateway.Export.Timestamp
import AgentTraceGateway.Export.Width
import AgentTraceGateway.Feed
import AgentTraceGateway.Gateway.AdminPages
import AgentTraceGateway.Gateway.Cancel
import AgentTraceGateway.Gateway.ClientUrl
import AgentTraceGateway.Gateway.Counters
import AgentTraceGateway.Gateway.Credentials
import AgentTraceGateway.Gateway.Delivery
import AgentTraceGateway.Gateway.DrainWindow
import AgentTraceGateway.Gateway.EndUser
import AgentTraceGateway.Gateway.Evidence
import AgentTraceGateway.Gateway.FirstOutput
import AgentTraceGateway.Gateway.Forward
import AgentTraceGateway.Gateway.Gauges
import AgentTraceGateway.Gateway.Headers
import AgentTraceGateway.Gateway.Intake
import AgentTraceGateway.Gateway.Isolation
import AgentTraceGateway.Gateway.Logging
import AgentTraceGateway.Gateway.MetricsPage
import AgentTraceGateway.Gateway.Paging
import AgentTraceGateway.Gateway.Pump
import AgentTraceGateway.Gateway.RawResponse
import AgentTraceGateway.Gateway.Records
import AgentTraceGateway.Gateway.Redirect
import AgentTraceGateway.Gateway.Relay
import AgentTraceGateway.Gateway.Switch
import AgentTraceGateway.Gateway.Truncated
import AgentTraceGateway.Gateway.Upstream
import AgentTraceGateway.Harness
import AgentTraceGateway.Json
import AgentTraceGateway.JsonRead
import AgentTraceGateway.Lib.Assembly
import AgentTraceGateway.Lib.Bytes
import AgentTraceGateway.Lib.Chunked
import AgentTraceGateway.Lib.CutText
import AgentTraceGateway.Lib.Entries
import AgentTraceGateway.Lib.FixedWidth
import AgentTraceGateway.Lib.Gregorian
import AgentTraceGateway.Lib.JsonText
import AgentTraceGateway.Lib.Lru
import AgentTraceGateway.Lib.Pages
import AgentTraceGateway.Lib.Positions
import AgentTraceGateway.Lib.Prometheus
import AgentTraceGateway.Lib.Recency
import AgentTraceGateway.Lib.Run
import AgentTraceGateway.Lib.Scanner
import AgentTraceGateway.Lib.Sha256
import AgentTraceGateway.Lib.Slice
import AgentTraceGateway.Lib.Suffix
import AgentTraceGateway.Lib.Text
import AgentTraceGateway.Lib.Utf8
import AgentTraceGateway.Lib.Words
import AgentTraceGateway.Metrics
import AgentTraceGateway.Model
import AgentTraceGateway.Protocol.BlockStream
import AgentTraceGateway.Protocol.ChatCalls
import AgentTraceGateway.Protocol.Descriptor
import AgentTraceGateway.Protocol.Detection
import AgentTraceGateway.Protocol.LegacyId
import AgentTraceGateway.Protocol.Live
import AgentTraceGateway.Protocol.LiveEngine
import AgentTraceGateway.Protocol.LiveMessages
import AgentTraceGateway.Protocol.LiveRefusal
import AgentTraceGateway.Protocol.LiveTurn
import AgentTraceGateway.Protocol.OneAnswer
import AgentTraceGateway.Protocol.OpenaiViews
import AgentTraceGateway.Protocol.Session
import AgentTraceGateway.Protocol.Tables
import AgentTraceGateway.Protocol.Usage
import AgentTraceGateway.Protocol.UsageMerge
import AgentTraceGateway.Protocol.Views
import AgentTraceGateway.SseEncoding
import AgentTraceGateway.Trace.Bound
import AgentTraceGateway.Trace.Expiry
import AgentTraceGateway.Trace.History
import AgentTraceGateway.Trace.Occupancy
import AgentTraceGateway.Trace.Prefix
import AgentTraceGateway.Trace.Recall
import AgentTraceGateway.Trace.RecordsPage
import AgentTraceGateway.Trace.Retention
import AgentTraceGateway.Trace.Segments
import AgentTraceGateway.Trace.SessionId
import AgentTraceGateway.Trace.Store
import AgentTraceGateway.Trace.Sweep
import AgentTraceGateway.Trace.Unpack
