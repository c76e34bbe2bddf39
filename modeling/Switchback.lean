import Switchback.Core.Fingerprint
import Switchback.Scorecard.Restart
import Switchback.Adapters.SseCuts
import Switchback.Protocols.ReturnedTurn
import Switchback.Protocols.EndsOnce
import Switchback.Protocols.FinalObject
import Switchback.Credentials.Circuit
import Switchback.Runtime.Fallback
import Switchback.Runtime.History
import Switchback.Coordination.SingleFlight
import Switchback.Coordination.Caps
import Switchback.BodyLog.Receipts
import Switchback.Server.Activator
import Switchback.Server.ProxyResponses
import Switchback.Quality.Windows
import Switchback.Quality.Probe
import Switchback.Server.ImageJobs
import Switchback.Router.Receipt
import Switchback.Credentials.Lockout
import Switchback.Credentials.Refresh
import Switchback.Credentials.Survivors
import Switchback.Runtime.PreviewRuns
import Switchback.Server.Capture
import Switchback.Server.Redaction
import Switchback.Scorecard.Replay
import Switchback.Runtime.Delivery
import Switchback.Ledger.Reconcile
import Switchback.Credentials.RoundRobin
import Switchback.Compress.Request
import Switchback.Compress.Diff
import Switchback.Adapters.EventStream
import Switchback.Protocols.SchemaLoss
import Switchback.Adapters.Metering
import Switchback.Adapters.ExclusiveMinimum
import Switchback.Adapters.ToolArgs
import Switchback.Adapters.ToolFinish
import Switchback.Protocols.Breakpoints
import Switchback.Protocols.ChatFidelity
import Switchback.Protocols.MessagesGrammar
import Switchback.Protocols.ResponsesItems
import Switchback.Runtime.EmbeddingsControls
import Switchback.Adapters.CostLaw
import Switchback.Server.SseBody
import Switchback.Server.ApiKeys
import Switchback.BodyLog.Published
import Switchback.BodyLog.Retention
import Switchback.BodyLog.Appends
import Switchback.BodyLog.Restore
import Switchback.Server.TraceFallback
import Switchback.Server.SseTerminal
import Switchback.Credentials.CapacityHistory
import Switchback.Quality.Rendering
