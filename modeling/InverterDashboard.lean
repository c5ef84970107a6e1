import InverterDashboard.Python.Text
import InverterDashboard.Python.Float
import InverterDashboard.Python.Dict
import InverterDashboard.Python.Value
import InverterDashboard.Python.Repr
import InverterDashboard.Temporal.Trace
import InverterDashboard.Cerbo.Keys
import InverterDashboard.Cerbo.Listing
import InverterDashboard.Cerbo.Projection
import InverterDashboard.Cerbo.Overlay
import InverterDashboard.Controller.Commands
import InverterDashboard.Server.MqttState
import InverterDashboard.Server.Operations
import InverterDashboard.Server.LeafMap
import InverterDashboard.Server.Reduction
import InverterDashboard.Server.Convergence
import InverterDashboard.Server.WaterAuthority
import InverterDashboard.Server.CommandChecks
import InverterDashboard.Server.EssAuthority
import InverterDashboard.Controller.Encoding
import InverterDashboard.Server.OverrideStatus
import InverterDashboard.Async.Coroutine
import InverterDashboard.Async.Jobs
import InverterDashboard.Commands.World
import InverterDashboard.Commands.Checks
import InverterDashboard.Commands.Programs
import InverterDashboard.Commands.Dispatch
import InverterDashboard.Commands.Override
import InverterDashboard.Commands.Guarantees
import InverterDashboard.Server.Totality
import InverterDashboard.Python.Encoding
import InverterDashboard.Python.DateTime
import InverterDashboard.Bounded.Journal
import InverterDashboard.Push.Payload
import InverterDashboard.Push.Store
import InverterDashboard.Push.Identity
import InverterDashboard.Push.Events
import InverterDashboard.Push.Transport
import InverterDashboard.Push.Service
import InverterDashboard.Push.Calls
import InverterDashboard.Push.Control
import InverterDashboard.Push.Revocation
import InverterDashboard.Push.Rows
import InverterDashboard.Push.Claims
import InverterDashboard.Push.Leases
import InverterDashboard.Push.Lifetime
import InverterDashboard.Push.Startup
import InverterDashboard.Push.Silence
import InverterDashboard.Python.Decimal
import InverterDashboard.Python.NumberText
import InverterDashboard.Python.Printing
import InverterDashboard.Notifications.Values
import InverterDashboard.Notifications.Slots
import InverterDashboard.Notifications.Merging
import InverterDashboard.Bounded.Edits
import InverterDashboard.Notifications.Banners
import InverterDashboard.Notifications.Changes
import InverterDashboard.Notifications.Rendering
import InverterDashboard.Notifications.Transports
import InverterDashboard.Notifications.Sessions
import InverterDashboard.Notifications.Alarms
import InverterDashboard.Notifications.Authority
import InverterDashboard.Bounded.Recent
import InverterDashboard.Notifications.Dismissals
import InverterDashboard.Json.Number
import InverterDashboard.Json.Exact
import InverterDashboard.Json.Text
import InverterDashboard.Json.Scan
import InverterDashboard.Json.Dump
import InverterDashboard.Json.File
import InverterDashboard.Settings.Store
import InverterDashboard.Settings.Persistence
import InverterDashboard.Settings.Soundness
import InverterDashboard.Settings.Connections
import InverterDashboard.Settings.Serving
import InverterDashboard.Notifications.Numbers
import InverterDashboard.Python.Heap
import InverterDashboard.HomeAssistant.Ownership
import InverterDashboard.HomeAssistant.Actions
import InverterDashboard.Server.Availability
import InverterDashboard.Server.Phases
import InverterDashboard.Server.Forgetting
import InverterDashboard.HomeAssistant.Durations
import InverterDashboard.Json.Bytes
import InverterDashboard.Push.Fitting
import InverterDashboard.Async.Lock
import InverterDashboard.WebSocket.Hub
import InverterDashboard.WebSocket.Locks
import InverterDashboard.WebSocket.Delivery
import InverterDashboard.Server.Broadcasts
import InverterDashboard.Server.Isolation
import InverterDashboard.Push.Observer
import InverterDashboard.Push.Selection
import InverterDashboard.Push.Contents
import InverterDashboard.Server.Routes
import InverterDashboard.Push.Sampling
import InverterDashboard.Push.Transitions
import InverterDashboard.Json.Compact
import InverterDashboard.Worker.Storage
import InverterDashboard.Worker.Events
import InverterDashboard.Worker.Delivery
import InverterDashboard.Sources.Exclusion
import InverterDashboard.Sources.Shutdown
import InverterDashboard.Mqtt.Filters
import InverterDashboard.Server.Subscriptions
import InverterDashboard.Bounded.Window
import InverterDashboard.Push.Registrations
import InverterDashboard.Push.Limits
import InverterDashboard.Push.Api
import InverterDashboard.HomeAssistant.Polls
import InverterDashboard.Push.Endpoints
import InverterDashboard.Server.Origins
