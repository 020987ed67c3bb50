import InverterDashboard.Mqtt.Commit
import InverterDashboard.Lan.Ess
import InverterDashboard.Lan.Spelling
import InverterDashboard.Lan.Reconnect
import InverterDashboard.Lan.Ownership
import InverterDashboard.Lan.Snapshot
import InverterDashboard.Lan.Alarms
import InverterDashboard.Lan.Vanished
import InverterDashboard.Lan.SlotEvents
import InverterDashboard.Lan.Collections
import InverterDashboard.Lan.Handled
import InverterDashboard.Lan.NullReports
import InverterDashboard.Mqtt.Ties
import InverterDashboard.Mqtt.Levels
import InverterDashboard.Mqtt.Times
import InverterDashboard.Source.Acknowledge
import InverterDashboard.Source.Availability
import InverterDashboard.Source.Banners
import InverterDashboard.Source.Failback
import InverterDashboard.Push.Window
import InverterDashboard.Push.Limits
import InverterDashboard.Push.EventKey
import InverterDashboard.Push.Capacity
import InverterDashboard.Settings.Overrides
import InverterDashboard.Settings.Secrecy
import InverterDashboard.Push.Natives
import InverterDashboard.Push.Requests
import InverterDashboard.Push.Stale
import InverterDashboard.Push.Dial
import InverterDashboard.Gateway.Order
import InverterDashboard.Gateway.Parity
import InverterDashboard.Gateway.Telemetry
import InverterDashboard.Gateway.Override
import InverterDashboard.Gateway.Aliases
import InverterDashboard.Broadcast.Trigger
import InverterDashboard.Broadcast.Frames
import InverterDashboard.Broadcast.Message
import InverterDashboard.HomeAssistant.Merge
import InverterDashboard.HomeAssistant.Actions
import InverterDashboard.HomeAssistant.Limits
import InverterDashboard.ServiceWorker.Consent
import InverterDashboard.ServiceWorker.Wire
import InverterDashboard.Mqtt.Attempts
import InverterDashboard.Dispatch.Delivery
