import SensorLib.Base.Descriptors
import SensorLib.Base.Distinct
import SensorLib.Base.Leases
import SensorLib.Base.Lookup
import SensorLib.Base.Rssi
import SensorLib.Base.Runs
import SensorLib.Bluetooth.Network
import SensorLib.Bluetooth.Pairing
import SensorLib.Bluetooth.Ports
import SensorLib.Bluetooth.Roles
import SensorLib.Bluez.Ansi
import SensorLib.Bluez.DeviceClass
import SensorLib.Bluez.DeviceInfo
import SensorLib.Bluez.DeviceNames
import SensorLib.Bluez.ScanTable
import SensorLib.Comms.Acts
import SensorLib.Comms.Answers
import SensorLib.Comms.ApiHandles
import SensorLib.Comms.Closing
import SensorLib.Comms.ClosingPrograms
import SensorLib.Comms.Connections
import SensorLib.Comms.Correspondence
import SensorLib.Comms.Datagrams
import SensorLib.Comms.Delivery
import SensorLib.Comms.Destruction
import SensorLib.Comms.Established
import SensorLib.Comms.Handshakes
import SensorLib.Comms.Hosts
import SensorLib.Comms.LifetimePrograms
import SensorLib.Comms.LifetimeRuns
import SensorLib.Comms.LifetimeSafety
import SensorLib.Comms.Lifetimes
import SensorLib.Comms.LinkIds
import SensorLib.Comms.LinkOwners
import SensorLib.Comms.Overlap
import SensorLib.Comms.Programs
import SensorLib.Comms.Replies
import SensorLib.Comms.Returns
import SensorLib.Comms.ScanPrograms
import SensorLib.Comms.ScanRuns
import SensorLib.Comms.ScanSafety
import SensorLib.Comms.Scans
import SensorLib.Comms.Types
import SensorLib.Gps.Members
import SensorLib.Gps.Position
import SensorLib.Gps.Reports
import SensorLib.Gps.Stream
import SensorLib.Gps.Strings
import SensorLib.Instrument.Actions
import SensorLib.Instrument.BluetoothBackends
import SensorLib.Instrument.OutputLength
import SensorLib.Instrument.WifiScan
import SensorLib.Registry.Devices
import SensorLib.Registry.Links
import SensorLib.Registry.Methods
import SensorLib.Registry.Operations
import SensorLib.Registry.Owners
import SensorLib.Registry.Pointers
import SensorLib.Registry.Ports
import SensorLib.Registry.Rules
import SensorLib.Registry.Sharing
import SensorLib.Registry.Types
import SensorLib.Socket.Acts
import SensorLib.Socket.Adapters
import SensorLib.Socket.Agreement
import SensorLib.Socket.Cleanup
import SensorLib.Socket.Connecting
import SensorLib.Socket.Connections
import SensorLib.Socket.Descriptors
import SensorLib.Socket.Destroy
import SensorLib.Socket.Durations
import SensorLib.Socket.Handles
import SensorLib.Socket.Interface
import SensorLib.Socket.Ledger
import SensorLib.Socket.Listening
import SensorLib.Socket.LostUpdates
import SensorLib.Socket.Methods
import SensorLib.Socket.Nesting
import SensorLib.Socket.OneHandle
import SensorLib.Socket.PeerPrograms
import SensorLib.Socket.PeerSafety
import SensorLib.Socket.Peers
import SensorLib.Socket.Pinned
import SensorLib.Socket.Pins
import SensorLib.Socket.Programs
import SensorLib.Socket.Reconnect
import SensorLib.Socket.Registry
import SensorLib.Socket.Reopening
import SensorLib.Socket.Returns
import SensorLib.Socket.Safety
import SensorLib.Socket.Sessions
import SensorLib.Socket.Timeouts
import SensorLib.Socket.Types
import SensorLib.Socket.Updates
import SensorLib.Socket.Waits
import SensorLib.Text.Buffers
import SensorLib.Text.CString
import SensorLib.Text.Calendar
import SensorLib.Text.CivilTime
import SensorLib.Text.Elements
import SensorLib.Text.Json
import SensorLib.Text.JsonSearch
import SensorLib.Text.JsonValues
import SensorLib.Text.Lines
import SensorLib.Text.Numbers
import SensorLib.Text.Pieces
import SensorLib.Threads.Beside
import SensorLib.Threads.Blocks
import SensorLib.Threads.Completion
import SensorLib.Threads.Discipline
import SensorLib.Threads.Fair
import SensorLib.Threads.Kinds
import SensorLib.Threads.Paths
import SensorLib.Threads.Program
import SensorLib.Threads.Quiescence
import SensorLib.Threads.Sequential
import SensorLib.Threads.Waiting
import SensorLib.Threads.World
import SensorLib.Wifi.Candidates
import SensorLib.Wifi.MacTexts
import SensorLib.Wifi.Requests
import SensorLib.Wifi.ScanResults
