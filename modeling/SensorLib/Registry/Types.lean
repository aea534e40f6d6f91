import Mathlib.Data.Finmap
import Mathlib.Data.Finset.Image

/-! # Data of the socket registry -/

namespace SensorLib

abbrev UnorderedMap (α β : Type) := Finmap fun _ : α => β

/-- Addresses. A pointer that may be `nullptr` is an `Option` of one of these. -/
abbrev SocketPtr := Nat

abbrev ConfigPtr := Nat

abbrev LinkPtr := Nat

inductive InstrumentType
  | bluetooth
  | cellular
  | gps
  | wifi
  | comms
  | simulation
  deriving DecidableEq, Repr

structure BluetoothDeviceInfoBase where
  macAddress : String
  deriving DecidableEq, Repr

structure WifiDeviceInfoBase where
  macAddress : String
  deriving DecidableEq, Repr

/-- The last two fields are the members of an anonymous union. Only the one that
`instrumentType` selects is ever read. -/
structure BratislavaLink where
  linkID : String
  instrumentType : InstrumentType
  bluetoothDeviceInfo : BluetoothDeviceInfoBase
  wifiDeviceInfo : WifiDeviceInfoBase
  deriving DecidableEq, Repr

/-- A link with only its Wi-Fi member filled in. -/
def BratislavaLink.wifi (linkID macAddress : String) : BratislavaLink where
  linkID
  instrumentType := .wifi
  bluetoothDeviceInfo := ⟨""⟩
  wifiDeviceInfo := ⟨macAddress⟩

structure BratislavaSocketConfig where
  socket : Option SocketPtr := none
  deviceId : String := ""
  ip : String := ""
  sockfd : Int := -1
  localPort : Int := -1
  remotePort : Int := -1
  connected : Bool := false
  deriving DecidableEq, Repr

def minPort : Int := 40000

def maxPort : Int := 40256

/-- The members of the class, with the heap objects its `BratislavaSocketConfig*` point to:
`new` adds to `configs` and `delete` erases from it. -/
structure BratislavaSocketRegistry where
  sockets : List SocketPtr
  activeLinks : UnorderedMap String LinkPtr
  inactiveLinks : UnorderedMap String LinkPtr
  deviceIdToConfig : UnorderedMap String ConfigPtr
  sockToConfig : UnorderedMap SocketPtr ConfigPtr
  availableLocalPorts : Finset Int
  configs : UnorderedMap ConfigPtr BratislavaSocketConfig

/-- The device at the other end of a link: its instrument type and MAC text. -/
def BratislavaLink.device (link : BratislavaLink) : InstrumentType × String :=
  match link.instrumentType with
  | .wifi => (.wifi, link.wifiDeviceInfo.macAddress)
  | type => (type, link.bluetoothDeviceInfo.macAddress)

end SensorLib
