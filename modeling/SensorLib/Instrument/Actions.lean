import SensorLib.Bluetooth.Roles
import SensorLib.Bluez.DeviceInfo
import SensorLib.Comms.Acts
import SensorLib.Gps.Stream
import SensorLib.Wifi.Candidates
import SensorLib.Wifi.ScanResults

/-! # Actions of the instrument API

An action writes records behind `output_data`, and their number to `output_len`.
Each record is kept here with the place that it is written to. The calls of the
operating system are parameters, with every outcome that they can have.
-/

namespace SensorLib.Instrument

open CString Comms

inductive InstrumentAction
  | bluetoothGetAdapterInfo
  | bluetoothDiscoverDevices
  | bluetoothDiscoverBratislavaLinks
  | bluetoothIsUp
  | bluetoothTurnOn
  | bluetoothTurnOff
  | bluetoothScanOn
  | bluetoothScanOff
  | wifiGetMyDevice
  | wifiDiscoverDevices
  | wifiDiscoverBratislavaLinks
  | wifiIsUp
  | wifiTurnOn
  | wifiTurnOff
  | wifiScanOn
  | wifiScanOff
  | gpsGetPosition
  | commsDiscoverBratislavaLinks
  | other
  deriving DecidableEq, Repr

def bluetoothMaxAdapters : Nat := 10

def wifiMaxDevices : Nat := 150

structure BluetoothAdapterInfoBase where
  id : UInt16
  macAddress : Text
  name : Text
  flags : UInt32
  type : UInt8
  deriving DecidableEq, Repr

inductive Record (LongDouble : Type)
  | adapter (info : BluetoothAdapterInfoBase)
  | bluetoothDevice (id : UInt16) (device : Bluez.BluetoothDeviceInfoBase)
  | wifiDevice (device : Wifi.WifiDeviceInfoBase)
  | link (link : ActiveLink)
  | up (value : Bool)
  | position (position : Gps.PositionInfo LongDouble)
  deriving DecidableEq, Repr

/-- What an action returns and stores to `output_len`, if anything, and the records that it writes. -/
structure ActionResult (LongDouble : Type) where
  status : ApiStatus
  outputLen : Option Nat := none
  written : List (Record LongDouble × Nat) := []
  deriving DecidableEq, Repr

/-! ## Calls of the operating system -/

structure HciDevInfo where
  devId : UInt16
  bdaddr : Bluetooth.Bdaddr
  name : Text
  flags : UInt32
  type : UInt8
  deriving DecidableEq, Repr

/-- The calls on HCI sockets. The list has an entry for each device, which is `none` where its
information cannot be read. -/
structure HciCalls where
  socket : Bool
  unsupportedFamily : Bool
  devList : Option (List (Option HciDevInfo))
  devFlags : UInt16 → Option UInt32
  setUp : Bool → UInt16 → Bool
  alreadyUp : Bool

/-- An interface, with what its own calls return. -/
structure Interface where
  name : Text
  wireless : Bool
  socket : Bool
  hwaddr : Option (Vector UInt8 6)
  essid : Option Text
  deriving DecidableEq, Repr

structure WifiCalls where
  socket : Bool
  interfaces : Option (List Interface)
  flagsSocket : Bool
  flags : Text → Option UInt16
  setFlags : Text → UInt16 → Bool
  ifindex : Text → Nat
  nlSocket : Bool
  genlConnect : Bool
  resolved : Bool
  triggerScan : ApiStatus
  fetchScanResults : ApiStatus × List Wifi.WifiNetwork

/-- `recv` returns no empty piece before the end of the stream. -/
structure SystemCalls where
  hci : HciCalls
  wifi : WifiCalls
  readCommandOutput : Text → Option Text
  /-- The active links of the runtime once it has scanned, where there is a runtime. -/
  runtime : Option (List ActiveLink)
  gpsd : Gps.Gpsd
  pieces_ne : [] ∉ gpsd.pieces
  recvBuffer : Gps.RecvBuffer

/-- What is read of the input. -/
structure Input where
  adapterId : Option UInt16
  len : Nat
  deriving DecidableEq, Repr

/-! ## Bluetooth -/

variable {LongDouble : Type}

/-- A loop that writes a record for some of the items, as long as there is room. -/
def fill {α β : Type} (max : Nat) (record : α → Option β) : Nat → List α → List (β × Nat)
  | _, [] => []
  | count, item :: items =>
    if count < max then
      match record item with
      | none => fill max record count items
      | some r => (r, count) :: fill max record (count + 1) items
    else []

def adapterInfo (ba2str : Bluetooth.Bdaddr → Text) (info : HciDevInfo) : BluetoothAdapterInfoBase where
  id := info.devId
  macAddress := ba2str info.bdaddr
  name := copyString 256 info.name
  flags := info.flags
  type := info.type

def bluetoothGetAdapterInfo (ba2str : Bluetooth.Bdaddr → Text) (hci : HciCalls) (output : Bool) :
    ActionResult LongDouble :=
  if !output then { status := .error }
  else if !hci.socket then
    { status := if hci.unsupportedFamily then .notSupported else .error }
  else
    match hci.devList with
    | none => { status := .error }
    | some devices =>
      let adapters := fill bluetoothMaxAdapters
        (fun info : Option HciDevInfo => info.map fun i => .adapter (adapterInfo ba2str i)) 0 devices
      { status := if 0 < adapters.length then .success else .notSupported
        outputLen := some adapters.length
        written := adapters }

/-- The bit of `HCI_UP` and of `IFF_UP` is the lowest one. -/
def bluetoothIsUp (hci : HciCalls) (input : Input) (output : Bool) : ActionResult LongDouble :=
  match input.adapterId with
  | none => { status := .error }
  | some id =>
    if input.len = 0 || !output then { status := .error }
    else if !hci.socket then { status := .error }
    else
      match hci.devFlags id with
      | none => { status := .error }
      | some flags =>
        { status := .success, outputLen := some 1, written := [(.up (flags &&& 1 ≠ 0), 0)] }

def bluetoothSetUp (hci : HciCalls) (input : Input) (up : Bool) : ActionResult LongDouble :=
  match input.adapterId with
  | none => { status := .error }
  | some id =>
    if input.len = 0 then { status := .error }
    else if !hci.socket then { status := .error }
    else if hci.setUp up id || hci.alreadyUp then { status := .success }
    else { status := .error }

def appendKnownDevices (readCommandOutput : Text → Option Text) (entries : List Bluez.BluezScanEntry) :
    List Bluez.BluezScanEntry :=
  match readCommandOutput (ascii "bluetoothctl --timeout 5 devices 2>/dev/null") with
  | none => entries
  | some output => Bluez.parseScanOutput entries (some output)

def bluetoothDiscoverDevicesBackend (readCommandOutput : Text → Option Text) (output : Bool) :
    ActionResult LongDouble :=
  if !output then { status := .error }
  else
    match readCommandOutput (ascii "bluetoothctl --timeout 6 scan on 2>/dev/null") with
    | none => { status := .error }
    | some scanOutput =>
      let discovered := appendKnownDevices readCommandOutput (Bluez.parseScanOutput [] (some scanOutput))
      { status := .success
        outputLen := some discovered.length
        written := (discovered.mapIdx fun i entry => .bluetoothDevice (.ofNat i)
          (Bluez.enrichDeviceInfo readCommandOutput (Bluez.discoveredDevice entry))).zipIdx }

/-! ## Wi-Fi -/

/-- The status, and the name of the interface. -/
def findWirelessInterface (wifi : WifiCalls) : ApiStatus × Text :=
  if !wifi.socket then (.error, [])
  else
    match wifi.interfaces with
    | none => (.error, [])
    | some ifaces =>
      match ifaces.find? Interface.wireless with
      | none => (.notSupported, [])
      | some iface => (.success, copyString 16 iface.name)

def wifiGetInterfaceInfo (iface : Interface) : Option Wifi.WifiDeviceInfoBase :=
  if !iface.socket then none
  else
    some
      { ssid := (iface.essid.map fun essid => copyString 256 (copyString 33 essid)).getD []
        macAddress := (iface.hwaddr.map fun mac => List.intercalate [58] (mac.toList.map hexByte)).getD []
        type := .wifiAdapter
        rssi := ⟨0, false⟩ }

def wifiGetMyDevice (wifi : WifiCalls) (output : Bool) : ActionResult LongDouble :=
  if !output then { status := .error }
  else if !wifi.socket then { status := .error }
  else
    match wifi.interfaces with
    | none => { status := .error }
    | some ifaces =>
      let devices := fill wifiMaxDevices (fun iface : Interface =>
        if iface.wireless then (wifiGetInterfaceInfo iface).map .wifiDevice else none) 0 ifaces
      { status := if 0 < devices.length then .success else .notSupported
        outputLen := some devices.length
        written := devices }

def wifiIsUp (wifi : WifiCalls) (output : Bool) : ActionResult LongDouble :=
  if !output then { status := .error }
  else
    let (found, ifname) := findWirelessInterface wifi
    if found ≠ .success then { status := .notSupported }
    else if !wifi.flagsSocket then { status := .error }
    else
      match wifi.flags ifname with
      | none => { status := .error }
      | some flags =>
        { status := .success, outputLen := some 1, written := [(.up (flags &&& 1 ≠ 0), 0)] }

def wifiSetUp (wifi : WifiCalls) (up : Bool) : ActionResult LongDouble :=
  let (found, ifname) := findWirelessInterface wifi
  if found ≠ .success then { status := .notSupported }
  else if !wifi.flagsSocket then { status := .error }
  else
    match wifi.flags ifname with
    | none => { status := .error }
    | some flags =>
      let flags := if up then flags ||| 1 else flags &&& ~~~1
      { status := if wifi.setFlags ifname flags then .success else .error }

/-- The signal is cut to whole dBm, as the conversion of a `double` does. -/
def networkDevice (net : Wifi.WifiNetwork) : Wifi.WifiDeviceInfoBase where
  ssid := Wifi.copyStdString 256 net.ssid
  macAddress := Wifi.copyStdString 18 net.bssid
  type := .wifiRouter
  rssi := ⟨toInt16 ((net.signalMbm.getD 0).tdiv 100), net.signalMbm.isSome⟩

def wifiDiscoverDevicesNl80211 (wifi : WifiCalls) (ifname : Text) (output : Bool) :
    ActionResult LongDouble :=
  if !output then { status := .error }
  else if wifi.ifindex ifname = 0 then { status := .notSupported }
  else if !wifi.nlSocket then { status := .error }
  else if !wifi.genlConnect then { status := .error }
  else if !wifi.resolved then { status := .notSupported }
  else if wifi.triggerScan ≠ .success ∧ wifi.triggerScan ≠ .notSupported then
    { status := wifi.triggerScan }
  else
    let (fetchStatus, networks) := wifi.fetchScanResults
    if fetchStatus ≠ .success then { status := fetchStatus }
    else
      let count := min networks.length wifiMaxDevices
      { status := if 0 < count then .success else .notSupported
        outputLen := some count
        written := ((networks.take count).map fun net => .wifiDevice (networkDevice net)).zipIdx }

def wifiDiscoverDevices (wifi : WifiCalls) (output : Bool) : ActionResult LongDouble :=
  if !output then { status := .error }
  else
    let (found, ifname) := findWirelessInterface wifi
    if found ≠ .success then { status := .notSupported }
    else wifiDiscoverDevicesNl80211 wifi ifname output

/-! ## Links and positions -/

/-- `activeLinks` are those of the runtime when `discover_links` takes the lock. -/
def commsRuntimeDiscoverLinks (runtime : Option (List ActiveLink)) (instrumentType : InstrumentType)
    (output : Bool) : ActionResult LongDouble :=
  match runtime with
  | none => { status := .error }
  | some activeLinks =>
    if !output then { status := .error }
    else
      let (status, links) := outputLinks instrumentType activeLinks []
      { status
        outputLen := if status = .success then some links.length else none
        written := (links.map Record.link).zipIdx }

def positionResult (result : Gps.GpsResult LongDouble) : ActionResult LongDouble where
  status := result.status
  outputLen := result.outputLen
  written := (result.position.map Record.position).toList.zipIdx

def gpsGetPosition (C : Gps.Libc LongDouble) (calls : SystemCalls) (output : Bool) :
    Option (ActionResult LongDouble) :=
  (Gps.gpsGetPosition C output calls.gpsd calls.recvBuffer).map positionResult

/-! ## The actions -/

/-- `output` tells whether both pointers are there. -/
def performAction (C : Gps.Libc LongDouble) (ba2str : Bluetooth.Bdaddr → Text) (calls : SystemCalls)
    (action : InstrumentAction) (input : Input) (output : Bool) : Option (ActionResult LongDouble) :=
  match action with
  | .bluetoothGetAdapterInfo => some (bluetoothGetAdapterInfo ba2str calls.hci output)
  | .bluetoothDiscoverDevices => some (bluetoothDiscoverDevicesBackend calls.readCommandOutput output)
  | .bluetoothDiscoverBratislavaLinks =>
    some (commsRuntimeDiscoverLinks calls.runtime .bluetooth output)
  | .bluetoothIsUp => some (bluetoothIsUp calls.hci input output)
  | .bluetoothTurnOn => some (bluetoothSetUp calls.hci input true)
  | .bluetoothTurnOff => some (bluetoothSetUp calls.hci input false)
  | .bluetoothScanOn | .bluetoothScanOff => some { status := .success }
  | .wifiGetMyDevice => some (wifiGetMyDevice calls.wifi output)
  | .wifiDiscoverDevices => some (wifiDiscoverDevices calls.wifi output)
  | .wifiDiscoverBratislavaLinks => some (commsRuntimeDiscoverLinks calls.runtime .wifi output)
  | .wifiIsUp => some (wifiIsUp calls.wifi output)
  | .wifiTurnOn => some (wifiSetUp calls.wifi true)
  | .wifiTurnOff => some (wifiSetUp calls.wifi false)
  | .wifiScanOn | .wifiScanOff => some { status := .success }
  | .gpsGetPosition => gpsGetPosition C calls output
  | .commsDiscoverBratislavaLinks => some (commsRuntimeDiscoverLinks calls.runtime .comms output)
  | .other => some { status := .notSupported }

/-- `output_len` is set to zero before the action, where it is no null pointer. The result has its
value at the end. -/
def instrumentActionImpl (C : Gps.Libc LongDouble) (ba2str : Bluetooth.Bdaddr → Text)
    (calls : SystemCalls) (action : InstrumentAction) (input : Input) (outputData outputLen : Bool) :
    Option (ActionResult LongDouble) :=
  (performAction C ba2str calls action input (outputData && outputLen)).map fun result =>
    { result with outputLen := if outputLen then some (result.outputLen.getD 0) else none }

end SensorLib.Instrument
