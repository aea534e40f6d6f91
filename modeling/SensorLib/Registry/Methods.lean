import Mathlib.Data.Finset.Max
import SensorLib.Registry.Types

/-! # The methods of `BratislavaSocketRegistry`, run one after the other

A method overloaded on `BratislavaSocket*` and `const std::string&` is written
twice, with the suffix `Socket` or `Id`. A method that may allocate a config
takes the address `new` returns, and one that reads `socket->link` takes the
link. An `int` or `bool` result stands before the state that is left.
-/

namespace SensorLib

/-- `GetDeviceID(socket)`, which reads no more of the socket than its link. -/
def getDeviceID (link : BratislavaLink) : String :=
  match link.instrumentType with
  | .bluetooth => link.bluetoothDeviceInfo.macAddress
  | .wifi => link.wifiDeviceInfo.macAddress
  | _ => ""

namespace BratislavaSocketRegistry

/-- The loop inserts each port from `MIN_PORT` to `MAX_PORT`. -/
def initializeLocalPorts : Finset Int :=
  (Finset.range (maxPort - minPort + 1).toNat).map
    ⟨fun i : Nat => minPort + i, fun _ _ h => Int.ofNat.inj (Int.add_left_cancel h)⟩

theorem mem_initializeLocalPorts {port : Int} :
    port ∈ initializeLocalPorts ↔ minPort ≤ port ∧ port ≤ maxPort := by
  simp only [initializeLocalPorts, Finset.mem_map, Finset.mem_range]
  constructor
  · rintro ⟨i, hi, hport⟩
    change minPort + (i : Int) = port at hport
    omega
  · rintro ⟨hlow, hhigh⟩
    refine ⟨(port - minPort).toNat, by omega, ?_⟩
    change minPort + ((port - minPort).toNat : Int) = port
    omega

/-- The constructor. -/
def empty : BratislavaSocketRegistry where
  sockets := []
  activeLinks := ∅
  inactiveLinks := ∅
  deviceIdToConfig := ∅
  sockToConfig := ∅
  availableLocalPorts := initializeLocalPorts
  configs := ∅

variable (r : BratislavaSocketRegistry)

/-- `*p = config`. A store through a dangling pointer leaves no config behind. -/
def store (p : ConfigPtr) (config : BratislavaSocketConfig) : BratislavaSocketRegistry :=
  if p ∈ r.configs then { r with configs := r.configs.insert p config } else r

def getConfigSocket (socket : SocketPtr) : Option BratislavaSocketConfig :=
  (r.sockToConfig.lookup socket).bind fun p => r.configs.lookup p

def getConfigId (deviceId : String) : Option BratislavaSocketConfig :=
  (r.deviceIdToConfig.lookup deviceId).bind fun p => r.configs.lookup p

def existsSocket (socket : SocketPtr) : Bool := decide (socket ∈ r.sockets)

def existsId (deviceId : String) : Bool :=
  match r.getConfigId deviceId with
  | some config => config.socket.isSome
  | none => false

def updateConfigLocked (config : BratislavaSocketConfig) : Bool × BratislavaSocketRegistry :=
  -- `find(nullptr)` misses: no method files a config under a null socket.
  match config.socket.bind fun s => r.sockToConfig.lookup s with
  | some p => (true, r.store p config)
  | none =>
    match r.deviceIdToConfig.lookup config.deviceId with
    | some p => (true, r.store p config)
    | none => (false, r)

def updateConfig (config : BratislavaSocketConfig) : Bool × BratislavaSocketRegistry :=
  r.updateConfigLocked config

def createConfigSocket (socket : SocketPtr) (link : BratislavaLink) (newConfig : ConfigPtr) :
    BratislavaSocketRegistry :=
  let deviceId := getDeviceID link
  match r.deviceIdToConfig.lookup deviceId with
  | some p =>
    match r.configs.lookup p with
    | some config =>
      let updated := (r.updateConfigLocked { config with socket := some socket, deviceId }).2
      { updated with sockToConfig := updated.sockToConfig.insert socket p }
    | none => r
  | none =>
    { r with
      configs := r.configs.insert newConfig { socket := some socket, deviceId }
      sockToConfig := r.sockToConfig.insert socket newConfig
      deviceIdToConfig := r.deviceIdToConfig.insert deviceId newConfig }

def createConfigId (deviceId : String) (newConfig : ConfigPtr) : BratislavaSocketRegistry :=
  match r.deviceIdToConfig.lookup deviceId with
  | some _ => r
  | none =>
    { r with
      configs := r.configs.insert newConfig { deviceId }
      deviceIdToConfig := r.deviceIdToConfig.insert deviceId newConfig }

def removeConfig (socket : SocketPtr) : BratislavaSocketRegistry :=
  match r.sockToConfig.lookup socket with
  | some p =>
    match r.configs.lookup p with
    | some config =>
      { r with
        deviceIdToConfig := r.deviceIdToConfig.erase config.deviceId
        configs := r.configs.erase p
        sockToConfig := r.sockToConfig.erase socket }
    | none => r
  | none => r

def removeUnusedConfig (deviceId : String) : BratislavaSocketRegistry :=
  match r.deviceIdToConfig.lookup deviceId with
  | some p =>
    match r.configs.lookup p with
    | some config =>
      if config.socket.isNone then
        { r with
          configs := r.configs.erase p
          deviceIdToConfig := r.deviceIdToConfig.erase deviceId }
      else r
    | none => r
  | none => r

/-- Copy a config out, change the copy and write it back: the body of every attribute setter. -/
def modifyConfig (found : Option BratislavaSocketConfig)
    (change : BratislavaSocketConfig → BratislavaSocketConfig) :
    Bool × BratislavaSocketRegistry :=
  match found with
  | none => (false, r)
  | some config => r.updateConfig (change config)

def connect (socket : SocketPtr) : Bool × BratislavaSocketRegistry :=
  r.modifyConfig (r.getConfigSocket socket) fun config => { config with connected := true }

def disconnectId (deviceId : String) : Bool × BratislavaSocketRegistry :=
  r.modifyConfig (r.getConfigId deviceId) fun config => { config with connected := false }

def disconnectSocket (socket : SocketPtr) : Bool × BratislavaSocketRegistry :=
  r.modifyConfig (r.getConfigSocket socket) fun config => { config with connected := false }

def isConnectedId (deviceId : String) : Bool :=
  match r.getConfigId deviceId with
  | some config => config.connected
  | none => false

def isConnectedSocket (socket : SocketPtr) : Bool :=
  match r.getConfigSocket socket with
  | some config => config.connected
  | none => false

def addIP (deviceId deviceIp : String) : Bool × BratislavaSocketRegistry :=
  r.modifyConfig (r.getConfigId deviceId) fun config => { config with ip := deviceIp }

def getIP (deviceId : String) : Option String := (r.getConfigId deviceId).map fun config => config.ip

def addRemotePort (deviceId : String) (port : Int) : Bool × BratislavaSocketRegistry :=
  if port < 0 then (false, r)
  else r.modifyConfig (r.getConfigId deviceId) fun config => { config with remotePort := port }

def getRemotePort (deviceId : String) : Int :=
  match r.getConfigId deviceId with
  | some config => config.remotePort
  | none => -1

def acquireLocalPort : Int × BratislavaSocketRegistry :=
  if h : r.availableLocalPorts.Nonempty then
    let port := r.availableLocalPorts.min' h
    (port, { r with availableLocalPorts := r.availableLocalPorts.erase port })
  else (-1, r)

def addLocalPort (deviceId : String) : Bool × BratislavaSocketRegistry :=
  let (port, r) := r.acquireLocalPort
  if port ≠ -1 then
    r.modifyConfig (r.getConfigId deviceId) fun config => { config with localPort := port }
  else (false, r)

def getLocalPort (deviceId : String) : Int :=
  match r.getConfigId deviceId with
  | some config => config.localPort
  | none => -1

def releaseLocalPort (port : Int) : Bool × BratislavaSocketRegistry :=
  if minPort ≤ port ∧ port ≤ maxPort then
    (true, { r with availableLocalPorts := insert port r.availableLocalPorts })
  else (false, r)

/-- The common body of the two overloads that look the port up first. -/
def releaseLocalPortOf (found : Option BratislavaSocketConfig) : Bool × BratislavaSocketRegistry :=
  match found with
  | none => (false, r)
  | some config =>
    if config.localPort = -1 then (false, r) else r.releaseLocalPort config.localPort

def releaseLocalPortId (deviceId : String) : Bool × BratislavaSocketRegistry :=
  r.releaseLocalPortOf (r.getConfigId deviceId)

def releaseLocalPortSocket (socket : SocketPtr) : Bool × BratislavaSocketRegistry :=
  r.releaseLocalPortOf (r.getConfigSocket socket)

def add (socket : SocketPtr) (link : BratislavaLink) (newConfig : ConfigPtr) :
    BratislavaSocketRegistry :=
  let r := r.createConfigSocket socket link newConfig
  { r with sockets := r.sockets ++ [socket] }

def remove (socket : SocketPtr) : Bool × BratislavaSocketRegistry :=
  if socket ∈ r.sockets then
    let r := (r.releaseLocalPortSocket socket).2
    let r := (r.disconnectSocket socket).2
    let r := r.removeConfig socket
    (true, { r with sockets := r.sockets.erase socket })
  else (false, r)

end BratislavaSocketRegistry

end SensorLib
