import SensorLib.Comms.Acts

/-! # The methods of `CommsRuntime` and the functions that call them -/

namespace SensorLib.Comms

open Threads

def kHelloPayload : String := "Hello Pi World"

def kReplyPrefix : String := "Hello Back from "

def startsWithReplyPrefix (payload : String) : Bool :=
  kReplyPrefix.toList.isPrefixOf payload.toList

def makeLinkId (pre macAddress : String) : String :=
  String.ofList ((pre.toList ++ macAddress.toList.filter (· ≠ ':')).take 19)

def wifiLink (candidate : WifiCandidate) (socketFd : Int) : ActiveLink where
  link :=
    { linkID := makeLinkId "wifi" candidate.device.macAddress
      instrumentType := .wifi
      bluetoothDeviceInfo := ⟨""⟩
      wifiDeviceInfo := candidate.device
      devID := candidate.device.macAddress
      linkType := .blue
      socketFd }
  key := (Peer.wifi candidate).key

def bluetoothLink (device : BluetoothDeviceInfoBase) (socketFd : Int) : ActiveLink where
  link :=
    { linkID := makeLinkId "bt" device.macAddress
      instrumentType := .bluetooth
      bluetoothDeviceInfo := device
      wifiDeviceInfo := ⟨""⟩
      devID := device.macAddress
      linkType := .green
      socketFd }
  key := (Peer.bluetooth device).key

namespace CommsRuntime

variable (this : RuntimePtr)

/-- The exits of a handshake that failed. -/
def giveUp (socketFd : Int) : Program (Option ActiveLink) := do
  method this (.close socketFd)
  pure none

/-- The two handshakes differ in the address they connect to and in the link they fill in. -/
def attemptHandshake (address : String) (link : Int → ActiveLink) :
    Program (Option ActiveLink) := do
  let socketFd ← method this .socket
  if socketFd < 0 then pure none
  else if !(← method this (.setRemote socketFd address)) then giveUp this socketFd
  else if !(← method this (.connect socketFd)) then giveUp this socketFd
  else if !(← method this (.send socketFd)) then giveUp this socketFd
  else
    match ← method this (.recv socketFd) with
    | none => giveUp this socketFd
    | some buffer =>
      if startsWithReplyPrefix buffer then pure (some (link socketFd)) else giveUp this socketFd

def attemptWifiHandshake (candidate : WifiCandidate) : Program (Option ActiveLink) :=
  attemptHandshake this candidate.ipAddress (wifiLink candidate)

def attemptBluetoothHandshake (device : BluetoothDeviceInfoBase) : Program (Option ActiveLink) :=
  attemptHandshake this device.macAddress (bluetoothLink device)

def attempt : Peer → Program (Option ActiveLink)
  | .wifi candidate => attemptWifiHandshake this candidate
  | .bluetooth device => attemptBluetoothHandshake this device

def publishLink (activeLink : ActiveLink) : Program Unit := do
  match ← method this (.publish activeLink) with
  | some callback => method this (.linkDiscovered callback activeLink)
  | none => pure ()

/-- The callback for a device, if there is one to make. -/
def announce (deviceCallback : Option Callback) (peer : Peer) : Program Unit :=
  match deviceCallback with
  | some callback => method this (.deviceDiscovered callback peer)
  | none => pure ()

/-- A handshake, if one should be attempted. -/
def tryPeer (shouldAttempt : Bool) (peer : Peer) : Program Unit :=
  if !shouldAttempt then pure ()
  else do
    match ← attempt this peer with
    | some activeLink => publishLink this activeLink
    | none => pure ()

/-- The loop of a scan. -/
def scanPeers : List Peer → Program Unit
  | [] => pure ()
  | peer :: peers => do
    let (deviceCallback, shouldAttempt) ← method this (.see peer)
    announce this deviceCallback peer
    tryPeer this shouldAttempt peer
    scanPeers peers

def scanBluetoothLinks : Program Unit := do
  match ← method this .discoverBluetooth with
  | some devices => scanPeers this (devices.map .bluetooth)
  | none => pure ()

def scanWifiLinks : Program Unit := do
  let candidates ← method this .discoverWifi
  scanPeers this (candidates.map .wifi)

def scanOnce : Program Unit := do
  scanBluetoothLinks this
  scanWifiLinks this

def discoverLinks (instrumentType : InstrumentType) (output : Bool) :
    Program (ApiStatus × List ActiveLink) :=
  if !output then pure (.error, [])
  else do
    scanOnce this
    method this (.readLinks instrumentType)

def registerCallback (instrumentType : InstrumentType) (callbackType : CallbackType) :
    Option (Option Callback) → Program ApiStatus
  | none => pure .error
  | some callback => method this (.registerCallback instrumentType callbackType callback)

def unregisterCallback (instrumentType : InstrumentType) (callbackType : CallbackType) :
    Program ApiStatus :=
  method this (.registerCallback instrumentType callbackType none)

/-- The `while` loop of `discovery_loop`. -/
def discoveryRounds : Program CallResult := do
  if ← method this .isRunning then
    scanOnce this
    method this .waitForStop
    invoke (.discoveryRounds this)
  else pure .done

def discoveryLoop : Program CallResult := do
  method this (.begin .discovery)
  let _ ← invoke (.discoveryRounds this)
  method this (.finish .discovery)
  pure .done

/-- The `while` loop of a server. A round waits for a message and answers it. -/
def serverRounds (worker : Worker) : Program CallResult := do
  if ← method this .isRunning then
    match ← method this (.serve worker) with
    | .again => invoke (.serverRounds this worker)
    | .failed => pure .done
  else pure .done

/-- Only the Bluetooth server calls `listen`. -/
def listenServer : Worker → Program Bool
  | .bluetoothServer => method this (.listen .bluetoothServer)
  | _ => pure true

/-- A server from its `socket` to its `close`. -/
def runServer (worker : Worker) : Program Unit := do
  if ← method this (.openServer worker) then
    if !(← method this (.bind worker)) then method this (.closeServer worker)
    else if !(← listenServer this worker) then method this (.closeServer worker)
    else
      let _ ← invoke (.serverRounds this worker)
      method this (.closeServer worker)
  else pure ()

def udpServerLoop : Program CallResult := do
  method this (.begin .udpServer)
  runServer this .udpServer
  method this (.finish .udpServer)
  pure .done

def bluetoothServerLoop : Program CallResult := do
  method this (.begin .bluetoothServer)
  runServer this .bluetoothServer
  method this (.finish .bluetoothServer)
  pure .done

def joinWorkers : List Worker → Program Unit
  | [] => pure ()
  | worker :: workers => do
    if ← method this (.joinable worker) then method this (.join worker)
    joinWorkers workers

def dropLinks (callback : Callback) : List BratislavaLinkInfo → Program Unit
  | [] => pure ()
  | info :: dropped => do
    method this (.linkDropped callback info)
    dropLinks callback dropped

def announceDropped (dropCallback : Option Callback) (dropped : List BratislavaLinkInfo) :
    Program Unit :=
  match dropCallback with
  | some callback => dropLinks this callback dropped
  | none => pure ()

/-- Both branches of the source join the same threads. -/
def stop : Program Unit := do
  let _ ← method this .stopRunning
  joinWorkers this [.udpServer, .bluetoothServer, .discovery]
  let dropped ← method this .drain
  let dropCallback ← method this .dropCallback
  announceDropped this dropCallback dropped

/-- The threads in the order of their creation, as long as no constructor throws. -/
def spawnWorkers : List Worker → Program Bool
  | [] => pure true
  | worker :: workers => do
    if ← method this (.spawn worker) then spawnWorkers workers else pure false

def start : Program ApiStatus := do
  if !(← method this .claimRunning) then pure .success
  else if ← spawnWorkers this [.udpServer, .bluetoothServer, .discovery] then pure .success
  else
    let _ ← method this .stopRunning
    stop this
    pure .error

end CommsRuntime

open CommsRuntime

def getRuntime : Program (Option RuntimePtr) := locked (act .currentRuntime)

def commsRuntimeInitialize (config : Bool) : Program ApiStatus :=
  if !config then pure .error
  else locked do
    match ← act .currentRuntime with
    | none => do
      let runtime ← act .newRuntime
      let status ← start runtime
      if status ≠ .success then
        act (.resetRuntime runtime)
        pure status
      else
        act .retain
        pure .success
    | some _ => do
      act .retain
      pure .success

def commsRuntimeShutdown : Program Unit := do
  match ← locked (act .release) with
  | some runtimeToStop =>
    stop runtimeToStop
    act (.destroy runtimeToStop)
  | none => pure ()

def commsRuntimeRegisterCallback (instrumentType : InstrumentType) (callbackType : CallbackType)
    (inputData : Option (Option Callback)) : Program ApiStatus := do
  match ← getRuntime with
  | none => pure .error
  | some runtime => registerCallback runtime instrumentType callbackType inputData

def commsRuntimeUnregisterCallback (instrumentType : InstrumentType)
    (callbackType : CallbackType) : Program ApiStatus := do
  match ← getRuntime with
  | none => pure .error
  | some runtime => unregisterCallback runtime instrumentType callbackType

def commsRuntimeDiscoverLinks (instrumentType : InstrumentType) (output : Bool) :
    Program (ApiStatus × List ActiveLink) := do
  match ← getRuntime with
  | none => pure (.error, [])
  | some runtime => discoverLinks runtime instrumentType output

def Call.body : Call → Program CallResult
  | .commsRuntimeInitialize config => do return .status (← Comms.commsRuntimeInitialize config)
  | .commsRuntimeShutdown => do
    Comms.commsRuntimeShutdown
    return .done
  | .commsRuntimeRegisterCallback instrumentType callbackType inputData => do
    return .status (← Comms.commsRuntimeRegisterCallback instrumentType callbackType inputData)
  | .commsRuntimeUnregisterCallback instrumentType callbackType => do
    return .status (← Comms.commsRuntimeUnregisterCallback instrumentType callbackType)
  | .commsRuntimeDiscoverLinks instrumentType output => do
    let (status, links) ← Comms.commsRuntimeDiscoverLinks instrumentType output
    return .links status links
  | .udpServerLoop this => CommsRuntime.udpServerLoop this
  | .bluetoothServerLoop this => CommsRuntime.bluetoothServerLoop this
  | .discoveryLoop this => CommsRuntime.discoveryLoop this
  | .serverRounds this worker => CommsRuntime.serverRounds this worker
  | .discoveryRounds this => CommsRuntime.discoveryRounds this
  | .discoverLinks this instrumentType output => do
    let (status, links) ← CommsRuntime.discoverLinks this instrumentType output
    return .links status links
  | .registerCallback this instrumentType callbackType inputData => do
    return .status (← CommsRuntime.registerCallback this instrumentType callbackType inputData)
  | .unregisterCallback this instrumentType callbackType => do
    return .status (← CommsRuntime.unregisterCallback this instrumentType callbackType)
  | .stop this => do
    CommsRuntime.stop this
    return .done

/-- The threads of a process that uses the library. -/
@[reducible] def commsSystem : System commsSignature where
  State := CommsState
  Env := Choice
  exec act e s := s.exec e act
  body := Call.body
  reentrant _ := false

/-- The runtime that a thread is about to run on, and its next act there. -/
def nextMethod (w : World commsSystem) (t : Tid) : Option (RuntimePtr × RuntimeAct) :=
  match w.thread t with
  | some (_, .act (.method this a) _) => some (this, a)
  | _ => none

theorem nextMethod_iff {w : World commsSystem} {t : Tid} {this : RuntimePtr} {a : RuntimeAct} :
    nextMethod w t = some (this, a) ↔ ∃ f k, w.thread t = some (f, .act (.method this a) k) := by
  unfold nextMethod
  constructor
  · intro h
    split at h
    · rename_i f this' a' k hthread
      cases h
      exact ⟨f, k, hthread⟩
    · cases h
  · rintro ⟨f, k, hthread⟩
    simp only [hthread]

end SensorLib.Comms
