import SensorLib.Base.Descriptors
import SensorLib.Registry.Types
import SensorLib.Threads.World

/-! # Runtimes, links and what their threads share

The background runtime behind the instrument API. A critical section under
`mutex_` of a runtime is one act, and so is every system call. The mutex of the
global pointer is a lock of its own, since whole functions run under it.
Timeouts, the configuration and the contents of the servers' messages are left
out.
-/

namespace SensorLib.Comms

open Threads

abbrev RuntimePtr := Nat

/-- A function pointer. -/
abbrev Callback := Nat

inductive ApiStatus
  | success
  | error
  | notSupported
  deriving DecidableEq, Repr

inductive CallbackType
  | deviceDiscovered
  | linkDiscovered
  | linkDropped
  deriving DecidableEq, Repr

inductive LinkType
  | blue
  | green
  deriving DecidableEq, Repr

/-- A link with the fields that the socket registry does not read. -/
structure CommsLink extends BratislavaLink where
  devID : String
  linkType : LinkType
  socketFd : Int
  deriving DecidableEq, Repr

structure BratislavaLinkInfo where
  linkID : String
  devID : String
  linkType : LinkType
  deriving DecidableEq, Repr

structure WifiCandidate where
  device : WifiDeviceInfoBase
  interfaceName : String
  ipAddress : String
  deriving DecidableEq, Repr

structure ActiveLink where
  link : CommsLink
  key : String
  deriving DecidableEq, Repr

structure CallbackState where
  bluetoothDevice : Option Callback := none
  wifiDevice : Option Callback := none
  linkDiscovered : Option Callback := none
  linkDropped : Option Callback := none
  deriving DecidableEq, Repr

/-- What a scan comes across. -/
inductive Peer
  | bluetooth (device : BluetoothDeviceInfoBase)
  | wifi (candidate : WifiCandidate)
  deriving DecidableEq, Repr

/-- What a callback is made for: a device or a link, by its key. -/
inductive Discovery
  | bluetoothDevice (key : String)
  | wifiDevice (key : String)
  | link (key : String)
  deriving DecidableEq, Repr

def Peer.key : Peer → String
  | .bluetooth device => "bt|" ++ device.macAddress
  | .wifi candidate => "wifi|" ++ candidate.device.macAddress

def Peer.discovery (peer : Peer) : Discovery :=
  match peer with
  | .bluetooth _ => .bluetoothDevice peer.key
  | .wifi _ => .wifiDevice peer.key

inductive Event
  | deviceDiscovered (callback : Callback) (peer : Peer)
  | linkDiscovered (callback : Callback) (link : ActiveLink)
  | linkDropped (callback : Callback) (info : BratislavaLinkInfo)
  deriving DecidableEq, Repr

def Event.discovery : Event → Option Discovery
  | .deviceDiscovered _ peer => some peer.discovery
  | .linkDiscovered _ link => some (.link link.key)
  | .linkDropped .. => none

/-- The threads that a runtime starts. -/
inductive Worker
  | udpServer
  | bluetoothServer
  | discovery
  deriving DecidableEq, Repr

/-- The states of a `std::thread` member and of the thread behind it. -/
inductive WorkerState
  | none
  | created
  | running
  | ended
  | joined
  deriving DecidableEq, Repr

/-- The thread exists, and its function has not returned. -/
def WorkerState.Live : WorkerState → Prop
  | .created | .running => True
  | .none | .ended | .joined => False

/-- The last field is history: the links that `stop` took out. -/
structure CommsRuntime where
  running : Bool := false
  workers : Worker → WorkerState := fun _ => .none
  callbacks : CallbackState := {}
  activeLinks : List ActiveLink := []
  activeLinkKeys : Finset String := ∅
  seenBluetoothDevices : Finset String := ∅
  seenWifiDevices : Finset String := ∅
  drained : Option (List ActiveLink) := none

/-- The state of the process. The last two fields are history: the callbacks that were made,
and how many runtimes were. The sockets of the servers are not among `sockets`; `ports` are
those that they hold. -/
structure CommsState where
  runtimes : UnorderedMap RuntimePtr CommsRuntime
  gRuntime : Option RuntimePtr
  gRuntimeRefcount : Nat
  sockets : Descriptors.Table
  ports : List (Worker × RuntimePtr)
  log : List Event
  created : Nat

/-- How one round of a server loop ends. -/
inductive Served
  | again
  | failed
  deriving DecidableEq, Repr

/-- What the environment chooses in a step. -/
structure Choice where
  ok : Bool := true
  fd : Int := -1
  devices : Option (List BluetoothDeviceInfoBase) := some []
  candidates : List WifiCandidate := []
  received : Option String := some "Hello Back from "
  served : Served := .again

inductive Mutex
  | gRuntime
  deriving DecidableEq, Repr

/-- The acts of a runtime's methods. -/
inductive RuntimeAct
  | begin (worker : Worker)
  | finish (worker : Worker)
  | isRunning
  | claimRunning
  | stopRunning
  | spawn (worker : Worker)
  | joinable (worker : Worker)
  | join (worker : Worker)
  | waitForStop
  | discoverBluetooth
  | discoverWifi
  | see (peer : Peer)
  | deviceDiscovered (callback : Callback) (peer : Peer)
  | socket
  | setRemote (socketFd : Int) (address : String)
  | connect (socketFd : Int)
  | send (socketFd : Int)
  | recv (socketFd : Int)
  | close (socketFd : Int)
  | publish (link : ActiveLink)
  | linkDiscovered (callback : Callback) (link : ActiveLink)
  | drain
  | dropCallback
  | linkDropped (callback : Callback) (info : BratislavaLinkInfo)
  | registerCallback (instrumentType : InstrumentType) (callbackType : CallbackType)
      (callback : Option Callback)
  | readLinks (instrumentType : InstrumentType)
  | openServer (worker : Worker)
  | bind (worker : Worker)
  | listen (worker : Worker)
  | serve (worker : Worker)
  | closeServer (worker : Worker)
  deriving DecidableEq

@[reducible] def RuntimeAct.Answer : RuntimeAct → Type
  | .isRunning | .claimRunning | .stopRunning | .spawn _ | .joinable _ | .setRemote .. | .connect _
  | .send _ | .openServer _ | .bind _ | .listen _ => Bool
  | .discoverBluetooth => Option (List BluetoothDeviceInfoBase)
  | .discoverWifi => List WifiCandidate
  | .see _ => Option Callback × Bool
  | .socket => Int
  | .recv _ => Option String
  | .publish _ | .dropCallback => Option Callback
  | .drain => List BratislavaLinkInfo
  | .registerCallback .. => ApiStatus
  | .readLinks _ => ApiStatus × List ActiveLink
  | .serve _ => Served
  | .begin _ | .finish _ | .join _ | .waitForStop | .deviceDiscovered .. | .close _
  | .linkDiscovered .. | .linkDropped .. | .closeServer _ => Unit

/-- A method runs on an object, which its acts name. -/
inductive CommsAct
  | currentRuntime
  | newRuntime
  | resetRuntime (runtime : RuntimePtr)
  | retain
  | release
  | destroy (runtime : RuntimePtr)
  | method (this : RuntimePtr) (act : RuntimeAct)
  deriving DecidableEq

@[reducible] def CommsAct.Answer : CommsAct → Type
  | .currentRuntime | .release => Option RuntimePtr
  | .newRuntime => RuntimePtr
  | .resetRuntime _ | .retain | .destroy _ => Unit
  | .method _ act => act.Answer

/-- The functions that threads run: those of the API, those of the runtime's own threads, and
methods of a runtime, which may also be called on their own. -/
inductive Call
  | commsRuntimeInitialize (config : Bool)
  | commsRuntimeShutdown
  | commsRuntimeRegisterCallback (instrumentType : InstrumentType) (callbackType : CallbackType)
      (inputData : Option (Option Callback))
  | commsRuntimeUnregisterCallback (instrumentType : InstrumentType) (callbackType : CallbackType)
  | commsRuntimeDiscoverLinks (instrumentType : InstrumentType) (output : Bool)
  | udpServerLoop (this : RuntimePtr)
  | bluetoothServerLoop (this : RuntimePtr)
  | discoveryLoop (this : RuntimePtr)
  | serverRounds (this : RuntimePtr) (worker : Worker)
  | discoveryRounds (this : RuntimePtr)
  | discoverLinks (this : RuntimePtr) (instrumentType : InstrumentType) (output : Bool)
  | registerCallback (this : RuntimePtr) (instrumentType : InstrumentType)
      (callbackType : CallbackType) (inputData : Option (Option Callback))
  | unregisterCallback (this : RuntimePtr) (instrumentType : InstrumentType)
      (callbackType : CallbackType)
  | stop (this : RuntimePtr)
  deriving DecidableEq, Repr

inductive CallResult
  | status (status : ApiStatus)
  | links (status : ApiStatus) (links : List ActiveLink)
  | done
  deriving DecidableEq, Repr

@[reducible] def commsSignature : Signature where
  Lock := Mutex
  Act := CommsAct
  Answer := CommsAct.Answer
  Label := Call
  Result := CallResult

abbrev Program (α : Type) := Prog commsSignature α

def act (a : CommsAct) : Program a.Answer := Prog.perform (S := commsSignature) a

def method (this : RuntimePtr) (a : RuntimeAct) : Program a.Answer := act (.method this a)

/-- A section under `g_runtime_mutex`. -/
def locked {α : Type} (p : Program α) : Program α :=
  Prog.locked (S := commsSignature) .gRuntime .exclusive p

def invoke (f : Call) : Program CallResult := Prog.invoke (S := commsSignature) f

end SensorLib.Comms
