import SensorLib.Registry.Methods
import SensorLib.Threads.World

/-! # Sockets, adapters and what their threads share

The heap objects behind the handles, the descriptors that are open, and the
acts of the code on them. One act is one access that another thread can
come before or after. Buffers, log lines and telemetry are left out, and so
are the addresses an adapter keeps for the system calls it makes.
-/

namespace SensorLib

open Threads

inductive Mutex
  | bsockDeletion
  | bsockCreation
  | sharedBsock (bsock : SocketPtr)
  | recursive
  | sharedRegistry
  | sharedConfig
  | ports
  deriving DecidableEq, Repr

inductive WifiDeviceType
  | unknown
  | adapter
  | router
  deriving DecidableEq, Repr

/-- Which class of adapter an object is, with the member that decides how it connects. -/
inductive AdapterKind
  | wifi (deviceType : WifiDeviceType)
  | bluetooth (isListener : Bool)
  deriving DecidableEq, Repr

def defaultConnTimeoutMs : Nat := 10000

def defaultRecvTimeoutMs : Nat := 5000

structure Adapter where
  kind : AdapterKind
  sockfd : Int := -1
  sockfdRequest : Int := -1
  sockfdListen : Int := -1
  connected : Bool := false
  remotePort : Int := -1
  connTimeout : Nat := defaultConnTimeoutMs
  recvTimeout : Nat := defaultRecvTimeoutMs
  deriving DecidableEq, Repr

/-- A `BaseAdapter*`. After `delete` it is set to an address that is no object. -/
inductive AdapterSlot
  | null
  | object (adapter : Adapter)
  | dangling
  deriving DecidableEq, Repr

structure BratislavaSocket where
  link : BratislavaLink
  adapter : AdapterSlot
  deriving DecidableEq, Repr

inductive Errno
  | EINVAL
  | EIDRM
  | EPIPE
  | ETIMEDOUT
  | EAGAIN
  | EWOULDBLOCK
  | other
  deriving DecidableEq, Repr

/-- How one round of a connection loop goes: which of its tests on time, readiness and
`connect` comes out first. -/
inductive Attempt
  | expired
  | notReady
  | expiredReady
  | connected
  | alreadyConnected
  | unavailable
  | unavailableExpired
  | failed
  deriving DecidableEq, Repr

/-- What threads share. The last three fields are history: the addresses that have been
allocated, the handles taken out of the registry and the handles deleted. -/
structure SharedState where
  registry : BratislavaSocketRegistry
  heap : UnorderedMap SocketPtr BratislavaSocket
  openFds : List Int
  used : List SocketPtr
  removed : List SocketPtr
  deleted : List SocketPtr

/-- What the environment chooses in a step. A step uses the fields it needs. -/
structure Choice where
  address : Nat := 0
  sockfd : Int := -1
  sockfdRequest : Int := -1
  sockfdListen : Int := -1
  deviceType : WifiDeviceType := .router
  isListener : Bool := false
  attempt : Attempt := .failed
  success : Bool := true
  turn : Bool := true
  port : Int := 0
  status : Int := 0
  errno : Errno := .other

/-- Which of its descriptors an adapter connects, sends or receives on. -/
inductive Channel
  | comms
  | request
  deriving DecidableEq, Repr

/-- The acts of an adapter's methods. -/
inductive AdapterAct
  | kind
  | isConnected
  | setConnected (connected : Bool)
  | setRemotePort (port : Int)
  | sockfd
  | setSockfd (fd : Int)
  | close (fd : Int)
  | socket
  | closeRequest
  | accessPoint
  | attempt (channel : Channel)
  | listenForPeer
  | startIo (channel : Channel)
  | endIo (fd : Int)
  | receivePort
  | configureForComms
  | setConnTimeout (milliseconds : Nat)
  | setRecvTimeout (milliseconds : Nat)
  deriving DecidableEq, Repr

@[reducible] def AdapterAct.Answer : AdapterAct → Type
  | .kind => AdapterKind
  | .isConnected | .accessPoint => Bool
  | .sockfd | .socket | .startIo _ | .receivePort => Int
  | .attempt _ => Attempt
  | .endIo _ => Int × Errno
  | .setConnected _ | .setRemotePort _ | .setSockfd _ | .close _ | .closeRequest
  | .listenForPeer | .configureForComms | .setConnTimeout _ | .setRecvTimeout _ => Unit

inductive SocketAct
  | findSocket (bsock : SocketPtr)
  | lastSocket
  | pushSocket (bsock : SocketPtr)
  | eraseSocket (bsock : SocketPtr)
  | getConfigSocket (bsock : SocketPtr)
  | getConfigId (deviceId : String)
  | updateConfig (config : BratislavaSocketConfig)
  | createConfigSocket (bsock : SocketPtr) (link : BratislavaLink)
  | createConfigId (deviceId : String)
  | removeConfig (bsock : SocketPtr)
  | removeUnusedConfig (deviceId : String)
  | acquireLocalPort
  | releaseLocalPort (port : Int)
  | newSocket (link : BratislavaLink)
  | readLink (bsock : SocketPtr)
  | hasAdapter (bsock : SocketPtr)
  | adapter (bsock : SocketPtr) (act : AdapterAct)
  | deleteAdapter (bsock : SocketPtr)
  | deleteSocket (bsock : SocketPtr)
  | turn
  deriving DecidableEq

@[reducible] def SocketAct.Answer : SocketAct → Type
  | .findSocket _ | .updateConfig _ | .releaseLocalPort _ | .hasAdapter _ | .turn => Bool
  | .lastSocket | .newSocket _ => Option SocketPtr
  | .getConfigSocket _ | .getConfigId _ => Option BratislavaSocketConfig
  | .acquireLocalPort => Int
  | .readLink _ => BratislavaLink
  | .adapter _ act => act.Answer
  | .pushSocket _ | .eraseSocket _ | .createConfigSocket .. | .createConfigId _
  | .removeConfig _ | .removeUnusedConfig _ | .deleteAdapter _ | .deleteSocket _ => Unit

/-- The methods of an adapter that take part in its life. -/
inductive AdapterMethod
  | conn
  | disconn
  | setConnTimeout (milliseconds : Nat)
  | setRecvTimeout (milliseconds : Nat)
  | destructor
  deriving DecidableEq, Repr

/-- The entry points that threads call: the functions of the API, and the methods of the
registry and of an adapter that may also be called on their own. -/
inductive Call
  | bratislavaSocket (link : BratislavaLink)
  | bratislavaConn (bsock : Option SocketPtr)
  | bratislavaSend (bsock : Option SocketPtr)
  | bratislavaLinkSend (link : BratislavaLink)
  | bratislavaRecv (bsock : Option SocketPtr)
  | bratislavaLinkRecv (link : BratislavaLink)
  | bratislavaConnTimeout (bsock : Option SocketPtr) (milliseconds : Nat)
  | bratislavaRecvTimeout (bsock : Option SocketPtr) (milliseconds : Nat)
  | bratislavaDestroy (bsock : Option SocketPtr)
  | bratislavaDisconnect (bsock : Option SocketPtr)
  | cleanup
  | cleanupLoop
  | add (bsock : SocketPtr)
  | remove (bsock : SocketPtr)
  | createConfig (deviceId : String)
  | removeUnusedConfig (deviceId : String)
  | addIP (deviceId deviceIp : String)
  | addRemotePort (deviceId : String) (port : Int)
  | connect (bsock : SocketPtr)
  | disconnectSocket (bsock : SocketPtr)
  | disconnectId (deviceId : String)
  | method (bsock : SocketPtr) (method : AdapterMethod)
  deriving DecidableEq, Repr

/-- An `int` result, with the `errno` that the code itself sets, if it sets one. -/
structure Status where
  value : Int
  errno : Option Errno := none
  deriving DecidableEq, Repr

inductive CallResult
  | handle (bsock : Option SocketPtr)
  | status (status : Status)
  | flag (value : Bool)
  | done
  deriving DecidableEq, Repr

@[reducible] def socketSignature : Signature where
  Lock := Mutex
  Act := SocketAct
  Answer := SocketAct.Answer
  Label := Call
  Result := CallResult

abbrev Program (α : Type) := Prog socketSignature α

/-- One act, and its answer. -/
def act (a : SocketAct) : Program a.Answer := Prog.perform (S := socketSignature) a

def adapterAct (bsock : SocketPtr) (a : AdapterAct) : Program a.Answer :=
  act (.adapter bsock a)

def lock (l : Mutex) (m : Mode) : Program Unit := .lock (S := socketSignature) l m (.pure ())

def unlock (l : Mutex) (m : Mode) : Program Unit := .unlock (S := socketSignature) l m (.pure ())

/-- The scope of a lock guard. -/
def locked {α : Type} (l : Mutex) (m : Mode) (p : Program α) : Program α :=
  Prog.locked (S := socketSignature) l m p

end SensorLib
