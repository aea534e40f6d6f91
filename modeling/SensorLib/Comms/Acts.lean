import SensorLib.Comms.Types

/-! # What the acts do to runtimes

The bodies of the critical sections are functions on the object. An act on an
object that was destroyed has no outcome, nor has one that waits.
-/

namespace SensorLib.Comms

open Threads Descriptors

def commsMaxLinks : Nat := 20

instance : DecidablePred WorkerState.Live
  | .created | .running => .isTrue trivial
  | .none | .ended | .joined => .isFalse id

namespace CommsRuntime

variable (c : CommsRuntime)

def setWorker (worker : Worker) (state : WorkerState) : CommsRuntime :=
  { c with workers := Function.update c.workers worker state }

@[simp] theorem setWorker_self (worker : Worker) (state : WorkerState) :
    (c.setWorker worker state).workers worker = state := by simp [setWorker]

theorem setWorker_of_ne {worker worker' : Worker} (h : worker' ≠ worker) (state : WorkerState) :
    (c.setWorker worker state).workers worker' = c.workers worker' := by simp [setWorker, h]

/-- The keys that were inserted, one set for each instrument and the keys of the links. -/
def Marked : Discovery → Prop
  | .bluetoothDevice key => key ∈ c.seenBluetoothDevices
  | .wifiDevice key => key ∈ c.seenWifiDevices
  | .link key => key ∈ c.activeLinkKeys

instance : DecidablePred c.Marked
  | .bluetoothDevice key => inferInstanceAs (Decidable (key ∈ c.seenBluetoothDevices))
  | .wifiDevice key => inferInstanceAs (Decidable (key ∈ c.seenWifiDevices))
  | .link key => inferInstanceAs (Decidable (key ∈ c.activeLinkKeys))

/-- The callback that is registered for such a discovery. -/
def slot : Discovery → Option Callback
  | .bluetoothDevice _ => c.callbacks.bluetoothDevice
  | .wifiDevice _ => c.callbacks.wifiDevice
  | .link _ => c.callbacks.linkDiscovered

def insertSeen : Peer → CommsRuntime
  | .bluetooth device =>
    { c with seenBluetoothDevices := insert (Peer.bluetooth device).key c.seenBluetoothDevices }
  | .wifi candidate =>
    { c with seenWifiDevices := insert (Peer.wifi candidate).key c.seenWifiDevices }

/-- The section of a scan for one device: the callback to make, and whether to attempt a
handshake. -/
def see (peer : Peer) : (Option Callback × Bool) × CommsRuntime :=
  let deviceCallback := if c.Marked peer.discovery then none else c.slot peer.discovery
  ((deviceCallback, decide (peer.key ∉ c.activeLinkKeys)), c.insertSeen peer)

/-- The section of `publish_link` when the key is new. -/
def pushLink (link : ActiveLink) : CommsRuntime :=
  { c with
    activeLinkKeys := insert link.key c.activeLinkKeys
    activeLinks := c.activeLinks ++ [link] }

/-- What both `register_callback` and `unregister_callback` do. -/
def setCallback (instrumentType : InstrumentType) (callbackType : CallbackType)
    (callback : Option Callback) : ApiStatus × CommsRuntime :=
  match instrumentType with
  | .bluetooth =>
    if callbackType ≠ .deviceDiscovered then (.notSupported, c)
    else (.success, { c with callbacks := { c.callbacks with bluetoothDevice := callback } })
  | .wifi =>
    if callbackType ≠ .deviceDiscovered then (.notSupported, c)
    else (.success, { c with callbacks := { c.callbacks with wifiDevice := callback } })
  | .comms =>
    match callbackType with
    | .linkDiscovered =>
      (.success, { c with callbacks := { c.callbacks with linkDiscovered := callback } })
    | .linkDropped =>
      (.success, { c with callbacks := { c.callbacks with linkDropped := callback } })
    | .deviceDiscovered => (.notSupported, c)
  | _ => (.notSupported, c)

end CommsRuntime

/-- The loop at the end of `discover_links`, with the links that were written. -/
def outputLinks (instrumentType : InstrumentType) :
    List ActiveLink → List ActiveLink → ApiStatus × List ActiveLink
  | [], written => (.success, written)
  | link :: links, written =>
    if instrumentType = .bluetooth ∧ link.link.instrumentType ≠ .bluetooth then
      outputLinks instrumentType links written
    else if instrumentType = .wifi ∧ link.link.instrumentType ≠ .wifi then
      outputLinks instrumentType links written
    else if instrumentType ≠ .comms ∧ instrumentType ≠ .wifi ∧ instrumentType ≠ .bluetooth then
      (.notSupported, written)
    else if commsMaxLinks ≤ written.length then (.success, written)
    else outputLinks instrumentType links (written ++ [link])

def ActiveLink.info (link : ActiveLink) : BratislavaLinkInfo where
  linkID := link.link.linkID
  devID := link.link.devID
  linkType := link.link.linkType

/-- `close`, where it is guarded by the sign of the descriptor. -/
def closeIfOpen (T : Table) (fd : Int) : Table := if 0 ≤ fd then closed fd T else T

namespace CommsState

variable (s : CommsState)

def set (this : RuntimePtr) (c : CommsRuntime) : CommsState :=
  { s with runtimes := s.runtimes.insert this c }

def record (event : Event) : CommsState := { s with log := s.log ++ [event] }

/-- Another runtime holds the port of the server. -/
def Occupied (worker : Worker) : Prop := ∃ x ∈ s.ports, x.1 = worker

instance (worker : Worker) : Decidable (s.Occupied worker) :=
  inferInstanceAs (Decidable (∃ x ∈ s.ports, x.1 = worker))

def workerOf (r : RuntimePtr) (worker : Worker) : WorkerState :=
  ((s.runtimes.lookup r).map fun c => c.workers worker).getD .none

/-- The links that `stop` took out of a runtime, if it has. -/
def drainedOf (r : RuntimePtr) : Option (List ActiveLink) :=
  (s.runtimes.lookup r).bind fun c => c.drained

def execMethod (this : RuntimePtr) (c : CommsRuntime) (e : Choice) :
    (act : RuntimeAct) → Option (act.Answer × CommsState)
  | .begin worker =>
    if c.workers worker = .created then some ((), s.set this (c.setWorker worker .running)) else none
  | .finish worker =>
    if c.workers worker = .running then some ((), s.set this (c.setWorker worker .ended)) else none
  | .isRunning => some (c.running, s)
  | .claimRunning => some (!c.running, s.set this { c with running := true })
  | .stopRunning => some (c.running, s.set this { c with running := false })
  -- The constructor of `std::thread` may throw.
  | .spawn worker =>
    if e.ok then some (true, s.set this (c.setWorker worker .created)) else some (false, s)
  | .joinable worker =>
    some (decide (c.workers worker ≠ .none ∧ c.workers worker ≠ .joined), s)
  | .join worker =>
    if c.workers worker = .ended then some ((), s.set this (c.setWorker worker .joined)) else none
  | .waitForStop => some ((), s)
  | .discoverBluetooth => some (e.devices, s)
  | .discoverWifi => some (e.candidates, s)
  | .see peer => some ((c.see peer).1, s.set this (c.see peer).2)
  | .deviceDiscovered callback peer => some ((), s.record (.deviceDiscovered callback peer))
  | .socket =>
    if Fresh s.sockets e.fd then
      some (e.fd, { s with sockets := if e.fd < 0 then s.sockets else opened s.sockets e.fd })
    else none
  | .setRemote .. | .connect _ | .send _ => some (e.ok, s)
  | .recv _ => some (e.received, s)
  | .close socketFd => some ((), { s with sockets := closed socketFd s.sockets })
  | .publish link =>
    if link.key ∈ c.activeLinkKeys then
      some (none, { s with sockets := closeIfOpen s.sockets link.link.socketFd })
    else some (c.callbacks.linkDiscovered, s.set this (c.pushLink link))
  | .linkDiscovered callback link => some ((), s.record (.linkDiscovered callback link))
  | .drain =>
    some (c.activeLinks.map ActiveLink.info,
      { s.set this { c with
                      activeLinks := []
                      activeLinkKeys := ∅
                      drained := some c.activeLinks } with
        sockets := c.activeLinks.foldl (fun T link => closeIfOpen T link.link.socketFd) s.sockets })
  | .dropCallback => some (c.callbacks.linkDropped, s)
  | .linkDropped callback info => some ((), s.record (.linkDropped callback info))
  | .registerCallback instrumentType callbackType callback =>
    let (status, c') := c.setCallback instrumentType callbackType callback
    some (status, s.set this c')
  | .readLinks instrumentType => some (outputLinks instrumentType c.activeLinks [], s)
  | .openServer _ => some (e.ok, s)
  -- Two sockets may have the UDP port, since both set `SO_REUSEADDR`.
  | .bind worker =>
    if e.ok then
      if worker ≠ .udpServer ∧ s.Occupied worker then none
      else some (true, { s with ports := (worker, this) :: s.ports })
    else some (false, s)
  | .listen _ => some (e.ok, s)
  | .serve _ => some (e.served, s)
  | .closeServer worker => some ((), { s with ports := s.ports.erase (worker, this) })

/-- A new object has an address of its own, so that an old pointer never leads to it. -/
def exec (e : Choice) : (act : CommsAct) → Option (act.Answer × CommsState)
  | .currentRuntime => some (s.gRuntime, s)
  | .newRuntime =>
    some (s.created, { s.set s.created {} with gRuntime := some s.created, created := s.created + 1 })
  | .resetRuntime runtime =>
    if runtime ∈ s.runtimes then
      some ((), { s with runtimes := s.runtimes.erase runtime, gRuntime := none })
    else none
  | .retain => some ((), { s with gRuntimeRefcount := s.gRuntimeRefcount + 1 })
  | .release =>
    if s.gRuntimeRefcount = 0 then some (none, s)
    else if s.gRuntimeRefcount = 1 then
      some (s.gRuntime, { s with gRuntimeRefcount := 0, gRuntime := none })
    else some (none, { s with gRuntimeRefcount := s.gRuntimeRefcount - 1 })
  | .destroy runtime =>
    if runtime ∈ s.runtimes then some ((), { s with runtimes := s.runtimes.erase runtime }) else none
  | .method this act =>
    match s.runtimes.lookup this with
    | some c => s.execMethod this c e act
    | none => none

end CommsState

end SensorLib.Comms
