import SensorLib.Socket.Handles

/-! # What is done with one socket

The adapters work on one socket by acts of its adapter. The functions of the
API put methods of the registry between them. Neither looks at a lock.
-/

namespace SensorLib

open Threads Threads.Prog

/-- Acts of the kind `P` on the adapter of `x`, and the turns of two threads. -/
def ActsOn (P : AdapterAct → Prop) (x : SocketPtr) : SocketAct → Prop
  | .adapter y a => y = x ∧ P a
  | .turn => True
  | _ => False

/-- The acts of `SendConnectionRequest`. -/
def AdapterAct.Requests : AdapterAct → Prop
  | .isConnected | .accessPoint | .attempt .request | .closeRequest | .startIo .request
  | .endIo _ | .receivePort => True
  | _ => False

/-- The acts of `conn`. -/
def AdapterAct.Connects : AdapterAct → Prop
  | .setSockfd _ | .close _ | .socket | .setConnTimeout _ | .setRecvTimeout _ => False
  | _ => True

theorem AdapterAct.Requests.connects {a : AdapterAct} (ha : a.Requests) : a.Connects := by
  cases a <;> trivial

namespace Handles

/-- The acts of the adapter of `x` that the locks in `h` allow, and the turns of two threads. -/
abbrev Uses (h : Locks) (x : SocketPtr) : SocketAct → Prop := ActsOn (MayUse h x) x

/-- With the lock of the socket held for oneself, every act is allowed. -/
theorem mayUse_of_pin {h : Locks} {x : SocketPtr} (hpin : (.sharedBsock x, .exclusive) ∈ h)
    (a : AdapterAct) : MayUse h x a := by
  cases a with
  | startIo | endIo => exact List.mem_map_of_mem (f := Prod.fst) hpin
  | closeRequest => exact hpin
  | _ => trivial

end Handles

open Handles

/-- What the work on a pinned socket is made of. The ids are those that local ports may be
added for. -/
inductive Handles.PinnedBlock (P : AdapterAct → Prop) (x : SocketPtr) (ids : String → Prop) :
    (α : Type) → Program α → Prop
  | only {α : Type} {p : Program α} (hp : p.Only (ActsOn P x)) : PinnedBlock P x ids α p
  | readLink : PinnedBlock P x ids _ (act (.readLink x))
  | hasAdapter : PinnedBlock P x ids _ (act (.hasAdapter x))
  | connect : PinnedBlock P x ids _ (Registry.connect x)
  | disconnect : PinnedBlock P x ids _ (Registry.disconnectSocket x)
  | isConnected : PinnedBlock P x ids _ (Registry.isConnectedSocket x)
  | getRemotePort (id : String) : PinnedBlock P x ids _ (Registry.getRemotePort id)
  | getLocalPort (id : String) : PinnedBlock P x ids _ (Registry.getLocalPort id)
  | addLocalPort (id : String) (hid : ids id) : PinnedBlock P x ids _ (Registry.addLocalPort id)

namespace Handles

variable {P : AdapterAct → Prop} {x : SocketPtr} {ids : String → Prop} {α : Type}

/-! ## Acts of an adapter -/

theorem only_adapterAct (a : AdapterAct) (ha : P a) : (adapterAct x a).Only (ActsOn P x) :=
  only_perform ⟨rfl, ha⟩

theorem only_transfer {channel : Channel} (hstart : P (.startIo channel))
    (hend : ∀ fd, P (.endIo fd)) : (BaseAdapter.transfer x channel).Only (ActsOn P x) :=
  (only_adapterAct (.startIo channel) hstart).bind fun fd => only_adapterAct (.endIo fd) (hend fd)

theorem only_closeSocket {h : Locks} : (BaseAdapter.closeSocket x).Only (Uses h x) := by
  refine (only_adapterAct .sockfd trivial).bind fun sockfd => ?_
  split
  · refine (only_adapterAct .sockfd trivial).bind fun sockfd => ?_
    exact (only_adapterAct (.close sockfd) trivial).bind fun _ =>
      only_adapterAct (.setSockfd (-1)) trivial
  · trivial

theorem only_createSocket {h : Locks} : (BaseAdapter.createSocket x).Only (Uses h x) :=
  (only_adapterAct .socket trivial).bind fun sockfd => only_adapterAct (.setSockfd sockfd) trivial

theorem only_reopen {h : Locks} : (BaseAdapter.reopen x).Only (Uses h x) := by
  refine (only_adapterAct (.setConnected false) trivial).bind fun _ => ?_
  refine only_closeSocket.bind fun _ => only_createSocket.bind fun _ => ?_
  refine (only_adapterAct .sockfd trivial).bind fun sockfd => ?_
  split <;> trivial

theorem only_setConnTimeout {ms : Nat} (hset : P (.setConnTimeout ms)) :
    (BaseAdapter.setConnTimeout x ms).Only (ActsOn P x) :=
  (only_adapterAct (.setConnTimeout ms) hset).bind fun _ => trivial

theorem only_setRecvTimeout {ms : Nat} (hset : P (.setRecvTimeout ms)) (hread : P .isConnected)
    (hconfigure : P .configureForComms) : (BaseAdapter.setRecvTimeout x ms).Only (ActsOn P x) := by
  refine (only_adapterAct (.setRecvTimeout ms) hset).bind fun _ => ?_
  refine (only_adapterAct .isConnected hread).bind fun connected => ?_
  cases connected with
  | true => exact (only_adapterAct .configureForComms hconfigure).bind fun _ => trivial
  | false => trivial

theorem only_requestLoop (hP : ∀ a : AdapterAct, a.Requests → P a) {after : Program Bool}
    (hafter : after.Only (ActsOn P x)) (rounds : Nat) :
    (BaseAdapter.requestLoop x after rounds).Only (ActsOn P x) := by
  induction rounds with
  | zero => exact hafter
  | succ rounds ih =>
    refine (only_adapterAct .isConnected (hP _ trivial)).bind fun connected => ?_
    cases connected with
    | true => exact hafter
    | false =>
      refine (only_adapterAct (.attempt .request) (hP _ trivial)).bind fun attempt => ?_
      cases attempt with
      | expired | unavailableExpired | failed | connected | alreadyConnected => trivial
      | notReady | unavailable => exact ih
      | expiredReady => exact (only_adapterAct .closeRequest (hP _ trivial)).bind fun _ => trivial

theorem only_connectLoop (hattempt : P (.attempt .comms)) (hset : P (.setConnected true))
    (rounds : Nat) : (BaseAdapter.connectLoop x rounds).Only (ActsOn P x) := by
  induction rounds with
  | zero => trivial
  | succ rounds ih =>
    refine (only_adapterAct (.attempt .comms) hattempt).bind fun attempt => ?_
    cases attempt with
    | expired | notReady | expiredReady | alreadyConnected | unavailableExpired | failed =>
      trivial
    | connected => exact only_adapterAct (.setConnected true) hset
    | unavailable => exact ih

theorem only_exchangePorts (hP : ∀ a : AdapterAct, a.Requests → P a) :
    (WifiAdapter.exchangePorts x).Only (ActsOn P x) := by
  have htransfer : (BaseAdapter.transfer x .request).Only (ActsOn P x) :=
    only_transfer (hP _ trivial) fun _ => hP _ trivial
  have hsend : (WifiAdapter.sendRequest x).Only (ActsOn P x) := htransfer.bind fun _ => trivial
  refine hsend.bind fun sent => ?_
  split
  · trivial
  refine hsend.bind fun sent => ?_
  split
  · trivial
  refine hsend.bind fun sent => ?_
  split
  · trivial
  refine htransfer.bind fun received => ?_
  show Only (S := socketSignature) (ActsOn P x) (if received.1 ≤ 0 then _ else _)
  split
  · trivial
  · exact (only_adapterAct .receivePort (hP _ trivial)).bind fun _ => trivial

theorem only_wifiRequest (hP : ∀ a : AdapterAct, a.Requests → P a) :
    (WifiAdapter.sendConnectionRequest x).Only (ActsOn P x) := by
  refine (only_adapterAct .accessPoint (hP _ trivial)).bind fun found => ?_
  cases found with
  | false => trivial
  | true =>
    have hafter : Only (S := socketSignature) (ActsOn P x) (.pure false) := trivial
    refine (only_requestLoop hP hafter maxRetries).bind fun connected => ?_
    cases connected with
    | false => trivial
    | true => exact only_exchangePorts hP

theorem only_bluetoothRequest (hP : ∀ a : AdapterAct, a.Requests → P a) :
    (BluetoothAdapter.sendConnectionRequest x).Only (ActsOn P x) :=
  only_requestLoop hP (only_adapterAct .isConnected (hP _ trivial)) maxRetries

theorem only_disconn {h : Locks} : (BaseAdapter.disconn x).Only (Uses h x) := by
  refine (only_adapterAct .kind trivial).bind fun kind => ?_
  cases kind <;> exact only_reopen

theorem only_interrupt {h : Locks} : (BaseAdapter.interrupt x).Only (Uses h x) :=
  only_disconn.bind fun _ => trivial

/-! ## Work on a pinned socket -/

theorem built_only {p : Program α} (hp : p.Only (ActsOn P x)) : p.Built (PinnedBlock P x ids) :=
  built_block (.only hp)

theorem built_adapterAct (a : AdapterAct) (ha : P a) :
    (adapterAct x a).Built (PinnedBlock P x ids) := built_only (only_adapterAct a ha)

section Connecting

variable (hP : ∀ a : AdapterAct, a.Connects → P a)

include hP

theorem built_finishConn : (BaseAdapter.finishConn x).Built (PinnedBlock P x ids) := by
  refine (built_adapterAct .isConnected (hP _ trivial)).append fun connected => ?_
  cases connected with
  | false => exact .pure _
  | true =>
    refine .bind .connect fun _ => ?_
    exact (built_adapterAct .configureForComms (hP _ trivial)).append fun _ => .pure _

omit hP in
theorem built_setupLocalAddr (id : String) :
    (WifiAdapter.setupLocalAddr id).Built (PinnedBlock P x ids) :=
  .bind (.getLocalPort id) fun _ => .pure _

/-- A Wi-Fi connection to a peer that connects, once the device is known. -/
theorem built_listening (id : String) : Built (PinnedBlock P x ids) (do
    let remotePort ← Registry.getRemotePort id
    adapterAct x (.setRemotePort remotePort)
    WifiAdapter.setupLocalAddr id
    WifiAdapter.listenForPeer x
    BaseAdapter.finishConn x) := by
  refine .bind (.getRemotePort _) fun port => ?_
  refine (built_adapterAct (.setRemotePort port) (hP _ trivial)).append fun _ => ?_
  refine (built_setupLocalAddr id).append fun _ => ?_
  exact (built_adapterAct .listenForPeer (hP _ trivial)).append fun _ => built_finishConn hP

/-- A Wi-Fi connection to a peer that listens, once there is a local port. -/
theorem built_requesting (id : String) : Built (PinnedBlock P x ids) (do
    WifiAdapter.setupLocalAddr id
    if ← WifiAdapter.sendConnectionRequest x then
      WifiAdapter.connectToPeer x
      BaseAdapter.finishConn x
    else Pure.pure (-1)) := by
  refine (built_setupLocalAddr id).append fun _ => ?_
  refine (built_only (only_wifiRequest fun a ha => hP a ha.connects)).append fun sent => ?_
  cases sent with
  | false => exact .pure _
  | true =>
    refine (built_only (only_connectLoop (hP _ trivial) (hP _ trivial) maxRetries)).append ?_
    exact fun _ => built_finishConn hP

theorem built_wifiConn (hids : ∀ id, ids id) (deviceType : WifiDeviceType) :
    (WifiAdapter.conn x deviceType).Built (PinnedBlock P x ids) := by
  refine (built_adapterAct (.setConnected false) (hP _ trivial)).append fun _ => ?_
  refine .bind .readLink fun link => ?_
  cases deviceType with
  | router => exact built_listening hP _
  | adapter => exact .bind (.addLocalPort _ (hids _)) fun _ => built_requesting hP _
  | unknown => exact built_finishConn hP

theorem built_bluetoothConn (isListener : Bool) :
    (BluetoothAdapter.conn x isListener).Built (PinnedBlock P x ids) := by
  refine (built_adapterAct (.setConnected false) (hP _ trivial)).append fun _ => ?_
  refine Built.append (built_only ?_) fun _ => built_finishConn hP
  refine Only.interleave (S := socketSignature) (T := ActsOn P x) trivial ?_ ?_
  · exact (only_bluetoothRequest fun a ha => hP a ha.connects).bind fun _ => trivial
  · cases isListener with
    | true => exact only_adapterAct .listenForPeer (hP _ trivial)
    | false => exact only_connectLoop (hP _ trivial) (hP _ trivial) maxRetries

theorem built_conn (hids : ∀ id, ids id) :
    (BaseAdapter.conn x).Built (PinnedBlock P x ids) := by
  refine (built_adapterAct .kind (hP _ trivial)).append fun kind => ?_
  cases kind with
  | wifi deviceType => exact built_wifiConn hP hids deviceType
  | bluetooth isListener => exact built_bluetoothConn hP isListener

theorem built_connPinned (hids : ∀ id, ids id) :
    (connPinned x).Built (PinnedBlock P x ids) := by
  refine .bind .isConnected fun connected => ?_
  cases connected with
  | true => exact .pure _
  | false => exact (built_conn hP hids).append fun _ => .pure _

end Connecting

variable {h : Locks}

theorem built_sendMessage (hpin : .sharedBsock x ∈ lockNames h) :
    (BaseAdapter.sendMessage x).Built (PinnedBlock (MayUse h x) x ids) := by
  refine .bind .isConnected fun connected => ?_
  cases connected with
  | false => exact .pure _
  | true => exact (built_only (only_transfer hpin fun _ => hpin)).append fun _ => .pure _

theorem built_recvMessage (hpin : .sharedBsock x ∈ lockNames h) :
    (BaseAdapter.recvMessage x).Built (PinnedBlock (MayUse h x) x ids) := by
  refine .bind .isConnected fun connected => ?_
  cases connected with
  | false => exact .pure _
  | true =>
    refine (built_only (only_transfer hpin fun _ => hpin)).append fun received => ?_
    show Built (S := socketSignature) (PinnedBlock (MayUse h x) x ids)
      (if received.1 < 0 then _ else _)
    split <;> exact .pure _

theorem built_send (hpin : .sharedBsock x ∈ lockNames h) :
    (BaseAdapter.send x).Built (PinnedBlock (MayUse h x) x ids) := by
  refine (built_adapterAct .kind trivial).append fun kind => ?_
  cases kind <;> exact built_sendMessage hpin

theorem built_recv (hpin : .sharedBsock x ∈ lockNames h) :
    (BaseAdapter.recv x).Built (PinnedBlock (MayUse h x) x ids) := by
  refine (built_adapterAct .kind trivial).append fun kind => ?_
  cases kind <;> exact built_recvMessage hpin

theorem built_disconnectPinned :
    (disconnectPinned x).Built (PinnedBlock (MayUse h x) x ids) := by
  refine .bind .disconnect fun done => ?_
  cases done with
  | true => exact (built_only only_disconn).append fun _ => .pure _
  | false => exact .pure _

theorem built_withAdapter {body : Program Status} (hbody : body.Built (PinnedBlock P x ids)) :
    (withAdapter x body).Built (PinnedBlock P x ids) := by
  refine .bind .hasAdapter fun found => ?_
  cases found with
  | true => exact hbody
  | false => exact .pure _

theorem built_ifConnected {body : Program Status} (hbody : body.Built (PinnedBlock P x ids)) :
    (ifConnected x body).Built (PinnedBlock P x ids) := by
  refine .bind .isConnected fun connected => ?_
  cases connected with
  | true => exact hbody
  | false => exact .pure _

theorem built_setTimeout {set : SocketPtr → Program Int} (hset : (set x).Only (ActsOn P x)) :
    (setTimeout set x).Built (PinnedBlock P x ids) :=
  (built_only hset).append fun _ => .pure _

end Handles

end SensorLib
