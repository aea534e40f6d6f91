import SensorLib.Base.Lookup
import SensorLib.Socket.Types

/-! # What the acts do to the shared state

An act that needs an object that is not there, or a choice that the environment
cannot make, has no outcome.
-/

namespace SensorLib

/-- What `socket` and `accept` may return: an error, or a descriptor that is not open. -/
def FreshFd (openFds : List Int) (fd : Int) : Prop := fd = -1 ∨ 0 ≤ fd ∧ fd ∉ openFds

instance (openFds : List Int) (fd : Int) : Decidable (FreshFd openFds fd) :=
  inferInstanceAs (Decidable (fd = -1 ∨ 0 ≤ fd ∧ fd ∉ openFds))

def openFd (openFds : List Int) (fd : Int) : List Int :=
  if fd = -1 then openFds else fd :: openFds

theorem mem_openFd {fds : List Int} {fd n : Int} (h : n ∈ fds) : n ∈ openFd fds fd := by
  unfold openFd
  split
  · exact h
  · exact List.mem_cons_of_mem _ h

theorem mem_removeAll {fds fds' : List Int} {n : Int} :
    n ∈ fds.removeAll fds' ↔ n ∈ fds ∧ n ∉ fds' := by
  simp [List.removeAll]

namespace Adapter

variable (a : Adapter)

def channel : Channel → Int
  | .comms => a.sockfd
  | .request => a.sockfdRequest

/-- The descriptors that an act closes. -/
def closedBy : AdapterAct → List Int
  | .close fd => [fd]
  | .closeRequest => [a.sockfdRequest]
  | _ => []

/-- The descriptors that `CloseSocket` closes where nobody else has the adapter. -/
def commsToClose : List Int := if 0 ≤ a.sockfd then [a.sockfd] else []

/-- The descriptors that the destructor closes. -/
def closedByDelete : List Int := a.sockfdRequest :: a.sockfdListen :: a.commsToClose

/-- The answer, the adapter and the open descriptors after an act. -/
def exec (openFds : List Int) (e : Choice) :
    (act : AdapterAct) → Option (act.Answer × Adapter × List Int)
  | .kind => some (a.kind, a, openFds)
  | .isConnected => some (a.connected, a, openFds)
  | .setConnected connected => some ((), { a with connected }, openFds)
  | .setRemotePort port => some ((), { a with remotePort := port }, openFds)
  | .sockfd => some (a.sockfd, a, openFds)
  | .setSockfd sockfd => some ((), { a with sockfd }, openFds)
  | .close fd => some ((), a, openFds.removeAll (a.closedBy (.close fd)))
  | .socket =>
    if FreshFd openFds e.sockfd then some (e.sockfd, a, openFd openFds e.sockfd) else none
  -- The member keeps the number of the descriptor that is closed here.
  | .closeRequest => some ((), a, openFds.removeAll (a.closedBy .closeRequest))
  | .accessPoint => some (e.success, a, openFds)
  -- `poll` reports no descriptor ready that is not open.
  | .attempt channel =>
    if a.channel channel ∈ openFds ∨ e.attempt = .expired ∨ e.attempt = .notReady then
      some (e.attempt, a, openFds)
    else none
  -- `accept` puts its descriptor over the one that was there, which stays open.
  | .listenForPeer =>
    if e.sockfd = -1 then some ((), a, openFds)
    else if FreshFd openFds e.sockfd ∧ a.sockfdListen ∈ openFds then
      some ((), { a with sockfd := e.sockfd, connected := true }, openFd openFds e.sockfd)
    else none
  | .startIo channel => some (a.channel channel, a, openFds)
  | .endIo _ => some ((e.status, e.errno), a, openFds)
  | .receivePort =>
    if 0 ≤ e.port ∧ e.port < 65536 then some (e.port, { a with remotePort := e.port }, openFds)
    else none
  | .configureForComms => some ((), a, openFds)
  | .setConnTimeout milliseconds => some ((), { a with connTimeout := milliseconds }, openFds)
  | .setRecvTimeout milliseconds => some ((), { a with recvTimeout := milliseconds }, openFds)

end Adapter

/-- `new BluetoothAdapter` and `new WifiAdapter`, which open three descriptors each. No other
instrument type has an adapter. -/
def newAdapter (link : BratislavaLink) (e : Choice) : AdapterSlot :=
  let kind : Option AdapterKind := match link.instrumentType with
    | .bluetooth => some (.bluetooth e.isListener)
    | .wifi => some (.wifi e.deviceType)
    | _ => none
  match kind with
  | some kind => .object { kind, sockfd := e.sockfd, sockfdRequest := e.sockfdRequest,
                           sockfdListen := e.sockfdListen }
  | none => .null

namespace SharedState

variable (s : SharedState)

/-- An address that `new` may return. Without reuse it never returns an address twice. -/
def FreshAddress (reuse : Bool) (address : SocketPtr) : Prop :=
  address ∉ s.heap ∧ (reuse = false → address ∉ s.used)

instance (reuse : Bool) (address : SocketPtr) : Decidable (s.FreshAddress reuse address) :=
  inferInstanceAs (Decidable (address ∉ s.heap ∧ (reuse = false → address ∉ s.used)))

def insertSocket (address : SocketPtr) (bsock : BratislavaSocket) : SharedState :=
  { s with heap := s.heap.insert address bsock }

def setRegistry (registry : BratislavaSocketRegistry) : SharedState := { s with registry }

@[simp] theorem setRegistry_registry (registry : BratislavaSocketRegistry) :
    (s.setRegistry registry).registry = registry := rfl

/-- The adapter object of a handle, if there is one. -/
def adapterOf (bsock : SocketPtr) : Option Adapter :=
  match s.heap.lookup bsock with
  | some { adapter := .object a, .. } => some a
  | _ => none

/-- The device of a handle: `GetDeviceID` of its object. -/
def deviceOf (bsock : SocketPtr) : Option String :=
  (s.heap.lookup bsock).map fun b => getDeviceID b.link

/-- A new object, with the descriptors that are open then. -/
def allocate (address : SocketPtr) (bsock : BratislavaSocket) (openFds : List Int) : SharedState :=
  { s with heap := s.heap.insert address bsock, openFds, used := address :: s.used }

/-- `new BratislavaSocket`, the link and the adapter of the object. The object has no owner
when the instrument type is not supported. -/
def newSocket (reuse : Bool) (link : BratislavaLink) (e : Choice) :
    Option (Option SocketPtr × SharedState) :=
  if s.FreshAddress reuse e.address then
    match newAdapter link e with
    | .object a =>
      let fds := openFd s.openFds e.sockfd
      let fds' := openFd fds e.sockfdRequest
      if FreshFd s.openFds e.sockfd ∧ FreshFd fds e.sockfdRequest ∧ FreshFd fds' e.sockfdListen then
        some (some e.address,
          s.allocate e.address { link, adapter := .object a } (openFd fds' e.sockfdListen))
      else none
    | adapter => some (none, s.allocate e.address { link, adapter } s.openFds)
  else none

/-- `delete bsock->adapter`, and the address put in its place. -/
def deleteAdapter (bsock : SocketPtr) : Option SharedState :=
  match s.heap.lookup bsock with
  | some { link, adapter := .object a } =>
    some { s.insertSocket bsock { link, adapter := .dangling } with
           openFds := s.openFds.removeAll a.closedByDelete }
  | _ => none

def deleteSocket (bsock : SocketPtr) : Option SharedState :=
  if bsock ∈ s.heap then
    some { s with heap := s.heap.erase bsock, deleted := bsock :: s.deleted }
  else none

/-- The bodies of the critical sections of the registry are those of its methods. -/
def exec (reuse : Bool) (act : SocketAct) (e : Choice) :
    Option (act.Answer × SharedState) :=
  let r := s.registry
  match act with
  | .findSocket bsock => some (r.existsSocket bsock, s)
  | .lastSocket => some (r.sockets.getLast?, s)
  | .pushSocket bsock => some ((), s.setRegistry { r with sockets := r.sockets ++ [bsock] })
  | .eraseSocket bsock =>
    some ((), { s.setRegistry { r with sockets := r.sockets.erase bsock } with
                removed := bsock :: s.removed })
  | .getConfigSocket bsock => some (r.getConfigSocket bsock, s)
  | .getConfigId deviceId => some (r.getConfigId deviceId, s)
  | .updateConfig config => some ((r.updateConfig config).1, s.setRegistry (r.updateConfig config).2)
  | .createConfigSocket bsock link =>
    if e.address ∈ r.configs then none
    else some ((), s.setRegistry (r.createConfigSocket bsock link e.address))
  | .createConfigId deviceId =>
    if e.address ∈ r.configs then none
    else some ((), s.setRegistry (r.createConfigId deviceId e.address))
  | .removeConfig bsock => some ((), s.setRegistry (r.removeConfig bsock))
  | .removeUnusedConfig deviceId => some ((), s.setRegistry (r.removeUnusedConfig deviceId))
  | .acquireLocalPort => some (r.acquireLocalPort.1, s.setRegistry r.acquireLocalPort.2)
  | .releaseLocalPort port =>
    some ((r.releaseLocalPort port).1, s.setRegistry (r.releaseLocalPort port).2)
  | .newSocket link => s.newSocket reuse link e
  | .readLink bsock => (s.heap.lookup bsock).map fun b => (b.link, s)
  | .hasAdapter bsock => (s.heap.lookup bsock).map fun b => (decide (b.adapter ≠ .null), s)
  | .adapter bsock act =>
    match s.heap.lookup bsock with
    | some { link, adapter := .object a } =>
      (a.exec s.openFds e act).map fun (answer, a, openFds) =>
        (answer, { s.insertSocket bsock { link, adapter := .object a } with openFds })
    | _ => none
  | .deleteAdapter bsock => (s.deleteAdapter bsock).map fun s => ((), s)
  | .deleteSocket bsock => (s.deleteSocket bsock).map fun s => ((), s)
  | .turn => some (e.turn, s)

/-- The descriptors that an act closes. -/
def closedBy : SocketAct → List Int
  | .adapter bsock act => ((s.adapterOf bsock).map fun a => a.closedBy act).getD []
  | .deleteAdapter bsock => ((s.adapterOf bsock).map Adapter.closedByDelete).getD []
  | _ => []

theorem closedBy_adapter_nil {s : SharedState} {x : SocketPtr} {act : AdapterAct}
    (h : ∀ a : Adapter, a.closedBy act = []) : s.closedBy (.adapter x act) = [] := by
  simp only [closedBy]
  cases s.adapterOf x with
  | none => rfl
  | some a => exact h a

/-! ## What an act can do to adapters -/

variable {s} {s' : SharedState} {x : SocketPtr} {a : Adapter} {reuse : Bool} {e : Choice}

theorem adapterOf_eq_some :
    s.adapterOf x = some a ↔ ∃ link, s.heap.lookup x = some { link, adapter := .object a } := by
  unfold adapterOf
  constructor
  · intro h
    split at h
    · rename_i link a' hlookup
      cases h
      exact ⟨link, hlookup⟩
    · cases h
  · rintro ⟨link, hlookup⟩
    rw [hlookup]

/-- The adapter of one handle is changed, and nothing else but open descriptors. -/
structure AdapterStep (s s' : SharedState) (x : SocketPtr) (a a' : Adapter) : Prop where
  before : s.adapterOf x = some a
  after : ∀ y, s'.adapterOf y = if y = x then some a' else s.adapterOf y
  registry : s'.registry = s.registry

theorem exec_adapter {act : AdapterAct} {answer : act.Answer}
    (h : s.exec reuse (.adapter x act) e = some (answer, s')) :
    ∃ a a', AdapterStep s s' x a a' ∧
      a.exec s.openFds e act = some (answer, a', s'.openFds) := by
  simp only [exec] at h
  split at h
  · rename_i link a hlookup
    obtain ⟨⟨answer', a', fds⟩, hexec, hs⟩ := Option.map_eq_some_iff.mp h
    cases hs
    refine ⟨a, a', ⟨adapterOf_eq_some.mpr ⟨link, hlookup⟩, fun y => ?_, rfl⟩, hexec⟩
    by_cases hy : y = x
    · subst hy
      simp [adapterOf, insertSocket]
    · simp [adapterOf, insertSocket, hy]
  · cases h

/-- The adapter of one handle is gone, and its descriptors with it. -/
theorem exec_deleteAdapter {answer : Unit} (h : s.exec reuse (.deleteAdapter x) e = some (answer, s')) :
    ∃ a, s.adapterOf x = some a ∧ s'.openFds = s.openFds.removeAll a.closedByDelete ∧
      (∀ y, s'.adapterOf y = if y = x then none else s.adapterOf y) ∧ s'.registry = s.registry := by
  obtain ⟨s'', hdelete, hs⟩ := Option.map_eq_some_iff.mp h
  cases hs
  unfold deleteAdapter at hdelete
  split at hdelete
  · rename_i link a hlookup
    cases hdelete
    refine ⟨a, adapterOf_eq_some.mpr ⟨link, hlookup⟩, rfl, fun y => ?_, rfl⟩
    by_cases hy : y = x
    · subst hy
      simp [adapterOf, insertSocket]
    · simp [adapterOf, insertSocket, hy]
  · cases hdelete

/-- One object is gone. -/
theorem exec_deleteSocket {answer : Unit} (h : s.exec reuse (.deleteSocket x) e = some (answer, s')) :
    (∀ y, s'.heap.lookup y = if y = x then none else s.heap.lookup y) ∧ s'.openFds = s.openFds ∧
      s'.registry = s.registry := by
  obtain ⟨s'', hdelete, hs⟩ := Option.map_eq_some_iff.mp h
  cases hs
  unfold deleteSocket at hdelete
  split at hdelete
  · cases hdelete
    exact ⟨fun y => Finmap.lookup_erase_ite _ _ _, rfl, rfl⟩
  · cases hdelete

/-- A new object, at an address that is not in use. -/
theorem exec_newSocket {link : BratislavaLink} {answer : Option SocketPtr}
    (h : s.exec reuse (.newSocket link) e = some (answer, s')) :
    e.address ∉ s.heap ∧ ∃ b fds, s' = s.allocate e.address b fds ∧ b.link = link ∧
      ∀ x, answer = some x → x = e.address := by
  simp only [exec, newSocket] at h
  split at h
  · rename_i hfresh
    split at h
    · split at h
      · cases h
        exact ⟨hfresh.1, _, _, rfl, rfl, fun x hx => (Option.some.inj hx).symm⟩
      · cases h
    · cases h
      exact ⟨hfresh.1, _, _, rfl, rfl, fun x hx => by cases hx⟩
  · cases h

theorem adapterOf_allocate_of_ne {b : BratislavaSocket} {fds : List Int} {address y : SocketPtr}
    (hy : y ≠ address) : (s.allocate address b fds).adapterOf y = s.adapterOf y := by
  simp [adapterOf, allocate, hy]

theorem adapterOf_allocate {b : BratislavaSocket} {fds : List Int} {address : SocketPtr} :
    (s.allocate address b fds).adapterOf address = some a ↔ b.adapter = .object a := by
  obtain ⟨link, slot⟩ := b
  cases slot <;> simp [adapterOf, allocate]

end SharedState

/-- The constructors put the three descriptors into the members. -/
theorem newAdapter_fds {link : BratislavaLink} {e : Choice} {a : Adapter}
    (h : newAdapter link e = .object a) : a.sockfd = e.sockfd ∧
      a.sockfdRequest = e.sockfdRequest ∧ a.sockfdListen = e.sockfdListen := by
  simp only [newAdapter] at h
  split at h
  · cases h
    exact ⟨rfl, rfl, rfl⟩
  · cases h

/-- The acts that leave the members that hold descriptors, and what is open, as they are. -/
def AdapterAct.LeavesFds : AdapterAct → Prop
  | .setSockfd _ | .close _ | .socket | .closeRequest | .listenForPeer => False
  | _ => True

/-- The acts that leave `sockfd_` to the connection it has. The others are those by which
`CloseSocket` and `CreateSocket` put a new socket in the place of the old one. -/
def AdapterAct.Preserves : AdapterAct → Prop
  | .setSockfd _ | .close _ | .socket => False
  | _ => True

namespace Adapter

/-- The members that hold descriptors. -/
inductive Member
  | sockfd
  | sockfdRequest
  | sockfdListen
  deriving DecidableEq, Repr

def fd (a : Adapter) : Member → Int
  | .sockfd => a.sockfd
  | .sockfdRequest => a.sockfdRequest
  | .sockfdListen => a.sockfdListen

variable {a a' : Adapter} {fds fds' : List Int} {e : Choice}

theorem exec_leavesFds {act : AdapterAct} {answer : act.Answer} (hact : act.LeavesFds)
    (h : a.exec fds e act = some (answer, a', fds')) : fds' = fds ∧ a'.fd = a.fd := by
  cases act with
  | setSockfd | close | socket | closeRequest | listenForPeer => exact hact.elim
  | attempt | receivePort =>
    simp only [exec] at h
    split at h
    · cases h
      exact ⟨rfl, rfl⟩
    · cases h
  | _ =>
    cases h
    exact ⟨rfl, rfl⟩

/-- What `listenForPeer` can do: nothing, or a connection over whatever `sockfd_` was. -/
theorem exec_listenForPeer {answer : Unit}
    (h : a.exec fds e .listenForPeer = some (answer, a', fds')) :
    e.sockfd = -1 ∧ a' = a ∧ fds' = fds ∨
      e.sockfd ≠ -1 ∧ FreshFd fds e.sockfd ∧ a' = { a with sockfd := e.sockfd, connected := true } ∧
        fds' = openFd fds e.sockfd := by
  simp only [exec] at h
  split at h
  · cases h
    exact Or.inl ⟨by assumption, rfl, rfl⟩
  · split at h
    · rename_i hne hfresh
      cases h
      exact Or.inr ⟨hne, hfresh.1, rfl, rfl⟩
    · cases h

theorem exec_socket {fd : Int} (h : a.exec fds e .socket = some (fd, a', fds')) :
    fd = e.sockfd ∧ FreshFd fds fd ∧ a' = a ∧ fds' = openFd fds fd := by
  simp only [exec] at h
  split at h
  · cases h
    exact ⟨rfl, by assumption, rfl, rfl⟩
  · cases h

end Adapter

end SensorLib
