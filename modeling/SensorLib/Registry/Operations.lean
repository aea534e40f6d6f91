import SensorLib.Base.Runs
import SensorLib.Registry.Rules

/-! # Sequential runs of the registry

The operations of a run, the addresses `new` returns included. The links of
the sockets are fixed, as `GetDeviceID` reads them through the socket.
-/

namespace SensorLib

inductive Operation
  | add (socket : SocketPtr) (newConfig : ConfigPtr)
  | remove (socket : SocketPtr)
  | createConfig (deviceId : String) (newConfig : ConfigPtr)
  | removeUnusedConfig (deviceId : String)
  | connect (socket : SocketPtr)
  | disconnectSocket (socket : SocketPtr)
  | disconnectId (deviceId : String)
  | addIP (deviceId deviceIp : String)
  | addRemotePort (deviceId : String) (port : Int)
  | addLocalPort (deviceId : String)
  | releaseLocalPortId (deviceId : String)
  | releaseLocalPortSocket (socket : SocketPtr)
  deriving DecidableEq, Repr

namespace Operation

variable (link : SocketPtr → BratislavaLink)

/-- A `void` method counts as one that returns true. -/
def apply : Operation → BratislavaSocketRegistry → Bool × BratislavaSocketRegistry
  | .add socket newConfig, r => (true, r.add socket (link socket) newConfig)
  | .remove socket, r => r.remove socket
  | .createConfig deviceId newConfig, r => (true, r.createConfigId deviceId newConfig)
  | .removeUnusedConfig deviceId, r => (true, r.removeUnusedConfig deviceId)
  | .connect socket, r => r.connect socket
  | .disconnectSocket socket, r => r.disconnectSocket socket
  | .disconnectId deviceId, r => r.disconnectId deviceId
  | .addIP deviceId deviceIp, r => r.addIP deviceId deviceIp
  | .addRemotePort deviceId port, r => r.addRemotePort deviceId port
  | .addLocalPort deviceId, r => r.addLocalPort deviceId
  | .releaseLocalPortId deviceId, r => r.releaseLocalPortId deviceId
  | .releaseLocalPortSocket socket, r => r.releaseLocalPortSocket socket

/-- The device an operation is about. -/
def device : Operation → String
  | .add socket _ | .remove socket | .connect socket | .disconnectSocket socket
  | .releaseLocalPortSocket socket => getDeviceID (link socket)
  | .createConfig deviceId _ | .removeUnusedConfig deviceId | .disconnectId deviceId
  | .addIP deviceId _ | .addRemotePort deviceId _ | .addLocalPort deviceId
  | .releaseLocalPortId deviceId => deviceId

/-- `add` is called with a socket that is not registered and whose device has no registered
socket. The address `new` returns is not in use. -/
def Admissible (r : BratislavaSocketRegistry) : Operation → Prop
  | .add socket newConfig =>
      socket ∉ r.sockets ∧
      (∀ s ∈ r.sockets, getDeviceID (link s) ≠ getDeviceID (link socket)) ∧
      newConfig ∉ r.configs
  | .createConfig _ newConfig => newConfig ∉ r.configs
  | _ => True

instance (r : BratislavaSocketRegistry) : ∀ op : Operation, Decidable (op.Admissible link r)
  | .add .. => inferInstanceAs (Decidable (_ ∧ _ ∧ _))
  | .createConfig .. => inferInstanceAs (Decidable (_ ∉ _))
  | .remove _ | .removeUnusedConfig _ | .connect _ | .disconnectSocket _ | .disconnectId _
  | .addIP .. | .addRemotePort .. | .addLocalPort _ | .releaseLocalPortId _
  | .releaseLocalPortSocket _ => isTrue trivial

end Operation

/-- Two Wi-Fi peers, for the sockets 1 and 2. -/
def wifiPeers (socket : SocketPtr) : BratislavaLink :=
  if socket = 1 then .wifi "link-a" "aa" else .wifi "link-b" "bb"

/-- Runs of registry operations, for given links behind the socket pointers. -/
def registryMachine (link : SocketPtr → BratislavaLink) :
    Runs.Machine BratislavaSocketRegistry Operation where
  guard r op := op.Admissible link r
  next r op := (op.apply link r).2

instance (link : SocketPtr → BratislavaLink) (r : BratislavaSocketRegistry) (op : Operation) :
    Decidable ((registryMachine link).guard r op) :=
  inferInstanceAs (Decidable (op.Admissible link r))

namespace BratislavaSocketRegistry

/-- What holds between two operations: the pointers agree, a socket is filed under the id of its
own link, and the pool has only ports of the range. -/
structure Consistent (link : SocketPtr → BratislavaLink) (r : BratislavaSocketRegistry) :
    Prop where
  wellFormed : WellFormed r
  device : ∀ s c, r.getConfigSocket s = some c → c.deviceId = getDeviceID (link s)
  ports : ∀ port ∈ r.availableLocalPorts, minPort ≤ port ∧ port ≤ maxPort

variable {link : SocketPtr → BratislavaLink} {r : BratislavaSocketRegistry}

theorem empty_consistent : Consistent link empty where
  wellFormed := empty_wellFormed
  device s c h := by simp [getConfigSocket, empty] at h
  ports port h := mem_initializeLocalPorts.mp h

theorem Consistent.getConfigSocket_eq (h : Consistent link r) (s : SocketPtr) :
    r.getConfigSocket s =
      (r.getConfigId (getDeviceID (link s))).filter fun c => decide (c.socket = some s) := by
  apply Option.ext
  intro c
  rw [Option.filter_eq_some_iff, decide_eq_true_eq]
  constructor
  · intro hc
    rw [← h.device s c hc]
    exact h.wellFormed.getConfigSocket_iff_getConfigId.mp hc
  · rintro ⟨hc, hs⟩
    have hid := h.wellFormed.deviceId_of_getConfigId hc
    exact h.wellFormed.getConfigSocket_iff_getConfigId.mpr ⟨hid ▸ hc, hs⟩

theorem Consistent.of_files (h : Consistent link r) {r' : BratislavaSocketRegistry} {d : String}
    {v : Option BratislavaSocketConfig} (hfiles : Files r r' d v)
    (hv : ∀ c s, v = some c → c.socket = some s → d = getDeviceID (link s))
    (hports : ∀ port ∈ r'.availableLocalPorts, minPort ≤ port ∧ port ≤ maxPort) :
    Consistent link r' where
  wellFormed := hfiles.wellFormed
  device := by
    intro s c hc
    obtain ⟨hget, hs⟩ := hfiles.wellFormed.getConfigSocket_iff_getConfigId.mp hc
    rw [hfiles.getConfigId] at hget
    split at hget
    · rename_i hid
      exact hid.trans (hv c s hget hs)
    · exact h.device s c (h.wellFormed.getConfigSocket_iff_getConfigId.mpr ⟨hget, hs⟩)
  ports := hports

theorem acquireLocalPort_of_nonempty (hne : r.availableLocalPorts.Nonempty) :
    r.acquireLocalPort = (r.availableLocalPorts.min' hne, { r with
      availableLocalPorts := r.availableLocalPorts.erase (r.availableLocalPorts.min' hne) }) := by
  rw [acquireLocalPort, dif_pos hne]

theorem acquireLocalPort_of_empty (hempty : r.availableLocalPorts = ∅) :
    r.acquireLocalPort = (-1, r) := by
  rw [acquireLocalPort, dif_neg (by simp [hempty])]

theorem Consistent.least_ne (h : Consistent link r) (hne : r.availableLocalPorts.Nonempty) :
    r.availableLocalPorts.min' hne ≠ -1 := by
  have hrange := h.ports _ (Finset.min'_mem _ hne)
  simp only [minPort] at hrange
  omega

end BratislavaSocketRegistry

end SensorLib
