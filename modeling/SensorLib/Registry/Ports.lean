import SensorLib.Base.Leases
import SensorLib.Registry.Devices

/-! # Local ports as leases

The pool and the `localPort` of the configs are two records of one fact: which
device has which port. Each operation is one move of a lease, and both laws
of the ports follow from the moves.
-/

namespace SensorLib

namespace DeviceTable

/-- The port a device holds, and the free ports. -/
def leases (t : DeviceTable) : Leases String Int where
  holds d := ((t.find d).map fun x => x.localPort).filter fun port => decide (port ≠ -1)
  free := t.pool

theorem holds_leases {t : DeviceTable} {d : String} {port : Int} :
    t.leases.holds d = some port ↔ ∃ x, t.find d = some x ∧ x.localPort = port ∧ port ≠ -1 := by
  simp only [leases, Option.filter_eq_some_iff, Option.map_eq_some_iff, decide_eq_true_eq]
  constructor
  · rintro ⟨⟨x, hx, hport⟩, hne⟩
    exact ⟨x, hx, hport, hne⟩
  · rintro ⟨x, hx, hport, hne⟩
    exact ⟨⟨x, hx, hport⟩, hne⟩

theorem holds_leases_eq_none {t : DeviceTable} {d : String} :
    t.leases.holds d = none ↔ ∀ x, t.find d = some x → x.localPort = -1 := by
  rw [Option.eq_none_iff_forall_not_mem]
  constructor
  · intro h x hx
    by_contra hne
    exact h x.localPort (holds_leases.mpr ⟨x, hx, rfl, hne⟩)
  · intro h port hport
    obtain ⟨x, hx, hx', hne⟩ := holds_leases.mp hport
    exact hne (hx'.symm.trans (h x hx))

end DeviceTable

namespace Operation

open DeviceTable Leases

variable (link : SocketPtr → BratislavaLink)

/-- What an operation moves. -/
def move : Operation → DeviceTable → Move String Int
  | .remove socket, t =>
      let d := getDeviceID (link socket)
      if ((t.find d).filter (ownedBy socket)).isSome then .giveBack d else .keep
  | .removeUnusedConfig d, t => if (t.find d).any fun x => x.socket.isNone then .drop d else .keep
  | .addLocalPort d, t =>
      if h : t.pool.Nonempty then
        if (t.find d).isSome then .take d (t.pool.min' h) else .lose (t.pool.min' h)
      else .keep
  | .releaseLocalPortId d, _ => .publish d
  | .releaseLocalPortSocket socket, t =>
      let d := getDeviceID (link socket)
      if ((t.find d).filter (ownedBy socket)).isSome then .publish d else .keep
  | _, _ => .keep

theorem move_possible (op : Operation) (t : DeviceTable) :
    (op.move link t).Possible t.leases := by
  cases op with
  | addLocalPort d =>
    simp only [move]
    repeat' split
    · exact Finset.min'_mem _ _
    · exact Finset.min'_mem _ _
    · trivial
  | remove | removeUnusedConfig | releaseLocalPortSocket =>
    simp only [move]
    split <;> trivial
  | add | createConfig | connect | disconnectSocket | disconnectId | addIP | addRemotePort
  | releaseLocalPortId => trivial

/-- A change that keeps the port keeps every lease. -/
theorem leases_change (t : DeviceTable) (d : String) (allowed : DeviceRecord → Bool)
    {f : DeviceRecord → DeviceRecord} (hf : ∀ x, (f x).localPort = x.localPort) :
    (t.change d allowed f).2.leases = t.leases := by
  apply Leases.ext
  · funext id
    simp only [leases, find_change]
    split
    · rename_i hid
      subst hid
      cases t.find id with
      | none => rfl
      | some x =>
        simp only [Option.map_some]
        split <;> simp only [hf]
    · rfl
  · exact pool_change t d allowed f

theorem leases_set (t : DeviceTable) (d : String) {x : DeviceRecord}
    (hx : x.localPort = ((t.find d).getD {}).localPort) : (t.set d x).leases = t.leases := by
  apply Leases.ext
  · funext id
    simp only [leases, find_set]
    split
    · rename_i hid
      subst hid
      cases hfind : t.find id with
      | none =>
        rw [hfind] at hx
        simp [hx, Option.filter]
      | some y =>
        rw [hfind] at hx
        simp [hx]
    · rfl
  · rfl

theorem leases_clear (t : DeviceTable) (d : String) :
    (t.clear d).leases = (Move.drop d).apply t.leases := by
  apply Leases.ext
  · funext id
    simp only [leases, find_clear, Move.apply, Function.update_apply]
    split <;> rfl
  · rfl

theorem leases_giveBack {t : DeviceTable}
    (hin : t.leases.Within BratislavaSocketRegistry.initializeLocalPorts) {d : String}
    {allowed : DeviceRecord → Bool} (hsome : ((t.find d).filter allowed).isSome) :
    (t.giveBack d allowed).2.leases = (Move.publish d).apply t.leases := by
  obtain ⟨x, hx⟩ := Option.isSome_iff_exists.mp hsome
  have hfind : t.find d = some x := (Option.filter_eq_some_iff.mp hx).1
  simp only [giveBack, hx]
  by_cases hport : x.localPort = -1
  · have hnone : t.leases.holds d = none := holds_leases_eq_none.mpr fun y hy => by
      rw [hfind] at hy
      cases hy
      exact hport
    rw [if_neg (by rw [hport, minPort]; omega)]
    simp [Move.apply, hnone]
  · have hheld : t.leases.holds d = some x.localPort := holds_leases.mpr ⟨x, hfind, rfl, hport⟩
    rw [if_pos (BratislavaSocketRegistry.mem_initializeLocalPorts.mp (hin.held d _ hheld))]
    simp only [Move.apply, hheld]
    apply Leases.ext
    · rfl
    · simp only [leases, Option.toFinset_some]
      rw [Finset.insert_eq, Finset.union_comm]

theorem giveBack_of_none {t : DeviceTable} {d : String} {allowed : DeviceRecord → Bool}
    (hnone : ¬ ((t.find d).filter allowed).isSome) : t.giveBack d allowed = (false, t) := by
  rw [Option.not_isSome_iff_eq_none] at hnone
  simp only [giveBack, hnone]

/-- Every operation is its move. -/
theorem leases_spec (op : Operation) {t : DeviceTable}
    (hin : t.leases.Within BratislavaSocketRegistry.initializeLocalPorts) :
    (op.spec link t).2.leases = (op.move link t).apply t.leases := by
  cases op with
  | add socket newConfig =>
    apply leases_set
    cases t.find (getDeviceID (link socket)) <;> rfl
  | createConfig d newConfig => exact leases_set t d rfl
  | connect | disconnectSocket | disconnectId | addIP =>
    exact leases_change t _ _ fun _ => rfl
  | addRemotePort d port =>
    simp only [spec]
    split
    · rfl
    · exact leases_change t _ _ fun _ => rfl
  | remove socket =>
    simp only [spec, move]
    cases hfind : (t.find (getDeviceID (link socket))).filter (ownedBy socket) with
    | none => rfl
    | some x =>
      have hgive := leases_giveBack hin (Option.isSome_iff_exists.mpr ⟨x, hfind⟩)
      simp only [leases_clear, hgive]
      rfl
  | removeUnusedConfig d =>
    simp only [spec, move]
    cases hfind : t.find d with
    | none => rfl
    | some x =>
      cases hsock : x.socket with
      | none => simp [hsock, leases_clear]
      | some s => simp [hsock, Move.apply]
  | releaseLocalPortId d =>
    simp only [spec, move]
    by_cases hsome : ((t.find d).filter anyRecord).isSome
    · exact leases_giveBack hin hsome
    · have hfind : t.find d = none := by
        cases hfind : t.find d with
        | none => rfl
        | some x => exact absurd (by simp [hfind, Option.filter, anyRecord]) hsome
      rw [giveBack_of_none hsome]
      simp [Move.apply, leases, hfind]
  | releaseLocalPortSocket socket =>
    simp only [spec, move]
    split
    · rename_i hsome
      exact leases_giveBack hin hsome
    · rename_i hnone
      rw [giveBack_of_none hnone]
      rfl
  | addLocalPort d =>
    simp only [spec, move]
    by_cases hne : t.pool.Nonempty
    · have hmem := BratislavaSocketRegistry.mem_initializeLocalPorts.mp (hin.free _ (Finset.min'_mem t.pool hne))
      have hport : t.pool.min' hne ≠ -1 := by
        have hlow := hmem.1
        simp only [minPort] at hlow
        omega
      simp only [dif_pos hne]
      cases hfind : t.find d with
      | none =>
        simp only [change, find] at hfind ⊢
        simp only [hfind]
        rfl
      | some x =>
        simp only [Option.isSome_some, if_true]
        apply Leases.ext
        · funext id
          simp only [leases, find_change, Move.apply, Function.update_apply]
          split
          · rename_i hid
            subst hid
            simp only [find] at hfind
            simp [find, hfind, anyRecord, Option.filter, hport]
          · rfl
        · exact pool_change _ d anyRecord _
    · simp only [dif_neg hne]
      rfl

end Operation

/-! ## The two laws of the registry -/

namespace BratislavaSocketRegistry

/-- No two live configs record the same port, and no recorded port is in the pool. -/
structure PortsExclusive (r : BratislavaSocketRegistry) : Prop where
  distinct : ∀ p q c d, r.configs.lookup p = some c → r.configs.lookup q = some d →
    c.localPort = d.localPort → c.localPort ≠ -1 → p = q
  notFree : ∀ p c, r.configs.lookup p = some c → c.localPort ∉ r.availableLocalPorts

/-- A port of the range is in the pool or recorded in a live config. -/
def PortsConserved (r : BratislavaSocketRegistry) : Prop :=
  ∀ port, minPort ≤ port → port ≤ maxPort →
    port ∈ r.availableLocalPorts ∨ ∃ p c, r.configs.lookup p = some c ∧ c.localPort = port

/-- What the leases of the table say about the registry. -/
structure Accounts (link : SocketPtr → BratislavaLink) (r : BratislavaSocketRegistry)
    (t : DeviceTable) : Prop where
  consistent : Consistent link r
  represents : Represents r t
  within : t.leases.Within initializeLocalPorts

namespace Accounts

variable {link : SocketPtr → BratislavaLink} {r : BratislavaSocketRegistry} {t : DeviceTable}

theorem empty : Accounts link .empty .empty where
  consistent := empty_consistent
  represents := Represents.empty
  within := ⟨fun _ h => h, fun d port h => by
    obtain ⟨x, hx, _⟩ := DeviceTable.holds_leases.mp h
    simp [DeviceTable.find, DeviceTable.empty] at hx⟩

theorem step (h : Accounts link r t) {op : Operation} (hadm : op.Admissible link r) :
    Accounts link (op.apply link r).2 (op.spec link t).2 := by
  have hop := Simulates.operation h.consistent h.represents op hadm
  refine ⟨hop.consistent, hop.represents, ?_⟩
  rw [Operation.leases_spec link op h.within]
  exact h.within.apply (op.move_possible link t)

theorem find_iff (h : Accounts link r t) {d : String} {x : DeviceRecord} :
    t.find d = some x ↔ ∃ p c, r.configs.lookup p = some c ∧ c.deviceId = d ∧ c.record = x := by
  rw [h.represents.find, Option.map_eq_some_iff]
  constructor
  · rintro ⟨c, hc, hx⟩
    obtain ⟨p, hp, hid⟩ := h.consistent.wellFormed.getConfigId_eq_some.mp hc
    exact ⟨p, c, hp, hid, hx⟩
  · rintro ⟨p, c, hp, hid, hx⟩
    exact ⟨c, h.consistent.wellFormed.getConfigId_eq_some.mpr ⟨p, hp, hid⟩, hx⟩

theorem holds_iff (h : Accounts link r t) {d : String} {port : Int} :
    t.leases.holds d = some port ↔
      ∃ p c, r.configs.lookup p = some c ∧ c.deviceId = d ∧ c.localPort = port ∧ port ≠ -1 := by
  rw [DeviceTable.holds_leases]
  constructor
  · rintro ⟨x, hx, hport, hne⟩
    obtain ⟨p, c, hp, hid, rfl⟩ := h.find_iff.mp hx
    exact ⟨p, c, hp, hid, hport, hne⟩
  · rintro ⟨p, c, hp, hid, hport, hne⟩
    exact ⟨c.record, h.find_iff.mpr ⟨p, c, hp, hid, rfl⟩, hport, hne⟩

theorem holds_eq_none_iff (h : Accounts link r t) {d : String} :
    t.leases.holds d = none ↔ ∀ c, r.getConfigId d = some c → c.localPort = -1 := by
  rw [DeviceTable.holds_leases_eq_none, h.represents.find]
  cases r.getConfigId d with
  | none => simp
  | some c => simp [BratislavaSocketConfig.record]

theorem exclusive_iff (h : Accounts link r t) : r.PortsExclusive ↔ t.leases.Exclusive := by
  have hfree : t.leases.free = r.availableLocalPorts := h.represents.pool
  constructor
  · intro hr
    refine ⟨fun d e port hd he => ?_, fun d port hd => ?_⟩
    · obtain ⟨p, c, hp, rfl, hc, hne⟩ := h.holds_iff.mp hd
      obtain ⟨q, c', hq, rfl, hc', _⟩ := h.holds_iff.mp he
      obtain rfl := hr.distinct p q c c' hp hq (hc.trans hc'.symm) (hc ▸ hne)
      rw [hp] at hq
      cases hq
      rfl
    · obtain ⟨p, c, hp, _, rfl, _⟩ := h.holds_iff.mp hd
      exact fun hmem => hr.notFree p c hp (hfree ▸ hmem)
  · intro ht
    refine ⟨fun p q c d hp hq hport hne => ?_, fun p c hp hmem => ?_⟩
    · have hc := h.holds_iff.mpr ⟨p, c, hp, rfl, rfl, hne⟩
      have hd := h.holds_iff.mpr ⟨q, d, hq, rfl, hport.symm, hne⟩
      exact h.consistent.wellFormed.config_unique hp hq (ht.unique _ _ _ hc hd)
    · have hlow := (h.consistent.ports _ hmem).1
      have hne : c.localPort ≠ -1 := by
        simp only [minPort] at hlow
        omega
      exact ht.notFree _ _ (h.holds_iff.mpr ⟨p, c, hp, rfl, rfl, hne⟩) (hfree ▸ hmem)

theorem conserved_iff (h : Accounts link r t) :
    r.PortsConserved ↔ t.leases.Conserved initializeLocalPorts := by
  have hheld : ∀ port, minPort ≤ port →
      ((∃ p c, r.configs.lookup p = some c ∧ c.localPort = port) ↔
        ∃ d, t.leases.holds d = some port) := by
    intro port hlow
    have hne : port ≠ -1 := by
      simp only [minPort] at hlow
      omega
    constructor
    · rintro ⟨p, c, hp, hport⟩
      exact ⟨c.deviceId, h.holds_iff.mpr ⟨p, c, hp, rfl, hport, hne⟩⟩
    · rintro ⟨d, hd⟩
      obtain ⟨p, c, hp, _, hport, _⟩ := h.holds_iff.mp hd
      exact ⟨p, c, hp, hport⟩
  have hfree : t.leases.free = r.availableLocalPorts := h.represents.pool
  constructor
  · intro hr port hport
    obtain ⟨hlow, hhigh⟩ := BratislavaSocketRegistry.mem_initializeLocalPorts.mp hport
    rw [hfree, ← hheld port hlow]
    exact hr port hlow hhigh
  · intro ht port hlow hhigh
    rw [← hfree, hheld port hlow]
    exact ht port (BratislavaSocketRegistry.mem_initializeLocalPorts.mpr ⟨hlow, hhigh⟩)

end Accounts

end BratislavaSocketRegistry

namespace Operation

open BratislavaSocketRegistry Leases

/-- `ReleaseLocalPort` of a device is called only while its config records no port. -/
def ReleasesNothing (r : BratislavaSocketRegistry) : Operation → Prop
  | .releaseLocalPortId d => ∀ c, r.getConfigId d = some c → c.localPort = -1
  | .releaseLocalPortSocket s => ∀ c, r.getConfigSocket s = some c → c.localPort = -1
  | _ => True

/-- `AddLocalPort` is called with the pool empty, or for a device whose config records no port,
and `RemoveUnusedConfig` frees no config that records one. -/
def LosesNothing (r : BratislavaSocketRegistry) : Operation → Prop
  | .addLocalPort d =>
      r.availableLocalPorts = ∅ ∨ ∃ c, r.getConfigId d = some c ∧ c.localPort = -1
  | .removeUnusedConfig d =>
      ∀ c, r.getConfigId d = some c → c.socket = none → c.localPort = -1
  | _ => True

def releases : Operation → Bool
  | .releaseLocalPortId _ | .releaseLocalPortSocket _ => true
  | _ => false

variable {link : SocketPtr → BratislavaLink} {r : BratislavaSocketRegistry} {t : DeviceTable}

theorem keepsExclusive_iff (h : Accounts link r t) (op : Operation) :
    (op.move link t).KeepsExclusive t.leases ↔ op.ReleasesNothing r := by
  cases op with
  | releaseLocalPortId d => exact h.holds_eq_none_iff
  | releaseLocalPortSocket s =>
    have hfilter := h.represents.filter_eq (getDeviceID (link s)) (ownedBy s)
    have hsocket : r.getConfigSocket s = (r.getConfigId (getDeviceID (link s))).filter
        fun c => ownedBy s c.record := h.consistent.getConfigSocket_eq s
    rw [← hsocket] at hfilter
    simp only [move, ReleasesNothing, hfilter, Option.isSome_map]
    cases hget : r.getConfigSocket s with
    | none => simp [Move.KeepsExclusive]
    | some c =>
      have hid : r.getConfigId (getDeviceID (link s)) = some c :=
        h.consistent.device s c hget ▸
          (h.consistent.wellFormed.getConfigSocket_iff_getConfigId.mp hget).1
      simp only [Option.isSome_some, if_true, Move.KeepsExclusive]
      rw [h.holds_eq_none_iff, hid]
  | remove | removeUnusedConfig | addLocalPort =>
    simp only [move, ReleasesNothing, iff_true]
    repeat' split
    all_goals trivial
  | add | createConfig | connect | disconnectSocket | disconnectId | addIP | addRemotePort =>
    exact Iff.rfl

theorem keepsConserved_iff (h : Accounts link r t) (op : Operation) :
    (op.move link t).KeepsConserved t.leases ↔ op.LosesNothing r := by
  have hpool := h.represents.pool
  cases op with
  | addLocalPort d =>
    simp only [move, LosesNothing]
    by_cases hne : t.pool.Nonempty
    · have hempty : r.availableLocalPorts ≠ ∅ := hpool ▸ hne.ne_empty
      simp only [dif_pos hne, hempty, false_or, h.represents.find, Option.isSome_map]
      cases hget : r.getConfigId d with
      | none => simp [Move.KeepsConserved]
      | some c =>
        simp only [Option.isSome_some, if_true, Move.KeepsConserved]
        rw [h.holds_eq_none_iff, hget]
        simp
    · have hempty : r.availableLocalPorts = ∅ :=
        hpool ▸ Finset.not_nonempty_iff_eq_empty.mp hne
      simp [dif_neg hne, hempty, Move.KeepsConserved]
  | removeUnusedConfig d =>
    simp only [move, LosesNothing, h.represents.find]
    cases hget : r.getConfigId d with
    | none => simp [Move.KeepsConserved]
    | some c =>
      cases hsock : c.socket with
      | none =>
        simp only [Option.map_some, Option.any_some, BratislavaSocketConfig.record, hsock,
          Option.isNone_none, if_true, Move.KeepsConserved]
        rw [h.holds_eq_none_iff, hget]
        simp [hsock]
      | some s => simp [BratislavaSocketConfig.record, hsock, Move.KeepsConserved]
  | remove | releaseLocalPortSocket =>
    simp only [move, LosesNothing, iff_true]
    split <;> trivial
  | add | createConfig | connect | disconnectSocket | disconnectId | addIP | addRemotePort
  | releaseLocalPortId => exact Iff.rfl

end Operation

section

open BratislavaSocketRegistry

variable {link : SocketPtr → BratislavaLink} {r : BratislavaSocketRegistry} {t : DeviceTable}

theorem BratislavaSocketRegistry.Accounts.exclusive_step (h : Accounts link r t) {op : Operation}
    (hadm : op.Admissible link r) (hr : r.PortsExclusive) :
    (op.apply link r).2.PortsExclusive ↔ op.ReleasesNothing r := by
  rw [(h.step hadm).exclusive_iff, Operation.leases_spec link op h.within,
    (h.exclusive_iff.mp hr).apply_iff (op.move_possible link t), Operation.keepsExclusive_iff h]

/-- With a port in the pool and a config for the device the call succeeds. -/
theorem BratislavaSocketRegistry.Accounts.addLocalPort_eq_of_fails (h : Accounts link r t)
    {d : String} (hkeeps : (Operation.addLocalPort d).LosesNothing r)
    (hfails : (r.addLocalPort d).1 = false) : (r.addLocalPort d).2 = r := by
  have hempty : r.availableLocalPorts = ∅ := by
    rcases hkeeps with hempty | ⟨c, hc, _⟩
    · exact hempty
    · by_contra hne
      have hpool : t.pool.Nonempty := h.represents.pool ▸ Finset.nonempty_iff_ne_empty.mpr hne
      have hresult := (Simulates.operation h.consistent h.represents (.addLocalPort d) trivial).result
      have hfind := h.represents.find d
      rw [hc, DeviceTable.find] at hfind
      simp only [Operation.apply, hfails, Operation.spec, dif_pos hpool, DeviceTable.change,
        DeviceTable.find, hfind, Option.map_some, Option.filter, Operation.anyRecord,
        if_true] at hresult
      cases hresult
  simp only [BratislavaSocketRegistry.addLocalPort, acquireLocalPort_of_empty hempty, ne_eq,
    not_true_eq_false, if_false]

theorem BratislavaSocketRegistry.Accounts.conserved_step (h : Accounts link r t) {op : Operation}
    (hadm : op.Admissible link r) (hex : r.PortsExclusive) (hr : r.PortsConserved) :
    (op.apply link r).2.PortsConserved ↔ op.LosesNothing r := by
  rw [(h.step hadm).conserved_iff, Operation.leases_spec link op h.within,
    (h.conserved_iff.mp hr).apply_iff (h.exclusive_iff.mp hex) h.within
      (op.move_possible link t), Operation.keepsConserved_iff h]

end

/-- A run keeps the ports exclusive exactly when it releases no port that stays recorded. -/
theorem ports_exclusive_iff (link : SocketPtr → BratislavaLink) (ops : List Operation)
    (hlegal : (registryMachine link).Legal .empty ops) :
    (registryMachine link).Always BratislavaSocketRegistry.PortsExclusive .empty ops ↔
      (registryMachine link).Each (fun r op => op.ReleasesNothing r) .empty ops := by
  refine hlegal.always_iff_each
    (I := fun r => ∃ t, BratislavaSocketRegistry.Accounts link r t) ?_ ?_ ⟨_, .empty⟩ ?_
  · rintro r op ⟨t, ht⟩ _ hadm _
    exact ⟨_, ht.step hadm⟩
  · rintro r op ⟨t, ht⟩ hex hadm
    exact ht.exclusive_step hadm hex
  · refine ⟨fun p q c d hp => ?_, fun p c hp => ?_⟩ <;>
      simp [BratislavaSocketRegistry.empty] at hp

theorem ports_exclusive_iff_example :
    (registryMachine wifiPeers).Always BratislavaSocketRegistry.PortsExclusive .empty
        [.add 1 8, .addLocalPort "aa", .remove 1, .add 2 8, .addLocalPort "bb"] ↔
      (registryMachine wifiPeers).Each (fun r op => op.ReleasesNothing r) .empty
        [.add 1 8, .addLocalPort "aa", .remove 1, .add 2 8, .addLocalPort "bb"] :=
  ports_exclusive_iff wifiPeers _ (by decide +kernel)

/-- A released port is handed to a second device while the first still records it. -/
theorem ports_not_exclusive :
    (registryMachine wifiPeers).Legal .empty
        [.createConfig "aa" 7, .addLocalPort "aa", .releaseLocalPortId "aa",
          .createConfig "bb" 8, .addLocalPort "bb"] ∧
      ¬ (registryMachine wifiPeers).Always BratislavaSocketRegistry.PortsExclusive .empty
        [.createConfig "aa" 7, .addLocalPort "aa", .releaseLocalPortId "aa",
          .createConfig "bb" 8, .addLocalPort "bb"] := by
  refine ⟨by decide +kernel, fun halways => ?_⟩
  have hlast := halways.last
  have hsame := hlast.distinct 7 8 { deviceId := "aa", localPort := 40000 }
    { deviceId := "bb", localPort := 40000 } (by decide +kernel) (by decide +kernel) rfl (by decide)
  exact absurd hsame (by decide)

/-- A run without releases conserves the ports, and its failing `AddLocalPort` calls leave the
pool alone, exactly when each of its operations loses nothing. -/
theorem ports_conserved_iff (link : SocketPtr → BratislavaLink) (ops : List Operation)
    (hlegal : (registryMachine link).Legal .empty ops) (hops : ∀ op ∈ ops, op.releases = false) :
    ((registryMachine link).Always BratislavaSocketRegistry.PortsConserved .empty ops ∧
        (registryMachine link).Each
          (fun r op => ∀ d, op = .addLocalPort d → (r.addLocalPort d).1 = false →
            (r.addLocalPort d).2.availableLocalPorts = r.availableLocalPorts) .empty ops) ↔
      (registryMachine link).Each (fun r op => op.LosesNothing r) .empty ops := by
  have hlegal' := Runs.Machine.Each.and hlegal (Runs.Machine.each_of_forall hops _)
  have hstep : ∀ (r : BratislavaSocketRegistry) (op : Operation), (∃ t, BratislavaSocketRegistry.Accounts link r t ∧ r.PortsExclusive) →
      op.Admissible link r ∧ op.releases = false →
      ∃ t, BratislavaSocketRegistry.Accounts link (op.apply link r).2 t ∧
        (op.apply link r).2.PortsExclusive := by
    rintro r op ⟨t, ht, hex⟩ ⟨hadm, hop⟩
    refine ⟨_, ht.step hadm, (ht.exclusive_step hadm hex).mpr ?_⟩
    cases op <;> trivial
  have hempty : BratislavaSocketRegistry.empty.PortsExclusive := by
    refine ⟨fun p q c d hp => ?_, fun p c hp => ?_⟩ <;>
      simp [BratislavaSocketRegistry.empty] at hp
  have hiff : (registryMachine link).Always BratislavaSocketRegistry.PortsConserved .empty ops ↔
      (registryMachine link).Each (fun r op => op.LosesNothing r) .empty ops := by
    refine hlegal'.always_iff_each (fun r op hr _ hadm _ => hstep r op hr hadm) ?_
      ⟨_, BratislavaSocketRegistry.Accounts.empty, hempty⟩ ?_
    · rintro r op ⟨t, ht, hex⟩ hcon hadm
      exact ht.conserved_step hadm.1 hex hcon
    · intro port hlow hhigh
      exact Or.inl (BratislavaSocketRegistry.mem_initializeLocalPorts.mpr ⟨hlow, hhigh⟩)
  refine ⟨fun h => hiff.mp h.1, fun h => ⟨hiff.mpr h, ?_⟩⟩
  refine (hlegal'.and h).each (fun r op hr hop => hstep r op hr hop.1) ?_
    ⟨_, BratislavaSocketRegistry.Accounts.empty, hempty⟩
  rintro r op ⟨t, ht, _⟩ ⟨_, hkeeps⟩ d rfl hfails
  rw [ht.addLocalPort_eq_of_fails hkeeps hfails]

theorem ports_conserved_iff_example :
    ((registryMachine wifiPeers).Always BratislavaSocketRegistry.PortsConserved .empty
          [.add 1 8, .addLocalPort "aa", .remove 1, .createConfig "bb" 8,
            .removeUnusedConfig "bb"] ∧
        (registryMachine wifiPeers).Each
          (fun r op => ∀ d, op = .addLocalPort d → (r.addLocalPort d).1 = false →
            (r.addLocalPort d).2.availableLocalPorts = r.availableLocalPorts) .empty
          [.add 1 8, .addLocalPort "aa", .remove 1, .createConfig "bb" 8,
            .removeUnusedConfig "bb"]) ↔
      (registryMachine wifiPeers).Each (fun r op => op.LosesNothing r) .empty
        [.add 1 8, .addLocalPort "aa", .remove 1, .createConfig "bb" 8,
          .removeUnusedConfig "bb"] :=
  ports_conserved_iff wifiPeers _ (by decide +kernel) (by decide)

/-- For an unknown device the port is gone and the call fails. -/
theorem ports_not_conserved :
    (BratislavaSocketRegistry.empty.addLocalPort "aa").1 = false ∧
      ¬ (registryMachine wifiPeers).Always BratislavaSocketRegistry.PortsConserved .empty
        [.addLocalPort "aa"] := by
  refine ⟨by decide +kernel, fun halways => ?_⟩
  simp only [Runs.Machine.Always, registryMachine, Operation.apply] at halways
  have hnone : (BratislavaSocketRegistry.empty.addLocalPort "aa").2.configs = ∅ := by
    decide +kernel
  have hlost : minPort ∉
      (BratislavaSocketRegistry.empty.addLocalPort "aa").2.availableLocalPorts := by
    decide +kernel
  have hcon := halways.2
  clear halways
  generalize (BratislavaSocketRegistry.empty.addLocalPort "aa").2 = r at hnone hlost hcon
  obtain ⟨p, c, hp, _⟩ := (hcon minPort le_rfl (by decide)).resolve_left hlost
  rw [hnone] at hp
  simp at hp

end SensorLib
