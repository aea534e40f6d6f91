import SensorLib.Registry.Operations

/-! # The registry as one table of devices

The purpose of the registry in its own terms: one record for each device id,
and the pool of free local ports. The two pointer maps, the vector and the
heap refine this table.
-/

namespace SensorLib

structure DeviceRecord where
  socket : Option SocketPtr := none
  ip : String := ""
  localPort : Int := -1
  remotePort : Int := -1
  connected : Bool := false
  deriving DecidableEq, Repr

structure DeviceTable where
  records : UnorderedMap String DeviceRecord
  pool : Finset Int

namespace DeviceTable

def empty : DeviceTable := ⟨∅, BratislavaSocketRegistry.initializeLocalPorts⟩

variable (t : DeviceTable)

def find (d : String) : Option DeviceRecord := t.records.lookup d

def set (d : String) (record : DeviceRecord) : DeviceTable :=
  { t with records := t.records.insert d record }

def clear (d : String) : DeviceTable := { t with records := t.records.erase d }

/-- Change the record of a device, if there is one and it is allowed. -/
def change (d : String) (allowed : DeviceRecord → Bool) (f : DeviceRecord → DeviceRecord) :
    Bool × DeviceTable :=
  match (t.find d).filter allowed with
  | some record => (true, t.set d (f record))
  | none => (false, t)

/-- Give the recorded port back, if there is one. -/
def giveBack (d : String) (allowed : DeviceRecord → Bool) : Bool × DeviceTable :=
  match (t.find d).filter allowed with
  | some record =>
    if minPort ≤ record.localPort ∧ record.localPort ≤ maxPort then
      (true, { t with pool := insert record.localPort t.pool })
    else (false, t)
  | none => (false, t)

@[simp] theorem find_set (d : String) (record : DeviceRecord) (id : String) :
    (t.set d record).find id = if id = d then some record else t.find id :=
  Finmap.lookup_insert_ite _ _ _ _

@[simp] theorem find_clear (d id : String) :
    (t.clear d).find id = if id = d then none else t.find id :=
  Finmap.lookup_erase_ite _ _ _

theorem find_change (d : String) (allowed : DeviceRecord → Bool)
    (f : DeviceRecord → DeviceRecord) (id : String) :
    (t.change d allowed f).2.find id =
      if id = d then (t.find d).map (fun record => if allowed record then f record else record)
      else t.find id := by
  rw [change]
  cases hd : t.find d with
  | none => split <;> simp_all
  | some record =>
    cases ha : allowed record with
    | true => simp [Option.filter, ha]
    | false =>
      simp only [Option.filter, ha, Bool.false_eq_true, if_false, Option.map_some]
      split
      · rename_i hid
        rw [hid, hd]
      · rfl

@[simp] theorem pool_change (d : String) (allowed : DeviceRecord → Bool)
    (f : DeviceRecord → DeviceRecord) : (t.change d allowed f).2.pool = t.pool := by
  rw [change]
  split <;> rfl

@[simp] theorem find_giveBack (d : String) (allowed : DeviceRecord → Bool) (id : String) :
    (t.giveBack d allowed).2.find id = t.find id := by
  rw [giveBack]
  split
  · split <;> rfl
  · rfl

end DeviceTable

namespace Operation

variable (link : SocketPtr → BratislavaLink)

def anyRecord (_ : DeviceRecord) : Bool := true

def ownedBy (socket : SocketPtr) (record : DeviceRecord) : Bool :=
  decide (record.socket = some socket)

/-- What each operation does to the table. -/
def spec : Operation → DeviceTable → Bool × DeviceTable
  | .add socket _, t =>
      let d := getDeviceID (link socket)
      (true, t.set d { (t.find d).getD {} with socket := some socket })
  | .remove socket, t =>
      let d := getDeviceID (link socket)
      match (t.find d).filter (ownedBy socket) with
      | some _ => (true, ((t.giveBack d (ownedBy socket)).2).clear d)
      | none => (false, t)
  | .createConfig d _, t => (true, t.set d ((t.find d).getD {}))
  | .removeUnusedConfig d, t =>
      match t.find d with
      | some record => if record.socket.isNone then (true, t.clear d) else (true, t)
      | none => (true, t)
  | .connect socket, t =>
      t.change (getDeviceID (link socket)) (ownedBy socket) fun x => { x with connected := true }
  | .disconnectSocket socket, t =>
      t.change (getDeviceID (link socket)) (ownedBy socket) fun x => { x with connected := false }
  | .disconnectId d, t => t.change d anyRecord fun x => { x with connected := false }
  | .addIP d ip, t => t.change d anyRecord fun x => { x with ip }
  | .addRemotePort d port, t =>
      if port < 0 then (false, t)
      else t.change d anyRecord fun x => { x with remotePort := port }
  | .addLocalPort d, t =>
      if h : t.pool.Nonempty then
        ({ t with pool := t.pool.erase (t.pool.min' h) }).change d anyRecord
          fun x => { x with localPort := t.pool.min' h }
      else (false, t)
  | .releaseLocalPortId d, t => t.giveBack d anyRecord
  | .releaseLocalPortSocket socket, t =>
      t.giveBack (getDeviceID (link socket)) (ownedBy socket)

end Operation

def deviceMachine (link : SocketPtr → BratislavaLink) :
    Runs.Machine DeviceTable Operation where
  guard _ _ := True
  next t op := (op.spec link t).2

/-! ## The refinement -/

def BratislavaSocketConfig.record (c : BratislavaSocketConfig) : DeviceRecord where
  socket := c.socket
  ip := c.ip
  localPort := c.localPort
  remotePort := c.remotePort
  connected := c.connected

/-- The table a registry stands for. -/
structure Represents (r : BratislavaSocketRegistry) (t : DeviceTable) : Prop where
  find : ∀ d, t.find d = (r.getConfigId d).map BratislavaSocketConfig.record
  pool : t.pool = r.availableLocalPorts

namespace Represents

open BratislavaSocketRegistry

variable {link : SocketPtr → BratislavaLink} {r : BratislavaSocketRegistry} {t : DeviceTable}

theorem empty : Represents BratislavaSocketRegistry.empty DeviceTable.empty where
  find d := by
    simp [DeviceTable.find, DeviceTable.empty, getConfigId, BratislavaSocketRegistry.empty]
  pool := rfl

theorem of_files (hR : Represents r t) {r' : BratislavaSocketRegistry} {t' : DeviceTable}
    {d : String} {v : Option BratislavaSocketConfig} (hfiles : Files r r' d v)
    (hd : t'.find d = v.map BratislavaSocketConfig.record)
    (hother : ∀ id, id ≠ d → t'.find id = t.find id)
    (hpool : t'.pool = r'.availableLocalPorts) : Represents r' t' where
  find id := by
    rw [hfiles.getConfigId]
    split
    · rename_i hid
      rw [hid, hd]
    · rename_i hid
      rw [hother id hid, hR.find]
  pool := hpool

theorem filter_eq (hR : Represents r t) (d : String) (allowed : DeviceRecord → Bool) :
    (t.find d).filter allowed =
      ((r.getConfigId d).filter fun c => allowed c.record).map BratislavaSocketConfig.record := by
  rw [hR.find]
  cases r.getConfigId d with
  | none => rfl
  | some c => cases ha : allowed c.record <;> simp [Option.filter, ha]

end Represents

/-- Both levels return the same, and what they leave is related again. -/
structure Simulates (link : SocketPtr → BratislavaLink) (out : Bool × BratislavaSocketRegistry)
    (spec : Bool × DeviceTable) : Prop where
  result : out.1 = spec.1
  represents : Represents out.2 spec.2
  consistent : BratislavaSocketRegistry.Consistent link out.2

namespace Simulates

open BratislavaSocketRegistry

variable {link : SocketPtr → BratislavaLink} {r : BratislavaSocketRegistry} {t : DeviceTable}

theorem unchanged (h : Consistent link r) (hR : Represents r t) (b : Bool) :
    Simulates link (b, r) (b, t) := ⟨rfl, hR, h⟩

/-- Every attribute setter changes one record. -/
theorem modifyConfig (h : Consistent link r) (hR : Represents r t) {d : String}
    {allowed : DeviceRecord → Bool} {change : BratislavaSocketConfig → BratislavaSocketConfig}
    {f : DeviceRecord → DeviceRecord} {found : Option BratislavaSocketConfig}
    (hfound : found = (r.getConfigId d).filter fun c => allowed c.record)
    (hs : ∀ c, (change c).socket = c.socket) (hid : ∀ c, (change c).deviceId = c.deviceId)
    (hf : ∀ c, (change c).record = f c.record) :
    Simulates link (r.modifyConfig found change) (t.change d allowed f) := by
  have hfilter := hR.filter_eq d allowed
  rw [← hfound] at hfilter
  cases hcase : found with
  | none =>
    rw [hcase] at hfilter
    simp only [BratislavaSocketRegistry.modifyConfig, DeviceTable.change, hfilter, Option.map_none]
    exact unchanged h hR false
  | some c =>
    rw [hcase] at hfilter hfound
    have hget : r.getConfigId d = some c := (Option.filter_eq_some_iff.mp hfound.symm).1
    have hd : c.deviceId = d := h.wellFormed.deviceId_of_getConfigId hget
    subst hd
    obtain ⟨htrue, hfiles⟩ := h.wellFormed.modifyConfig_files hget (hs c) (hid c)
    have hports : (r.modifyConfig (some c) change).2.availableLocalPorts =
        r.availableLocalPorts := by
      obtain ⟨p, hp, _⟩ := h.wellFormed.getConfigId_eq_some.mp hget
      simp only [BratislavaSocketRegistry.modifyConfig,
        h.wellFormed.updateConfig_eq hp _ (hs c) (hid c)]
    have hchange : t.change c.deviceId allowed f = (true, t.set c.deviceId (f c.record)) := by
      simp only [DeviceTable.change, hfilter, Option.map_some]
    rw [hchange]
    refine ⟨htrue, hR.of_files hfiles ?_ ?_ ?_, h.of_files hfiles ?_ ?_⟩
    · simp [hf]
    · intro id hne
      simp [hne]
    · rw [hports]
      exact hR.pool
    · rintro c' s hc' hs'
      cases hc'
      rw [hs] at hs'
      exact h.device s c (h.wellFormed.getConfigSocket_iff_getConfigId.mpr ⟨hget, hs'⟩)
    · rw [hports]
      exact h.ports

/-- Both overloads of the release look the port up and give it back. -/
theorem releaseLocalPortOf (h : Consistent link r) (hR : Represents r t) {d : String}
    (allowed : DeviceRecord → Bool) {found : Option BratislavaSocketConfig}
    (hfound : found = (r.getConfigId d).filter fun c => allowed c.record) :
    Simulates link (r.releaseLocalPortOf found) (t.giveBack d allowed) := by
  have hfilter := hR.filter_eq d allowed
  rw [← hfound] at hfilter
  cases found with
  | none =>
    simp only [BratislavaSocketRegistry.releaseLocalPortOf, DeviceTable.giveBack, hfilter,
      Option.map_none]
    exact unchanged h hR false
  | some c =>
    simp only [BratislavaSocketRegistry.releaseLocalPortOf, DeviceTable.giveBack, hfilter,
      Option.map_some, releaseLocalPort, BratislavaSocketConfig.record]
    by_cases hrange : minPort ≤ c.localPort ∧ c.localPort ≤ maxPort
    · have hne : c.localPort ≠ -1 := by
        have hlow := hrange.1
        simp only [minPort] at hlow
        omega
      simp only [hne, hrange, and_self, if_true, if_false]
      refine ⟨rfl, ⟨hR.find, by simp [hR.pool]⟩, ?_⟩
      refine ⟨((Files.refl h.wellFormed d).withPorts _).wellFormed, h.device, ?_⟩
      intro port hport
      rcases Finset.mem_insert.mp hport with rfl | hport
      · exact hrange
      · exact h.ports port hport
    · simp only [hrange, if_false]
      split
      · exact unchanged h hR false
      · exact unchanged h hR false

theorem add (h : Consistent link r) (hR : Represents r t) {socket : SocketPtr}
    {newConfig : ConfigPtr} (hadm : (Operation.add socket newConfig).Admissible link r) :
    Simulates link ((Operation.add socket newConfig).apply link r)
      ((Operation.add socket newConfig).spec link t) := by
  obtain ⟨hs, hdevice, hnew⟩ := hadm
  have hfree : ∀ c, r.getConfigId (getDeviceID (link socket)) = some c → c.socket = none := by
    intro c hc
    cases hsock : c.socket with
    | none => rfl
    | some s =>
      have hid := h.wellFormed.deviceId_of_getConfigId hc
      have hget : r.getConfigSocket s = some c :=
        h.wellFormed.getConfigSocket_iff_getConfigId.mpr ⟨hid ▸ hc, hsock⟩
      exact absurd ((h.device s c hget).symm.trans hid)
        (hdevice s (h.wellFormed.mem_sockets_iff.mpr ⟨c, hget⟩))
  have hfiles := add_files h.wellFormed hs hfree hnew
  have hports : (r.add socket (link socket) newConfig).availableLocalPorts =
      r.availableLocalPorts := by
    simp only [BratislavaSocketRegistry.add, createConfigSocket, updateConfigLocked]
    repeat' split
    all_goals first | rfl | (simp only [store]; split <;> rfl)
  refine ⟨rfl, hR.of_files hfiles ?_ ?_ ?_, h.of_files hfiles ?_ ?_⟩
  · simp only [Operation.spec, DeviceTable.find_set, if_true, hR.find, claimed, Option.map_some]
    cases r.getConfigId (getDeviceID (link socket)) with
    | none => rfl
    | some c => rfl
  · intro id hne
    simp [Operation.spec, hne]
  · exact hR.pool.trans hports.symm
  · rintro c s hc hcs
    cases hc
    cases hcs
    rfl
  · exact hports ▸ h.ports

theorem remove (h : Consistent link r) (hR : Represents r t) (socket : SocketPtr) :
    Simulates link ((Operation.remove socket).apply link r)
      ((Operation.remove socket).spec link t) := by
  have hfilter := hR.filter_eq (getDeviceID (link socket)) (Operation.ownedBy socket)
  have hsocket : r.getConfigSocket socket = (r.getConfigId (getDeviceID (link socket))).filter
      fun c => Operation.ownedBy socket c.record := h.getConfigSocket_eq socket
  rw [← hsocket] at hfilter
  cases hget : r.getConfigSocket socket with
  | none =>
    have hmem : socket ∉ r.sockets := by
      intro hmem
      obtain ⟨c, hc⟩ := h.wellFormed.mem_sockets_iff.mp hmem
      rw [hget] at hc
      cases hc
    rw [hget] at hfilter
    simp only [Operation.apply, Operation.spec, remove_unregistered hmem, hfilter,
      Option.map_none]
    exact unchanged h hR false
  | some c =>
    have hd := h.device socket c hget
    obtain ⟨p, hp, hs⟩ := h.wellFormed.getConfigSocket_eq_some.mp hget
    have hfiles := remove_files h.wellFormed hget
    have hrelease := releaseLocalPortOf h hR (Operation.ownedBy socket) hsocket
    rw [hget] at hfilter hrelease
    have heq := remove_eq h.wellFormed hp hs
    have hports : (r.remove socket).2.availableLocalPorts = r.portsAfterRelease c := by rw [heq]
    simp only [Operation.apply, Operation.spec, hfilter, Option.map_some]
    rw [hd] at hfiles
    refine ⟨by rw [heq], hR.of_files hfiles ?_ ?_ ?_, h.of_files hfiles ?_ ?_⟩
    · simp
    · intro id hne
      simp [hne]
    · rw [hports]
      exact hrelease.represents.pool
    · rintro _ _ hnone
      cases hnone
    · rw [hports]
      exact hrelease.consistent.ports

theorem createConfig (h : Consistent link r) (hR : Represents r t) {d : String}
    {newConfig : ConfigPtr} (hnew : newConfig ∉ r.configs) :
    Simulates link (true, r.createConfigId d newConfig)
      (true, t.set d ((t.find d).getD {})) := by
  have hports : (r.createConfigId d newConfig).availableLocalPorts = r.availableLocalPorts := by
    rw [createConfigId]
    split <;> rfl
  have hfiles := createConfigId_files h.wellFormed (d := d) hnew
  refine ⟨rfl, hR.of_files hfiles ?_ ?_ ?_, h.of_files hfiles ?_ ?_⟩
  · simp only [DeviceTable.find_set, if_true, hR.find, Option.map_some]
    cases r.getConfigId d with
    | none => rfl
    | some c => rfl
  · intro id hne
    simp [hne]
  · exact hR.pool.trans hports.symm
  · rintro c s hc hs
    cases hget : r.getConfigId d with
    | none =>
      rw [hget] at hc
      cases hc
      cases hs
    | some old =>
      rw [hget] at hc
      cases hc
      have hid := h.wellFormed.deviceId_of_getConfigId hget
      rw [← hid]
      exact h.device s old (h.wellFormed.getConfigSocket_iff_getConfigId.mpr ⟨hid ▸ hget, hs⟩)
  · exact hports ▸ h.ports

theorem removeUnusedConfig (h : Consistent link r) (hR : Represents r t) (d : String) :
    Simulates link ((Operation.removeUnusedConfig d).apply link r)
      ((Operation.removeUnusedConfig d).spec link t) := by
  have hports : (r.removeUnusedConfig d).availableLocalPorts = r.availableLocalPorts := by
    rw [BratislavaSocketRegistry.removeUnusedConfig]
    repeat' split
    all_goals rfl
  have hfiles := removeUnusedConfig_files h.wellFormed d
  have hfind := hR.find d
  cases hget : r.getConfigId d with
  | none =>
    rw [hget] at hfiles hfind
    simp only [Operation.apply, Operation.spec, hfind, Option.map_none]
    refine ⟨rfl, hR.of_files hfiles hfind (fun _ _ => rfl) (hR.pool.trans hports.symm),
      h.of_files hfiles ?_ (hports ▸ h.ports)⟩
    rintro _ _ hnone
    cases hnone
  | some c =>
    rw [hget] at hfiles hfind
    simp only [Operation.apply, Operation.spec, hfind, Option.map_some,
      BratislavaSocketConfig.record]
    cases hs : c.socket with
    | none =>
      simp only [Option.filter, hs, Option.isSome_none, Bool.false_eq_true, if_false] at hfiles
      refine ⟨rfl, hR.of_files hfiles ?_ ?_ (hR.pool.trans hports.symm),
        h.of_files hfiles ?_ (hports ▸ h.ports)⟩
      · simp
      · intro id hne
        simp [hne]
      · rintro _ _ hnone
        cases hnone
    | some s =>
      simp only [Option.filter, hs, Option.isSome_some, if_true] at hfiles
      refine ⟨rfl, hR.of_files hfiles hfind (fun _ _ => rfl) (hR.pool.trans hports.symm),
        h.of_files hfiles ?_ (hports ▸ h.ports)⟩
      rintro c' s' hc' hs'
      cases hc'
      have hid := h.wellFormed.deviceId_of_getConfigId hget
      rw [← hid]
      exact h.device s' c (h.wellFormed.getConfigSocket_iff_getConfigId.mpr ⟨hid ▸ hget, hs'⟩)

theorem byId (r : BratislavaSocketRegistry) (d : String) :
    r.getConfigId d = (r.getConfigId d).filter fun c => Operation.anyRecord c.record := by
  cases r.getConfigId d <;> rfl

theorem addLocalPort (h : Consistent link r) (hR : Represents r t) (d : String) :
    Simulates link ((Operation.addLocalPort d).apply link r)
      ((Operation.addLocalPort d).spec link t) := by
  obtain ⟨records, pool⟩ := t
  obtain rfl : pool = r.availableLocalPorts := hR.pool
  by_cases hne : r.availableLocalPorts.Nonempty
  · simp only [Operation.apply, Operation.spec, BratislavaSocketRegistry.addLocalPort,
      acquireLocalPort_of_nonempty hne, dif_pos hne, if_pos (h.least_ne hne)]
    set port := r.availableLocalPorts.min' hne
    set taken : BratislavaSocketRegistry :=
      { r with availableLocalPorts := r.availableLocalPorts.erase port } with htaken
    have hwell : WellFormed taken := ((Files.refl h.wellFormed d).withPorts _).wellFormed
    have hconsistent : Consistent link taken :=
      ⟨hwell, h.device, fun p hp => h.ports p (Finset.mem_of_mem_erase hp)⟩
    have hrepresents : Represents taken ⟨records, r.availableLocalPorts.erase port⟩ :=
      ⟨hR.find, rfl⟩
    exact modifyConfig hconsistent hrepresents (byId taken d) (fun _ => rfl) (fun _ => rfl)
      (fun _ => rfl)
  · have hempty : r.availableLocalPorts = ∅ := Finset.not_nonempty_iff_eq_empty.mp hne
    simp only [Operation.apply, Operation.spec, BratislavaSocketRegistry.addLocalPort,
      acquireLocalPort_of_empty hempty, dif_neg hne, ne_eq, not_true_eq_false, if_false]
    exact unchanged h hR false

/-- One operation on both levels. -/
theorem operation (h : Consistent link r) (hR : Represents r t) (op : Operation)
    (hadm : op.Admissible link r) : Simulates link (op.apply link r) (op.spec link t) := by
  have bySocket : ∀ s, r.getConfigSocket s = (r.getConfigId (getDeviceID (link s))).filter
      fun c => Operation.ownedBy s c.record := h.getConfigSocket_eq
  cases op with
  | add socket newConfig => exact add h hR hadm
  | remove socket => exact remove h hR socket
  | createConfig d newConfig => exact createConfig h hR hadm
  | removeUnusedConfig d => exact removeUnusedConfig h hR d
  | connect socket =>
    exact modifyConfig h hR (bySocket socket) (fun _ => rfl) (fun _ => rfl) (fun _ => rfl)
  | disconnectSocket socket =>
    exact modifyConfig h hR (bySocket socket) (fun _ => rfl) (fun _ => rfl) (fun _ => rfl)
  | disconnectId d =>
    exact modifyConfig h hR (byId r d) (fun _ => rfl) (fun _ => rfl) (fun _ => rfl)
  | addIP d ip =>
    exact modifyConfig h hR (byId r d) (fun _ => rfl) (fun _ => rfl) (fun _ => rfl)
  | addRemotePort d port =>
    simp only [Operation.apply, Operation.spec, addRemotePort]
    split
    · exact unchanged h hR false
    · exact modifyConfig h hR (byId r d) (fun _ => rfl) (fun _ => rfl) (fun _ => rfl)
  | addLocalPort d => exact addLocalPort h hR d
  | releaseLocalPortId d => exact releaseLocalPortOf h hR Operation.anyRecord (byId r d)
  | releaseLocalPortSocket socket => exact releaseLocalPortOf h hR (Operation.ownedBy socket) (bySocket socket)

/-- One level for each, from the empty registry on. -/
theorem run {ops : List Operation} (hlegal : (registryMachine link).Legal .empty ops) :
    Consistent link ((registryMachine link).run .empty ops) ∧
      Represents ((registryMachine link).run .empty ops) ((deviceMachine link).run .empty ops) :=
  hlegal.simulation (R := fun r t => Consistent link r ∧ Represents r t)
    (fun _ _ op hR hadm =>
      have hop := operation hR.1 hR.2 op hadm
      ⟨hop.consistent, hop.represents⟩)
    ⟨empty_consistent, Represents.empty⟩

end Simulates

/-- An operation leaves the records of the other devices as they are. -/
theorem Operation.spec_find_of_ne (link : SocketPtr → BratislavaLink) (op : Operation)
    (t : DeviceTable) {d : String} (hd : d ≠ op.device link) :
    (op.spec link t).2.find d = t.find d := by
  cases op with
  | add | createConfig | connect | disconnectSocket | disconnectId | addIP =>
    simp only [Operation.device] at hd
    simp [Operation.spec, DeviceTable.find_change, hd]
  | releaseLocalPortId | releaseLocalPortSocket => simp [Operation.spec]
  | remove | removeUnusedConfig =>
    simp only [Operation.device] at hd
    simp only [Operation.spec]
    repeat' split
    all_goals simp [hd]
  | addRemotePort =>
    simp only [Operation.device] at hd
    simp only [Operation.spec]
    split <;> simp [DeviceTable.find_change, hd]
  | addLocalPort =>
    simp only [Operation.device] at hd
    simp only [Operation.spec]
    split
    · simp only [DeviceTable.find_change, hd, if_false]
      rfl
    · rfl

/-- The registry read as one table: no pointer dangles, a config is filed under one id, and
every query, by socket or by id, reads the record of the device. -/
structure OneRecordPerDevice (link : SocketPtr → BratislavaLink) (r : BratislavaSocketRegistry)
    (t : DeviceTable) : Prop where
  socketPointers : ∀ s p, r.sockToConfig.lookup s = some p → p ∈ r.configs
  idPointers : ∀ d p, r.deviceIdToConfig.lookup d = some p → p ∈ r.configs
  filedOnce : ∀ p ∈ r.configs, ∃! d, r.deviceIdToConfig.lookup d = some p
  represents : Represents r t
  existsId : ∀ d, r.existsId d = (t.find d).any fun x => x.socket.isSome
  isConnectedId : ∀ d, r.isConnectedId d = (t.find d).any fun x => x.connected
  getIP : ∀ d, r.getIP d = (t.find d).map fun x => x.ip
  getLocalPort : ∀ d, r.getLocalPort d = ((t.find d).map fun x => x.localPort).getD (-1)
  getRemotePort : ∀ d, r.getRemotePort d = ((t.find d).map fun x => x.remotePort).getD (-1)
  registered : ∀ s, s ∈ r.sockets ↔
    ∃ x, t.find (getDeviceID (link s)) = some x ∧ x.socket = some s
  getConfigSocket : ∀ s ∈ r.sockets, r.getConfigSocket s = r.getConfigId (getDeviceID (link s))
  existsSocket : ∀ s ∈ r.sockets, r.existsSocket s = r.existsId (getDeviceID (link s))
  isConnectedSocket : ∀ s ∈ r.sockets,
    r.isConnectedSocket s = r.isConnectedId (getDeviceID (link s))

theorem OneRecordPerDevice.of_represents {link : SocketPtr → BratislavaLink}
    {r : BratislavaSocketRegistry} {t : DeviceTable} (h : r.Consistent link)
    (hR : Represents r t) : OneRecordPerDevice link r t := by
  have hsocket : ∀ s ∈ r.sockets, ∃ c, r.getConfigSocket s = some c ∧
      r.getConfigId (getDeviceID (link s)) = some c ∧ c.socket = some s := by
    intro s hs
    obtain ⟨c, hc⟩ := h.wellFormed.mem_sockets_iff.mp hs
    obtain ⟨hid, hown⟩ := h.wellFormed.getConfigSocket_iff_getConfigId.mp hc
    exact ⟨c, hc, h.device s c hc ▸ hid, hown⟩
  refine
    { socketPointers := ?_, idPointers := ?_, filedOnce := ?_, represents := hR
      existsId := ?_, isConnectedId := ?_, getIP := ?_, getLocalPort := ?_, getRemotePort := ?_
      registered := ?_, getConfigSocket := ?_, existsSocket := ?_, isConnectedSocket := ?_ }
  · intro s p hp
    obtain ⟨c, hc, _⟩ := h.wellFormed.socketLive s p hp
    exact Finmap.mem_iff.mpr ⟨c, hc⟩
  · intro d p hp
    obtain ⟨c, hc, _⟩ := h.wellFormed.idLive d p hp
    exact Finmap.mem_iff.mpr ⟨c, hc⟩
  · intro p hp
    obtain ⟨c, hc⟩ := Finmap.mem_iff.mp hp
    exact ⟨c.deviceId, h.wellFormed.filed p c hc,
      fun d hd => (h.wellFormed.getConfigId_iff_lookup hc).mp hd⟩
  · intro d
    rw [hR.find, BratislavaSocketRegistry.existsId]
    cases r.getConfigId d <;> rfl
  · intro d
    rw [hR.find, BratislavaSocketRegistry.isConnectedId]
    cases r.getConfigId d <;> rfl
  · intro d
    rw [hR.find, BratislavaSocketRegistry.getIP, Option.map_map]
    rfl
  · intro d
    rw [hR.find, BratislavaSocketRegistry.getLocalPort]
    cases r.getConfigId d <;> rfl
  · intro d
    rw [hR.find, BratislavaSocketRegistry.getRemotePort]
    cases r.getConfigId d <;> rfl
  · intro s
    constructor
    · intro hs
      obtain ⟨c, _, hid, hown⟩ := hsocket s hs
      exact ⟨c.record, by rw [hR.find, hid]; rfl, hown⟩
    · rintro ⟨x, hx, hown⟩
      rw [hR.find, Option.map_eq_some_iff] at hx
      obtain ⟨c, hc, rfl⟩ := hx
      have hid := h.wellFormed.deviceId_of_getConfigId hc
      exact h.wellFormed.mem_sockets_iff.mpr
        ⟨c, h.wellFormed.getConfigSocket_iff_getConfigId.mpr ⟨hid ▸ hc, hown⟩⟩
  · intro s hs
    obtain ⟨c, hc, hid, _⟩ := hsocket s hs
    rw [hc, hid]
  · intro s hs
    obtain ⟨c, _, hid, hown⟩ := hsocket s hs
    simp [BratislavaSocketRegistry.existsSocket, BratislavaSocketRegistry.existsId, hs, hid, hown]
  · intro s hs
    obtain ⟨c, hc, hid, _⟩ := hsocket s hs
    rw [BratislavaSocketRegistry.isConnectedSocket, BratislavaSocketRegistry.isConnectedId, hc, hid]

/-- Every legal run of the registry is a run of the table: the same answers, one record for
each device, and no effect of an operation on the record of another device. -/
theorem registry_refines_devices (link : SocketPtr → BratislavaLink) (ops : List Operation)
    (hlegal : (registryMachine link).Legal .empty ops) :
    OneRecordPerDevice link ((registryMachine link).run .empty ops)
        ((deviceMachine link).run .empty ops) ∧
      ∀ op : Operation, op.Admissible link ((registryMachine link).run .empty ops) →
        (op.apply link ((registryMachine link).run .empty ops)).1 =
            (op.spec link ((deviceMachine link).run .empty ops)).1 ∧
          OneRecordPerDevice link (op.apply link ((registryMachine link).run .empty ops)).2
            (op.spec link ((deviceMachine link).run .empty ops)).2 ∧
          ∀ d, d ≠ op.device link →
            (op.spec link ((deviceMachine link).run .empty ops)).2.find d =
              ((deviceMachine link).run .empty ops).find d := by
  obtain ⟨hconsistent, hrepresents⟩ := Simulates.run hlegal
  refine ⟨.of_represents hconsistent hrepresents, fun op hadm => ?_⟩
  have hop := Simulates.operation hconsistent hrepresents op hadm
  exact ⟨hop.result, .of_represents hop.consistent hop.represents,
    fun d hd => op.spec_find_of_ne link _ hd⟩

theorem registry_refines_devices_two_peers :
    OneRecordPerDevice wifiPeers
      ((registryMachine wifiPeers).run .empty
        [.createConfig "aa" 7, .add 1 8, .addIP "aa" "10.0.0.2", .add 2 9, .connect 2, .remove 1])
      ((deviceMachine wifiPeers).run .empty
        [.createConfig "aa" 7, .add 1 8, .addIP "aa" "10.0.0.2", .add 2 9, .connect 2,
          .remove 1]) :=
  (registry_refines_devices wifiPeers _ (by decide)).1

end SensorLib
