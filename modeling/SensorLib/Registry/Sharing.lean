import SensorLib.Registry.Rules

/-! # The pointers of the registry between two critical sections

Threads that take turns leave less intact than whole calls do. What is left
says for each socket with a config that the config is its own, and which
device a config is for. The device of a socket never changes.
-/

namespace SensorLib

/-- A config that names a socket is for the device of that socket. -/
def BratislavaSocketConfig.Tagged (device : SocketPtr → Option String)
    (c : BratislavaSocketConfig) : Prop :=
  ∀ s, c.socket = some s → device s = some c.deviceId

namespace BratislavaSocketRegistry

structure Shared (device : SocketPtr → Option String) (r : BratislavaSocketRegistry) : Prop where
  socketLive : ∀ s p, r.sockToConfig.lookup s = some p →
    ∃ c, r.configs.lookup p = some c ∧ c.socket = some s
  idLive : ∀ id p, r.deviceIdToConfig.lookup id = some p →
    ∃ c, r.configs.lookup p = some c ∧ c.deviceId = id
  filed : ∀ p c, r.configs.lookup p = some c → r.deviceIdToConfig.lookup c.deviceId = some p
  tagged : ∀ p c, r.configs.lookup p = some c → c.Tagged device

/-- The config that `UpdateConfig` overwrites. -/
def updateTarget (r : BratislavaSocketRegistry) (config : BratislavaSocketConfig) :
    Option ConfigPtr :=
  (config.socket.bind fun s => r.sockToConfig.lookup s).or
    (r.deviceIdToConfig.lookup config.deviceId)

/-- The config that is overwritten does not belong to a socket that the copy does not name. -/
def writesOwn (r : BratislavaSocketRegistry) (config : BratislavaSocketConfig) : Bool :=
  match r.updateTarget config with
  | none => true
  | some p =>
    match (r.configs.lookup p).bind fun c => c.socket with
    | none => true
    | some s => decide (r.sockToConfig.lookup s = some p → config.socket = some s)

theorem updateConfig_target (r : BratislavaSocketRegistry) (c : BratislavaSocketConfig) :
    (r.updateConfig c).2 =
      match r.updateTarget c with
      | some p => r.store p c
      | none => r := by
  unfold updateConfig updateConfigLocked updateTarget
  split
  · rename_i p hp
    simp only [hp, Option.some_or]
  · rename_i hnone
    rw [hnone, Option.none_or]
    cases r.deviceIdToConfig.lookup c.deviceId <;> rfl

section Sockets

variable (r : BratislavaSocketRegistry)

/-! ## Only two methods change which sockets have a config -/

@[simp] theorem sockToConfig_store (p : ConfigPtr) (c : BratislavaSocketConfig) :
    (r.store p c).sockToConfig = r.sockToConfig := by
  unfold store
  split <;> rfl

@[simp] theorem sockToConfig_updateConfig (c : BratislavaSocketConfig) :
    (r.updateConfig c).2.sockToConfig = r.sockToConfig := by
  rw [updateConfig_target]
  split
  · exact sockToConfig_store r _ c
  · rfl

@[simp] theorem sockToConfig_createConfigId (id : String) (p : ConfigPtr) :
    (r.createConfigId id p).sockToConfig = r.sockToConfig := by
  unfold createConfigId
  split <;> rfl

@[simp] theorem sockToConfig_removeUnusedConfig (id : String) :
    (r.removeUnusedConfig id).sockToConfig = r.sockToConfig := by
  unfold removeUnusedConfig
  split
  · split
    · split <;> rfl
    · rfl
  · rfl

/-! ## Only `Add` and `Remove` change the handles that are registered -/

@[simp] theorem sockets_store (p : ConfigPtr) (c : BratislavaSocketConfig) :
    (r.store p c).sockets = r.sockets := by
  unfold store
  split <;> rfl

@[simp] theorem sockets_updateConfigLocked (c : BratislavaSocketConfig) :
    (r.updateConfigLocked c).2.sockets = r.sockets := by
  unfold updateConfigLocked
  split
  · exact sockets_store r _ c
  · split
    · exact sockets_store r _ c
    · rfl

@[simp] theorem sockets_updateConfig (c : BratislavaSocketConfig) :
    (r.updateConfig c).2.sockets = r.sockets := sockets_updateConfigLocked r c

@[simp] theorem sockets_createConfigSocket (s : SocketPtr) (link : BratislavaLink)
    (p : ConfigPtr) : (r.createConfigSocket s link p).sockets = r.sockets := by
  unfold createConfigSocket
  simp only
  split
  · split
    · exact sockets_updateConfigLocked r _
    · rfl
  · rfl

@[simp] theorem sockets_createConfigId (id : String) (p : ConfigPtr) :
    (r.createConfigId id p).sockets = r.sockets := by
  unfold createConfigId
  split <;> rfl

@[simp] theorem sockets_removeConfig (s : SocketPtr) :
    (r.removeConfig s).sockets = r.sockets := by
  unfold removeConfig
  split
  · split <;> rfl
  · rfl

@[simp] theorem sockets_removeUnusedConfig (id : String) :
    (r.removeUnusedConfig id).sockets = r.sockets := by
  unfold removeUnusedConfig
  split
  · split
    · split <;> rfl
    · rfl
  · rfl

@[simp] theorem sockets_acquireLocalPort : r.acquireLocalPort.2.sockets = r.sockets := by
  unfold acquireLocalPort
  split <;> rfl

theorem sockets_addLocalPort (d : String) : (r.addLocalPort d).2.sockets = r.sockets := by
  simp only [addLocalPort]
  split
  · cases r.acquireLocalPort.2.getConfigId d with
    | none => exact sockets_acquireLocalPort r
    | some c => exact (sockets_updateConfig _ _).trans (sockets_acquireLocalPort r)
  · exact sockets_acquireLocalPort r

@[simp] theorem sockets_releaseLocalPort (port : Int) :
    (r.releaseLocalPort port).2.sockets = r.sockets := by
  unfold releaseLocalPort
  split <;> rfl

end Sockets

variable {device : SocketPtr → Option String} {r : BratislavaSocketRegistry}

namespace Shared

variable (h : Shared device r)

include h

theorem config_unique {p q : ConfigPtr} {c d : BratislavaSocketConfig}
    (hp : r.configs.lookup p = some c) (hq : r.configs.lookup q = some d)
    (hid : c.deviceId = d.deviceId) : p = q := by
  have hpf := h.filed p c hp
  rw [hid, h.filed q d hq] at hpf
  exact (Option.some.inj hpf).symm

/-- A socket with a config is of the device that the config is for. -/
theorem device_of_lookup {s : SocketPtr} {p : ConfigPtr} {c : BratislavaSocketConfig}
    (hs : r.sockToConfig.lookup s = some p) (hp : r.configs.lookup p = some c) :
    device s = some c.deviceId := by
  obtain ⟨c', hc', hsocket⟩ := h.socketLive s p hs
  rw [hp] at hc'
  cases hc'
  exact h.tagged p c hp s hsocket

/-- The target of an update is live, and for the device of the copy. -/
theorem live_target {c : BratislavaSocketConfig} (hc : c.Tagged device) {p : ConfigPtr}
    (hp : r.updateTarget c = some p) :
    ∃ c₀, r.configs.lookup p = some c₀ ∧ c₀.deviceId = c.deviceId := by
  rcases Option.or_eq_some_iff.mp hp with hsock | ⟨-, hid⟩
  · obtain ⟨s, hs, hsp⟩ := Option.bind_eq_some_iff.mp hsock
    obtain ⟨c₀, hc₀, -⟩ := h.socketLive s p hsp
    have hdevice := h.device_of_lookup hsp hc₀
    rw [hc s hs] at hdevice
    exact ⟨c₀, hc₀, (Option.some.inj hdevice).symm⟩
  · exact h.idLive _ p hid

theorem writesOwn_iff {c : BratislavaSocketConfig} :
    r.writesOwn c = true ↔
      ∀ s p, r.updateTarget c = some p → r.sockToConfig.lookup s = some p →
        c.socket = some s := by
  unfold writesOwn
  constructor
  · intro hown s p hp hs
    obtain ⟨c₀, hc₀, hsocket⟩ := h.socketLive s p hs
    simp only [hp, hc₀, Option.bind_some, hsocket] at hown
    exact of_decide_eq_true hown hs
  · intro hall
    split
    · rfl
    · rename_i p hp
      split
      · rfl
      · rename_i s _
        exact decide_eq_true (hall s p hp)

/-- A config is overwritten by one for the same device, which names the socket it belongs to. -/
theorem store {p : ConfigPtr} {c c₀ : BratislavaSocketConfig} (hp : r.configs.lookup p = some c₀)
    (hid : c₀.deviceId = c.deviceId) (hc : c.Tagged device)
    (hsocket : ∀ s, r.sockToConfig.lookup s = some p → c.socket = some s) :
    Shared device { r with configs := r.configs.insert p c } where
  socketLive s q hq := by
    simp only [Finmap.lookup_insert_ite]
    split
    · rename_i hqp
      exact ⟨c, rfl, hsocket s (hqp ▸ hq)⟩
    · exact h.socketLive s q hq
  idLive id q hq := by
    simp only [Finmap.lookup_insert_ite]
    split
    · rename_i hqp
      subst hqp
      obtain ⟨d, hd, hdid⟩ := h.idLive id q hq
      rw [hp] at hd
      cases hd
      exact ⟨c, rfl, hid.symm.trans hdid⟩
    · exact h.idLive id q hq
  filed q d hq := by
    rcases Finmap.lookup_insert_eq_some.mp hq with ⟨rfl, rfl⟩ | ⟨_, hq⟩
    · rw [← hid]
      exact h.filed q c₀ hp
    · exact h.filed q d hq
  tagged q d hq := by
    rcases Finmap.lookup_insert_eq_some.mp hq with ⟨rfl, rfl⟩ | ⟨_, hq⟩
    · exact hc
    · exact h.tagged q d hq

theorem updateConfig {c : BratislavaSocketConfig} (hc : c.Tagged device)
    (hown : r.writesOwn c = true) : Shared device (r.updateConfig c).2 := by
  rw [updateConfig_target]
  cases hp : r.updateTarget c with
  | none => exact h
  | some p =>
    obtain ⟨c₀, hc₀, hid⟩ := h.live_target hc hp
    simp only [store_of_lookup hc₀]
    exact h.store hc₀ hid hc fun s hs => h.writesOwn_iff.mp hown s p hp hs

/-- A new config without a socket. -/
theorem new {p : ConfigPtr} {d : String} (hp : p ∉ r.configs)
    (hd : r.deviceIdToConfig.lookup d = none) {c : BratislavaSocketConfig} (hid : c.deviceId = d)
    (hc : c.Tagged device) :
    Shared device { r with configs := r.configs.insert p c
                           deviceIdToConfig := r.deviceIdToConfig.insert d p } := by
  have hfresh {q : ConfigPtr} {e : BratislavaSocketConfig} (hq : r.configs.lookup q = some e) :
      q ≠ p := by
    rintro rfl
    exact hp (Finmap.mem_iff.mpr ⟨e, hq⟩)
  have hkeep {q : ConfigPtr} {e : BratislavaSocketConfig} (hq : r.configs.lookup q = some e) :
      (r.configs.insert p c).lookup q = some e :=
    Finmap.lookup_insert_eq_some.mpr (Or.inr ⟨hfresh hq, hq⟩)
  refine ⟨fun s q hq => ?_, fun id q hq => ?_, fun q e hq => ?_, fun q e hq => ?_⟩
  · obtain ⟨e, he, hs⟩ := h.socketLive s q hq
    exact ⟨e, hkeep he, hs⟩
  · rcases Finmap.lookup_insert_eq_some.mp hq with ⟨rfl, rfl⟩ | ⟨_, hq⟩
    · exact ⟨c, Finmap.lookup_insert _, hid⟩
    · obtain ⟨e, he, heid⟩ := h.idLive id q hq
      exact ⟨e, hkeep he, heid⟩
  · rcases Finmap.lookup_insert_eq_some.mp hq with ⟨rfl, rfl⟩ | ⟨_, hold⟩
    · rw [hid]
      exact Finmap.lookup_insert _
    · have hfiled := h.filed q e hold
      have hne : e.deviceId ≠ d := by
        intro heq
        rw [heq, hd] at hfiled
        cases hfiled
      simp only [Finmap.lookup_insert_of_ne _ hne]
      exact hfiled
  · rcases Finmap.lookup_insert_eq_some.mp hq with ⟨rfl, rfl⟩ | ⟨_, hq⟩
    · exact hc
    · exact h.tagged q e hq

/-- A socket is given a config that names it. -/
theorem enter {s : SocketPtr} {p : ConfigPtr} {c : BratislavaSocketConfig}
    (hp : r.configs.lookup p = some c) (hs : c.socket = some s) :
    Shared device { r with sockToConfig := r.sockToConfig.insert s p } where
  socketLive x q hq := by
    rcases Finmap.lookup_insert_eq_some.mp hq with ⟨rfl, rfl⟩ | ⟨_, hq⟩
    · exact ⟨c, hp, hs⟩
    · exact h.socketLive x q hq
  idLive := h.idLive
  filed := h.filed
  tagged := h.tagged

theorem createConfigSocket {s : SocketPtr} {link : BratislavaLink} {p : ConfigPtr}
    (hdevice : device s = some (getDeviceID link))
    (hone : ∀ x ∈ r.sockToConfig, device x ≠ some (getDeviceID link)) (hp : p ∉ r.configs) :
    Shared device (r.createConfigSocket s link p) := by
  have hnot : r.sockToConfig.lookup s = none :=
    Finmap.lookup_eq_none.mpr fun hs => hone s hs hdevice
  unfold BratislavaSocketRegistry.createConfigSocket
  simp only
  split
  · rename_i q hq
    obtain ⟨c, hc, hid⟩ := h.idLive _ q hq
    simp only [hc, updateConfigLocked, Option.bind_some, hnot, hq, store_of_lookup hc]
    refine enter (c := { c with socket := some s, deviceId := getDeviceID link })
      (h.store hc hid ?_ fun x hx => ?_) (Finmap.lookup_insert _) rfl
    · rintro x ⟨⟩
      exact hdevice
    · have hxdevice := h.device_of_lookup hx hc
      rw [hid] at hxdevice
      exact absurd hxdevice (hone x (Finmap.mem_iff.mpr ⟨q, hx⟩))
  · rename_i hq
    refine (h.new hp hq rfl ?_).enter (Finmap.lookup_insert _) rfl
    rintro x ⟨⟩
    exact hdevice

theorem createConfigId {d : String} {p : ConfigPtr} (hp : p ∉ r.configs) :
    Shared device (r.createConfigId d p) := by
  unfold BratislavaSocketRegistry.createConfigId
  split
  · exact h
  · rename_i hd
    exact h.new hp hd rfl fun s hs => by cases hs

/-- A config is freed that belongs to no socket but those that lose theirs. -/
theorem erase {p : ConfigPtr} {c : BratislavaSocketConfig} (hp : r.configs.lookup p = some c)
    (sockToConfig : UnorderedMap SocketPtr ConfigPtr)
    (hmap : ∀ s q, sockToConfig.lookup s = some q → r.sockToConfig.lookup s = some q ∧ q ≠ p) :
    Shared device { r with sockToConfig
                           deviceIdToConfig := r.deviceIdToConfig.erase c.deviceId
                           configs := r.configs.erase p } where
  socketLive s q hq := by
    obtain ⟨hold, hqp⟩ := hmap s q hq
    obtain ⟨d, hd, hs⟩ := h.socketLive s q hold
    exact ⟨d, Finmap.lookup_erase_eq_some.mpr ⟨hqp, hd⟩, hs⟩
  idLive id q hq := by
    obtain ⟨hid, hold⟩ := Finmap.lookup_erase_eq_some.mp hq
    obtain ⟨d, hd, hdid⟩ := h.idLive id q hold
    have hqp : q ≠ p := by
      rintro rfl
      rw [hp] at hd
      cases hd
      exact hid hdid.symm
    exact ⟨d, Finmap.lookup_erase_eq_some.mpr ⟨hqp, hd⟩, hdid⟩
  filed q d hq := by
    obtain ⟨hqp, hd⟩ := Finmap.lookup_erase_eq_some.mp hq
    exact Finmap.lookup_erase_eq_some.mpr
      ⟨fun hid => hqp (h.config_unique hd hp hid), h.filed q d hd⟩
  tagged q d hq := h.tagged q d (Finmap.lookup_erase_eq_some.mp hq).2

theorem removeConfig (s : SocketPtr) : Shared device (r.removeConfig s) := by
  unfold BratislavaSocketRegistry.removeConfig
  split
  · rename_i p hp
    obtain ⟨c, hc, hs⟩ := h.socketLive s p hp
    simp only [hc]
    refine h.erase hc _ fun x q hq => ?_
    obtain ⟨hxs, hq⟩ := Finmap.lookup_erase_eq_some.mp hq
    refine ⟨hq, ?_⟩
    rintro rfl
    obtain ⟨c', hc', hx⟩ := h.socketLive x q hq
    rw [hc] at hc'
    cases hc'
    exact hxs (Option.some.inj (hx.symm.trans hs))
  · exact h

theorem mem_createConfigSocket (s : SocketPtr) (link : BratislavaLink) (p : ConfigPtr)
    {x : SocketPtr} :
    x ∈ (r.createConfigSocket s link p).sockToConfig ↔ x = s ∨ x ∈ r.sockToConfig := by
  unfold BratislavaSocketRegistry.createConfigSocket
  simp only
  split
  · rename_i q hq
    obtain ⟨c, hc, -⟩ := h.idLive _ q hq
    have hsame := sockToConfig_updateConfig r
      { c with socket := some s, deviceId := getDeviceID link }
    simp only [hc]
    rw [Finmap.mem_insert]
    exact or_congr_right (Iff.of_eq (congrArg (x ∈ ·) hsame))
  · exact Finmap.mem_insert

theorem mem_removeConfig (s : SocketPtr) {x : SocketPtr} :
    x ∈ (r.removeConfig s).sockToConfig ↔ x ≠ s ∧ x ∈ r.sockToConfig := by
  unfold BratislavaSocketRegistry.removeConfig
  split
  · rename_i p hp
    obtain ⟨c, hc, -⟩ := h.socketLive s p hp
    simp only [hc]
    exact Finmap.mem_erase
  · rename_i hnone
    constructor
    · intro hx
      refine ⟨?_, hx⟩
      rintro rfl
      exact Finmap.lookup_eq_none.mp hnone hx
    · exact And.right

/-- What `RemoveUnusedConfig` frees belongs to no socket. -/
theorem removeUnusedConfig (d : String) : Shared device (r.removeUnusedConfig d) := by
  unfold BratislavaSocketRegistry.removeUnusedConfig
  split
  · rename_i p hp
    obtain ⟨c, hc, rfl⟩ := h.idLive d p hp
    simp only [hc]
    split
    · rename_i hnone
      refine h.erase hc _ fun s q hq => ⟨hq, ?_⟩
      rintro rfl
      obtain ⟨c', hc', hs⟩ := h.socketLive s q hq
      rw [hc] at hc'
      cases hc'
      rw [hs] at hnone
      cases hnone
    · exact h
  · exact h

theorem removeUnusedConfig_spares (d : String) {s : SocketPtr} {p : ConfigPtr}
    (hs : r.sockToConfig.lookup s = some p) : p ∈ (r.removeUnusedConfig d).configs := by
  rw [← sockToConfig_removeUnusedConfig r d] at hs
  obtain ⟨c, hc, -⟩ := (h.removeUnusedConfig d).socketLive s p hs
  exact Finmap.mem_iff.mpr ⟨c, hc⟩

/-- Ports do not matter. -/
theorem withPorts (ports : Finset Int) : Shared device { r with availableLocalPorts := ports } :=
  ⟨h.socketLive, h.idLive, h.filed, h.tagged⟩

end Shared

theorem WellFormed.shared (h : WellFormed r)
    (htagged : ∀ p c, r.configs.lookup p = some c → c.Tagged device) : Shared device r where
  socketLive := h.socketLive
  idLive := h.idLive
  filed := h.filed
  tagged := htagged

end BratislavaSocketRegistry

end SensorLib
