import SensorLib.Registry.Sharing

/-! # What the pointers depend on

Of a config, the pointers depend on its socket and its device only. An update
that leaves these as they are leaves the registry as well formed as it was.
-/

namespace SensorLib

/-- The socket and the device that a config is for. -/
def BratislavaSocketConfig.owner (c : BratislavaSocketConfig) : Option SocketPtr × String :=
  (c.socket, c.deviceId)

namespace BratislavaSocketRegistry

/-- The pointers are the same, and configs are for the same sockets and devices. -/
structure SameOwners (r r' : BratislavaSocketRegistry) : Prop where
  sockets : r'.sockets = r.sockets
  sockToConfig : r'.sockToConfig = r.sockToConfig
  deviceIdToConfig : r'.deviceIdToConfig = r.deviceIdToConfig
  configs : ∀ p, (r'.configs.lookup p).map (·.owner) = (r.configs.lookup p).map (·.owner)

namespace SameOwners

variable {r r' : BratislavaSocketRegistry}

theorem refl (r : BratislavaSocketRegistry) : SameOwners r r := ⟨rfl, rfl, rfl, fun _ => rfl⟩

theorem symm (h : SameOwners r r') : SameOwners r' r :=
  ⟨h.sockets.symm, h.sockToConfig.symm, h.deviceIdToConfig.symm, fun p => (h.configs p).symm⟩

theorem withPorts (r : BratislavaSocketRegistry) (ports : Finset Int) :
    SameOwners r { r with availableLocalPorts := ports } := ⟨rfl, rfl, rfl, fun _ => rfl⟩

theorem withSockets (h : SameOwners r r') (sockets : List SocketPtr) :
    SameOwners { r with sockets } { r' with sockets } :=
  ⟨rfl, h.sockToConfig, h.deviceIdToConfig, h.configs⟩

variable (h : SameOwners r r')

include h

theorem config_of_lookup {p : ConfigPtr} {c : BratislavaSocketConfig}
    (hp : r.configs.lookup p = some c) :
    ∃ c', r'.configs.lookup p = some c' ∧ c'.socket = c.socket ∧ c'.deviceId = c.deviceId := by
  have hsame := h.configs p
  rw [hp, Option.map_some, Option.map_eq_some_iff] at hsame
  obtain ⟨c', hc', howner⟩ := hsame
  exact ⟨c', hc', congrArg Prod.fst howner, congrArg Prod.snd howner⟩

theorem getConfigSocket {x : SocketPtr} {c : BratislavaSocketConfig}
    (hx : r.getConfigSocket x = some c) :
    ∃ c', r'.getConfigSocket x = some c' ∧ c'.socket = c.socket ∧ c'.deviceId = c.deviceId := by
  obtain ⟨p, hp, hc⟩ := Option.bind_eq_some_iff.mp hx
  obtain ⟨c', hc', howner⟩ := h.config_of_lookup hc
  refine ⟨c', Option.bind_eq_some_iff.mpr ⟨p, ?_, hc'⟩, howner⟩
  rwa [h.sockToConfig]

theorem getConfigId {id : String} {c : BratislavaSocketConfig} (hid : r.getConfigId id = some c) :
    ∃ c', r'.getConfigId id = some c' ∧ c'.socket = c.socket ∧ c'.deviceId = c.deviceId := by
  obtain ⟨p, hp, hc⟩ := Option.bind_eq_some_iff.mp hid
  obtain ⟨c', hc', howner⟩ := h.config_of_lookup hc
  refine ⟨c', Option.bind_eq_some_iff.mpr ⟨p, ?_, hc'⟩, howner⟩
  rwa [h.deviceIdToConfig]

theorem existsId_of_true {id : String} (hid : r.existsId id = true) : r'.existsId id = true := by
  unfold BratislavaSocketRegistry.existsId at hid ⊢
  cases hget : r.getConfigId id with
  | none => simp [hget] at hid
  | some c =>
    obtain ⟨c', hc', hsocket, -⟩ := h.getConfigId hget
    simp only [hget] at hid
    simp only [hc', hsocket, hid]

theorem wellFormed (hr : WellFormed r) : WellFormed r' where
  nodup := h.sockets ▸ hr.nodup
  registered s := by
    rw [h.sockets, h.sockToConfig]
    exact hr.registered s
  socketLive s p hp := by
    rw [h.sockToConfig] at hp
    obtain ⟨c, hc, hs⟩ := hr.socketLive s p hp
    obtain ⟨c', hc', hsocket, -⟩ := h.config_of_lookup hc
    exact ⟨c', hc', hsocket.trans hs⟩
  idLive id p hp := by
    rw [h.deviceIdToConfig] at hp
    obtain ⟨c, hc, hid⟩ := hr.idLive id p hp
    obtain ⟨c', hc', -, hdevice⟩ := h.config_of_lookup hc
    exact ⟨c', hc', hdevice.trans hid⟩
  filed p c' hp := by
    obtain ⟨c, hc, -, hdevice⟩ := h.symm.config_of_lookup hp
    rw [h.deviceIdToConfig, ← hdevice]
    exact hr.filed p c hc
  owned p c' s hp hs := by
    obtain ⟨c, hc, hsocket, -⟩ := h.symm.config_of_lookup hp
    rw [h.sockToConfig]
    exact hr.owned p c s hc (hsocket.trans hs)

end SameOwners

variable {r : BratislavaSocketRegistry}

/-- An update with a copy for the socket and the device of the config that it overwrites. -/
theorem sameOwners_updateConfig {c c₀ : BratislavaSocketConfig} {p : ConfigPtr}
    (htarget : r.updateTarget c = some p) (hp : r.configs.lookup p = some c₀)
    (howner : c.owner = c₀.owner) : SameOwners r (r.updateConfig c).2 := by
  simp only [updateConfig_target, htarget, store_of_lookup hp]
  refine ⟨rfl, rfl, rfl, fun q => ?_⟩
  rw [Finmap.lookup_insert_ite]
  split
  · rename_i hq
    rw [hq, hp, Option.map_some, Option.map_some, howner]
  · rfl

/-- What is filed under a socket after an update of one device. -/
theorem Files.getConfigSocket {r' : BratislavaSocketRegistry} {d : String}
    {v : Option BratislavaSocketConfig} (h : Files r r' d v) (hr : WellFormed r) {x : SocketPtr}
    {c : BratislavaSocketConfig} (hx : r'.getConfigSocket x = some c) :
    v = some c ∧ c.deviceId = d ∧ c.socket = some x ∨ r.getConfigSocket x = some c := by
  obtain ⟨hid, hsocket⟩ := h.wellFormed.getConfigSocket_iff_getConfigId.mp hx
  rw [h.getConfigId] at hid
  split at hid
  · rename_i hd
    exact Or.inl ⟨hid, hd, hsocket⟩
  · exact Or.inr (hr.getConfigSocket_iff_getConfigId.mpr ⟨hid, hsocket⟩)

theorem isConnectedSocket_eq_true {x : SocketPtr} :
    r.isConnectedSocket x = true ↔ ∃ c, r.getConfigSocket x = some c ∧ c.connected = true := by
  unfold isConnectedSocket
  cases r.getConfigSocket x <;> simp

/-- A handle has the flag that it had, or the one in the config that was changed. -/
theorem Files.isConnectedSocket {r' : BratislavaSocketRegistry} {d : String}
    {v : Option BratislavaSocketConfig} (h : Files r r' d v) (hr : WellFormed r) {x : SocketPtr}
    (hx : r'.isConnectedSocket x = true) :
    r.isConnectedSocket x = true ∨ ∃ c, v = some c ∧ c.socket = some x ∧ c.connected = true := by
  obtain ⟨c, hget, hconnected⟩ := isConnectedSocket_eq_true.mp hx
  rcases h.getConfigSocket hr hget with ⟨hc, -, hsocket⟩ | hold
  · exact Or.inr ⟨c, hc, hsocket, hconnected⟩
  · exact Or.inl (isConnectedSocket_eq_true.mpr ⟨c, hold, hconnected⟩)

end BratislavaSocketRegistry

end SensorLib
