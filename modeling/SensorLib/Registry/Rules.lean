import SensorLib.Registry.Pointers

/-! # One rule for each method

Between two calls the registry is well formed, and then a method changes the
config of one device and perhaps the pool of ports.
-/

namespace SensorLib

namespace BratislavaSocketRegistry

variable {r : BratislavaSocketRegistry}

theorem store_of_lookup {p : ConfigPtr} {c : BratislavaSocketConfig}
    (hp : r.configs.lookup p = some c) (c' : BratislavaSocketConfig) :
    r.store p c' = { r with configs := r.configs.insert p c' } := by
  rw [store, if_pos (Finmap.mem_iff.mpr ⟨c, hp⟩)]

namespace WellFormed

/-- A copy written back under the same socket and id lands where it was read. -/
theorem updateConfig_eq (h : WellFormed r) {p : ConfigPtr} {c : BratislavaSocketConfig}
    (hp : r.configs.lookup p = some c) (c' : BratislavaSocketConfig) (hs : c'.socket = c.socket)
    (hid : c'.deviceId = c.deviceId) :
    r.updateConfig c' = (true, { r with configs := r.configs.insert p c' }) := by
  rw [updateConfig, updateConfigLocked, hs, hid]
  cases hsock : c.socket with
  | none =>
    simp only [Option.bind_none, h.filed p c hp, store_of_lookup hp]
  | some s =>
    simp only [Option.bind_some, h.owned p c s hp hsock, store_of_lookup hp]

/-- The rule of every attribute setter. -/
theorem modifyConfig_files (h : WellFormed r) {c : BratislavaSocketConfig}
    {change : BratislavaSocketConfig → BratislavaSocketConfig}
    (hc : r.getConfigId c.deviceId = some c) (hs : (change c).socket = c.socket)
    (hid : (change c).deviceId = c.deviceId) :
    (r.modifyConfig (some c) change).1 = true ∧
      Files r (r.modifyConfig (some c) change).2 c.deviceId (some (change c)) := by
  obtain ⟨p, hp, _⟩ := h.getConfigId_eq_some.mp hc
  simp only [modifyConfig, h.updateConfig_eq hp _ hs hid]
  exact ⟨trivial, files_store h hp hs hid⟩

/-- The config of a handle after a method that changes it. -/
theorem getConfigSocket_modifyConfig (h : WellFormed r) {c : BratislavaSocketConfig} {s : SocketPtr}
    (hc : r.getConfigSocket s = some c) {change : BratislavaSocketConfig → BratislavaSocketConfig}
    (hs : (change c).socket = c.socket) (hid : (change c).deviceId = c.deviceId) :
    (r.modifyConfig (some c) change).2.getConfigSocket s = some (change c) := by
  obtain ⟨hget, hsocket⟩ := h.getConfigSocket_iff_getConfigId.mp hc
  have hfiles := (h.modifyConfig_files hget hs hid).2
  refine hfiles.wellFormed.getConfigSocket_iff_getConfigId.mpr ⟨?_, hs.trans hsocket⟩
  rw [hfiles.getConfigId, if_pos hid]

/-- `Connect` of a registered handle succeeds. -/
theorem isConnectedSocket_connect (h : WellFormed r) {s : SocketPtr} (hs : s ∈ r.sockets) :
    (r.connect s).2.isConnectedSocket s = true := by
  obtain ⟨c, hc⟩ := h.mem_sockets_iff.mp hs
  have hafter : (r.connect s).2.getConfigSocket s = some { c with connected := true } := by
    rw [connect, hc]
    exact h.getConfigSocket_modifyConfig hc rfl rfl
  rw [isConnectedSocket, hafter]

/-- No handle is connected after its `Disconnect`. -/
theorem isConnectedSocket_disconnectSocket (h : WellFormed r) (s : SocketPtr) :
    (r.disconnectSocket s).2.isConnectedSocket s = false := by
  rw [disconnectSocket]
  cases hc : r.getConfigSocket s with
  | none => simp only [modifyConfig, isConnectedSocket, hc]
  | some c =>
    have hafter : (r.modifyConfig (some c) fun config =>
        { config with connected := false }).2.getConfigSocket s =
          some { c with connected := false } := h.getConfigSocket_modifyConfig hc rfl rfl
    rw [isConnectedSocket, hafter]

end WellFormed

theorem Files.refl (h : WellFormed r) (d : String) : Files r r d (r.getConfigId d) :=
  ⟨h, fun id => by split <;> simp_all⟩

/-- The pool may change without any effect on the pointers. -/
theorem Files.withPorts {r' : BratislavaSocketRegistry} {d : String}
    {v : Option BratislavaSocketConfig} (h : Files r r' d v) (ports : Finset Int) :
    Files r { r' with availableLocalPorts := ports } d v where
  wellFormed := ⟨h.wellFormed.nodup, h.wellFormed.registered, h.wellFormed.socketLive,
    h.wellFormed.idLive, h.wellFormed.filed, h.wellFormed.owned⟩
  getConfigId := h.getConfigId

/-- The config `add` leaves for its device. -/
def claimed (r : BratislavaSocketRegistry) (d : String) (s : SocketPtr) :
    BratislavaSocketConfig :=
  { (r.getConfigId d).getD {} with socket := some s, deviceId := d }

theorem add_files (h : WellFormed r) {s : SocketPtr} {link : BratislavaLink}
    {newConfig : ConfigPtr} (hs : s ∉ r.sockets)
    (hfree : ∀ c, r.getConfigId (getDeviceID link) = some c → c.socket = none)
    (hnew : newConfig ∉ r.configs) :
    Files r (r.add s link newConfig) (getDeviceID link)
      (some (r.claimed (getDeviceID link) s)) := by
  have hnew' : r.configs.lookup newConfig = none := Finmap.lookup_eq_none.mpr hnew
  cases hd : r.deviceIdToConfig.lookup (getDeviceID link) with
  | none =>
    have hget : r.getConfigId (getDeviceID link) = none := by simp [getConfigId, hd]
    have hclaim := files_claim h newConfig (r.claimed (getDeviceID link) s) hs rfl
      (by simp [hnew']) (by simp [claimed, hd])
    have hc' : r.claimed (getDeviceID link) s =
        { socket := some s, deviceId := getDeviceID link } := by simp [claimed, hget]
    rw [hc'] at hclaim ⊢
    simpa only [add, createConfigSocket, hd] using hclaim
  | some p =>
    obtain ⟨c, hp, hid⟩ := h.idLive _ p hd
    have hget : r.getConfigId (getDeviceID link) = some c := by simp [getConfigId, hd, hp]
    have hnone : c.socket = none := hfree c hget
    have hclaim := files_claim h p (r.claimed (getDeviceID link) s) hs rfl
      (by
        intro c₁ hc₁
        rw [hp] at hc₁
        cases hc₁
        exact ⟨hid, hnone⟩)
      (by simp [claimed, hd, eq_comm])
    have hc' : r.claimed (getDeviceID link) s =
        { c with socket := some s, deviceId := getDeviceID link } := by simp [claimed, hget]
    have hunfiled : r.sockToConfig.lookup s = none :=
      Finmap.lookup_eq_none.mpr fun hmem => hs ((h.registered s).mpr hmem)
    have hsame : r.deviceIdToConfig.insert (getDeviceID link) p = r.deviceIdToConfig := by
      apply Finmap.ext_lookup
      intro id
      rw [Finmap.lookup_insert_ite]
      split
      · rename_i heq
        rw [heq, hd]
      · rfl
    rw [hc'] at hclaim ⊢
    simpa only [add, createConfigSocket, hd, hp, updateConfigLocked, Option.bind_some, hunfiled,
      store_of_lookup hp, hsame] using hclaim

theorem createConfigId_files (h : WellFormed r) {d : String} {newConfig : ConfigPtr}
    (hnew : newConfig ∉ r.configs) :
    Files r (r.createConfigId d newConfig) d
      (some ((r.getConfigId d).getD { deviceId := d })) := by
  cases hd : r.deviceIdToConfig.lookup d with
  | none =>
    have hget : r.getConfigId d = none := by simp [getConfigId, hd]
    simpa [createConfigId, hd, hget] using
      files_new h (Finmap.lookup_eq_none.mpr hnew) hd
  | some p =>
    obtain ⟨c, hp, hid⟩ := h.idLive d p hd
    have hget : r.getConfigId d = some c := by simp [getConfigId, hd, hp]
    have hsame := Files.refl h d
    rw [hget] at hsame
    simpa [createConfigId, hd, hget] using hsame

theorem removeUnusedConfig_files (h : WellFormed r) (d : String) :
    Files r (r.removeUnusedConfig d) d ((r.getConfigId d).filter fun c => c.socket.isSome) := by
  cases hd : r.deviceIdToConfig.lookup d with
  | none =>
    have hget : r.getConfigId d = none := by simp [getConfigId, hd]
    have hsame := Files.refl h d
    rw [hget] at hsame
    simpa [removeUnusedConfig, hd, hget] using hsame
  | some p =>
    obtain ⟨c, hp, rfl⟩ := h.idLive d p hd
    have hget : r.getConfigId c.deviceId = some c := by simp [getConfigId, hd, hp]
    cases hs : c.socket with
    | none =>
      have herase := files_erase h hp r.sockToConfig h.nodup
        (by
          intro s q
          constructor
          · intro hq
            refine ⟨hq, ?_⟩
            rintro rfl
            rw [(h.socket_iff_lookup hp).mp hq] at hs
            cases hs
          · exact And.left)
        h.registered
      simpa [removeUnusedConfig, hd, hp, hs, hget, Option.filter] using herase
    | some s =>
      have hsame := Files.refl h c.deviceId
      rw [hget] at hsame
      simpa [removeUnusedConfig, hd, hp, hs, hget, Option.filter] using hsame

/-- The pool after the port of a config has been given back. -/
def portsAfterRelease (r : BratislavaSocketRegistry) (c : BratislavaSocketConfig) : Finset Int :=
  (r.releaseLocalPortOf (some c)).2.availableLocalPorts

theorem releaseLocalPortOf_eq (c : BratislavaSocketConfig) :
    (r.releaseLocalPortOf (some c)).2 =
      { r with availableLocalPorts := r.portsAfterRelease c } := by
  simp only [portsAfterRelease, releaseLocalPortOf, releaseLocalPort]
  split
  · rfl
  · split <;> rfl

/-- `RemoveConfig` frees the config of a socket that the vector loses. -/
theorem removeConfig_files (h : WellFormed r) {c : BratislavaSocketConfig} {s : SocketPtr}
    (hc : r.getConfigSocket s = some c) :
    Files r { r.removeConfig s with sockets := r.sockets.erase s } c.deviceId none := by
  obtain ⟨p, hp, hs⟩ := h.getConfigSocket_eq_some.mp hc
  have hsp := h.owned p c s hp hs
  simp only [removeConfig, hsp, hp]
  refine files_erase h hp (r.sockToConfig.erase s) (h.nodup.erase s) ?_ ?_
  · intro x q
    rw [Finmap.lookup_erase_eq_some, and_comm]
    refine and_congr_right fun hq => not_congr ?_
    constructor
    · rintro rfl
      rw [hsp] at hq
      exact (Option.some.inj hq).symm
    · rintro rfl
      have hx := (h.socket_iff_lookup hp).mp hq
      rw [hs] at hx
      exact (Option.some.inj hx).symm
  · intro x
    rw [h.nodup.mem_erase_iff, Finmap.mem_erase, h.registered]

theorem remove_eq (h : WellFormed r) {p : ConfigPtr} {c : BratislavaSocketConfig}
    {s : SocketPtr} (hp : r.configs.lookup p = some c) (hs : c.socket = some s) :
    r.remove s = (true, { r with
      availableLocalPorts := r.portsAfterRelease c
      sockets := r.sockets.erase s
      sockToConfig := r.sockToConfig.erase s
      deviceIdToConfig := r.deviceIdToConfig.erase c.deviceId
      configs := r.configs.erase p }) := by
  have hsp := h.owned p c s hp hs
  have hget : r.getConfigSocket s = some c := h.getConfigSocket_eq_some.mpr ⟨p, hp, hs⟩
  have hmem : s ∈ r.sockets := h.mem_sockets_iff.mpr ⟨c, hget⟩
  let r₁ : BratislavaSocketRegistry :=
    { r with availableLocalPorts := r.portsAfterRelease c }
  have hrelease : (r.releaseLocalPortSocket s).2 = r₁ := by
    rw [releaseLocalPortSocket, hget, releaseLocalPortOf_eq]
  have h₁ : WellFormed r₁ := (Files.withPorts (Files.refl h c.deviceId) _).wellFormed
  have hget₁ : r₁.getConfigSocket s = some c := hget
  have hdisconnect : (r₁.disconnectSocket s).2 =
      { r₁ with configs := r.configs.insert p { c with connected := false } } := by
    rw [disconnectSocket, hget₁, modifyConfig,
      h₁.updateConfig_eq hp { c with connected := false } rfl rfl]
  have herase : (r.configs.insert p { c with connected := false }).erase p =
      r.configs.erase p := by
    apply Finmap.ext_lookup
    intro q
    rw [Finmap.lookup_erase_ite, Finmap.lookup_erase_ite, Finmap.lookup_insert_ite]
    split <;> rfl
  simp only [remove, if_pos hmem, hrelease, hdisconnect, removeConfig, r₁, hsp,
    Finmap.lookup_insert, herase]

theorem remove_files (h : WellFormed r) {c : BratislavaSocketConfig} {s : SocketPtr}
    (hc : r.getConfigSocket s = some c) : Files r (r.remove s).2 c.deviceId none := by
  obtain ⟨p, hp, hs⟩ := h.getConfigSocket_eq_some.mp hc
  have hfiles := (removeConfig_files h hc).withPorts (r.portsAfterRelease c)
  simp only [removeConfig, h.owned p c s hp hs, hp] at hfiles
  rw [remove_eq h hp hs]
  exact hfiles

theorem remove_unregistered {s : SocketPtr} (hs : s ∉ r.sockets) : r.remove s = (false, r) := by
  rw [remove, if_neg hs]

end BratislavaSocketRegistry

end SensorLib
