import SensorLib.Base.Lookup
import SensorLib.Registry.Methods

/-! # The pointers of the registry

Two maps and a vector share the heap configs. `WellFormed` says how they
agree between two calls, and the rules below say what each method does to it
and to the config filed under each device id.
-/

namespace SensorLib

namespace BratislavaSocketRegistry

/-- Both maps point to live configs, a config names the socket and the id it is filed under,
and the sockets in the vector are those with a config. -/
structure WellFormed (r : BratislavaSocketRegistry) : Prop where
  nodup : r.sockets.Nodup
  registered : ∀ s, s ∈ r.sockets ↔ s ∈ r.sockToConfig
  socketLive : ∀ s p, r.sockToConfig.lookup s = some p →
    ∃ c, r.configs.lookup p = some c ∧ c.socket = some s
  idLive : ∀ id p, r.deviceIdToConfig.lookup id = some p →
    ∃ c, r.configs.lookup p = some c ∧ c.deviceId = id
  filed : ∀ p c, r.configs.lookup p = some c → r.deviceIdToConfig.lookup c.deviceId = some p
  owned : ∀ p c s, r.configs.lookup p = some c → c.socket = some s →
    r.sockToConfig.lookup s = some p

theorem empty_wellFormed : WellFormed empty where
  nodup := List.nodup_nil
  registered s := by simp [empty, Finmap.mem_iff]
  socketLive s p h := by simp [empty] at h
  idLive id p h := by simp [empty] at h
  filed p c h := by simp [empty] at h
  owned p c s h := by simp [empty] at h

namespace WellFormed

variable {r : BratislavaSocketRegistry} (h : WellFormed r)

include h

theorem getConfigId_eq_some {id : String} {c : BratislavaSocketConfig} :
    r.getConfigId id = some c ↔ ∃ p, r.configs.lookup p = some c ∧ c.deviceId = id := by
  rw [getConfigId, Option.bind_eq_some_iff]
  constructor
  · rintro ⟨p, hp, hc⟩
    obtain ⟨c', hc', hid⟩ := h.idLive id p hp
    rw [hc] at hc'
    cases hc'
    exact ⟨p, hc, hid⟩
  · rintro ⟨p, hc, rfl⟩
    exact ⟨p, h.filed p c hc, hc⟩

theorem getConfigSocket_eq_some {s : SocketPtr} {c : BratislavaSocketConfig} :
    r.getConfigSocket s = some c ↔ ∃ p, r.configs.lookup p = some c ∧ c.socket = some s := by
  rw [getConfigSocket, Option.bind_eq_some_iff]
  constructor
  · rintro ⟨p, hp, hc⟩
    obtain ⟨c', hc', hs⟩ := h.socketLive s p hp
    rw [hc] at hc'
    cases hc'
    exact ⟨p, hc, hs⟩
  · rintro ⟨p, hc, hs⟩
    exact ⟨p, h.owned p c s hc hs, hc⟩

/-- The two maps lead to the same config. -/
theorem getConfigSocket_iff_getConfigId {s : SocketPtr} {c : BratislavaSocketConfig} :
    r.getConfigSocket s = some c ↔ r.getConfigId c.deviceId = some c ∧ c.socket = some s := by
  rw [h.getConfigSocket_eq_some, h.getConfigId_eq_some]
  constructor
  · rintro ⟨p, hc, hs⟩
    exact ⟨⟨p, hc, rfl⟩, hs⟩
  · rintro ⟨⟨p, hc, _⟩, hs⟩
    exact ⟨p, hc, hs⟩

theorem deviceId_of_getConfigId {id : String} {c : BratislavaSocketConfig}
    (hc : r.getConfigId id = some c) : c.deviceId = id := by
  obtain ⟨p, _, hid⟩ := h.getConfigId_eq_some.mp hc
  exact hid

theorem mem_sockets_iff {s : SocketPtr} :
    s ∈ r.sockets ↔ ∃ c, r.getConfigSocket s = some c := by
  rw [h.registered, Finmap.mem_iff]
  constructor
  · rintro ⟨p, hp⟩
    obtain ⟨c, hc, hs⟩ := h.socketLive s p hp
    exact ⟨c, h.getConfigSocket_eq_some.mpr ⟨p, hc, hs⟩⟩
  · rintro ⟨c, hc⟩
    obtain ⟨p, hp, _⟩ := Option.bind_eq_some_iff.mp hc
    exact ⟨p, hp⟩

theorem config_unique {p q : ConfigPtr} {c d : BratislavaSocketConfig}
    (hp : r.configs.lookup p = some c) (hq : r.configs.lookup q = some d)
    (hid : c.deviceId = d.deviceId) : p = q := by
  have hpf := h.filed p c hp
  have hqf := h.filed q d hq
  rw [hid, hqf] at hpf
  exact (Option.some.inj hpf).symm

theorem getConfigId_iff_lookup {id : String} {p : ConfigPtr} {c : BratislavaSocketConfig}
    (hp : r.configs.lookup p = some c) :
    r.deviceIdToConfig.lookup id = some p ↔ id = c.deviceId := by
  constructor
  · intro hid
    obtain ⟨c', hc', h'⟩ := h.idLive id p hid
    rw [hp] at hc'
    cases hc'
    exact h'.symm
  · rintro rfl
    exact h.filed p c hp

theorem socket_iff_lookup {s : SocketPtr} {p : ConfigPtr} {c : BratislavaSocketConfig}
    (hp : r.configs.lookup p = some c) :
    r.sockToConfig.lookup s = some p ↔ c.socket = some s := by
  constructor
  · intro hs
    obtain ⟨c', hc', h'⟩ := h.socketLive s p hs
    rw [hp] at hc'
    cases hc'
    exact h'
  · exact h.owned p c s hp

end WellFormed

/-! ## What an update leaves -/

/-- `r'` has `v` filed under `d`, and every other id as `r` has it. -/
structure Files (r r' : BratislavaSocketRegistry) (d : String)
    (v : Option BratislavaSocketConfig) : Prop where
  wellFormed : WellFormed r'
  getConfigId : ∀ id, r'.getConfigId id = if id = d then v else r.getConfigId id

variable {r : BratislavaSocketRegistry}

/-- A store that keeps the socket and the id of the config it overwrites. -/
theorem files_store (h : WellFormed r) {p : ConfigPtr} {c c' : BratislavaSocketConfig}
    (hp : r.configs.lookup p = some c) (hs : c'.socket = c.socket)
    (hid : c'.deviceId = c.deviceId) :
    Files r { r with configs := r.configs.insert p c' } c.deviceId (some c') where
  wellFormed :=
    { nodup := h.nodup
      registered := h.registered
      socketLive := by
        intro s q hq
        simp only [Finmap.lookup_insert_ite]
        split
        · rename_i hqp
          subst hqp
          exact ⟨c', rfl, hs.trans ((h.socket_iff_lookup hp).mp hq)⟩
        · exact h.socketLive s q hq
      idLive := by
        intro id q hq
        simp only [Finmap.lookup_insert_ite]
        split
        · rename_i hqp
          subst hqp
          exact ⟨c', rfl, hid.trans ((h.getConfigId_iff_lookup hp).mp hq).symm⟩
        · exact h.idLive id q hq
      filed := by
        intro q d hq
        rcases Finmap.lookup_insert_eq_some.mp hq with ⟨rfl, rfl⟩ | ⟨_, hq⟩
        · rw [hid]
          exact h.filed q c hp
        · exact h.filed q d hq
      owned := by
        intro q d s hq hd
        rcases Finmap.lookup_insert_eq_some.mp hq with ⟨rfl, rfl⟩ | ⟨_, hq⟩
        · exact h.owned q c s hp (hs ▸ hd)
        · exact h.owned q d s hq hd }
  getConfigId := by
    intro id
    simp only [BratislavaSocketRegistry.getConfigId]
    split
    · rename_i hid'
      rw [hid', h.filed p c hp]
      simp [Finmap.lookup_insert]
    · rename_i hid'
      cases hq : r.deviceIdToConfig.lookup id with
      | none => rfl
      | some q =>
        have hqp : q ≠ p := by
          rintro rfl
          exact hid' ((h.getConfigId_iff_lookup hp).mp hq)
        simp [Finmap.lookup_insert_of_ne _ hqp]

/-- A new config without a socket, under an id that has none. -/
theorem files_new (h : WellFormed r) {p : ConfigPtr} {d : String}
    (hp : r.configs.lookup p = none) (hd : r.deviceIdToConfig.lookup d = none) :
    Files r { r with configs := r.configs.insert p { deviceId := d }
                     deviceIdToConfig := r.deviceIdToConfig.insert d p } d
      (some { deviceId := d }) := by
  have hfresh : ∀ {q c}, r.configs.lookup q = some c → q ≠ p := by
    rintro q c hq rfl
    rw [hp] at hq
    cases hq
  have hother : ∀ {q c}, r.configs.lookup q = some c → c.deviceId ≠ d := by
    rintro q c hq rfl
    rw [h.filed q c hq] at hd
    cases hd
  refine ⟨⟨h.nodup, h.registered, ?_, ?_, ?_, ?_⟩, ?_⟩
  · intro s q hq
    obtain ⟨c, hc, hs⟩ := h.socketLive s q hq
    exact ⟨c, by simp [Finmap.lookup_insert_of_ne _ (hfresh hc), hc], hs⟩
  · intro id q hq
    rcases Finmap.lookup_insert_eq_some.mp hq with ⟨rfl, rfl⟩ | ⟨_, hq⟩
    · exact ⟨_, Finmap.lookup_insert _, rfl⟩
    · obtain ⟨c, hc, hid⟩ := h.idLive id q hq
      exact ⟨c, by simp [Finmap.lookup_insert_of_ne _ (hfresh hc), hc], hid⟩
  · intro q c hq
    rcases Finmap.lookup_insert_eq_some.mp hq with ⟨rfl, rfl⟩ | ⟨_, hq⟩
    · exact Finmap.lookup_insert _
    · simp only [Finmap.lookup_insert_of_ne _ (hother hq)]
      exact h.filed q c hq
  · intro q c s hq hs
    rcases Finmap.lookup_insert_eq_some.mp hq with ⟨rfl, rfl⟩ | ⟨_, hq⟩
    · cases hs
    · exact h.owned q c s hq hs
  · intro id
    simp only [BratislavaSocketRegistry.getConfigId, Finmap.lookup_insert_ite]
    split
    · simp
    · cases hq : r.deviceIdToConfig.lookup id with
      | none => rfl
      | some q =>
        obtain ⟨c, hc, _⟩ := h.idLive id q hq
        simp [hfresh hc]

/-- A socket takes over the config of its device, which is new or had no socket. -/
theorem files_claim (h : WellFormed r) (p : ConfigPtr) {s : SocketPtr}
    (c' : BratislavaSocketConfig) (hs : s ∉ r.sockets) (hc' : c'.socket = some s)
    (hold : ∀ c, r.configs.lookup p = some c → c.deviceId = c'.deviceId ∧ c.socket = none)
    (hslot : ∀ q, r.deviceIdToConfig.lookup c'.deviceId = some q → q = p) :
    Files r { r with sockets := r.sockets ++ [s]
                     sockToConfig := r.sockToConfig.insert s p
                     deviceIdToConfig := r.deviceIdToConfig.insert c'.deviceId p
                     configs := r.configs.insert p c' } c'.deviceId (some c') := by
  refine ⟨⟨?_, ?_, ?_, ?_, ?_, ?_⟩, ?_⟩
  · exact List.nodup_append.mpr ⟨h.nodup, List.nodup_singleton s, by
      rintro a ha b hb rfl
      rw [List.mem_singleton] at hb
      exact hs (hb ▸ ha)⟩
  · intro x
    rw [List.mem_append, List.mem_singleton, Finmap.mem_insert, h.registered]
    exact or_comm
  · intro x q hq
    rcases Finmap.lookup_insert_eq_some.mp hq with ⟨rfl, rfl⟩ | ⟨_, hq⟩
    · exact ⟨c', Finmap.lookup_insert _, hc'⟩
    · obtain ⟨c, hc, hx⟩ := h.socketLive x q hq
      have hqp : q ≠ p := by
        rintro rfl
        rw [(hold c hc).2] at hx
        cases hx
      exact ⟨c, by simp only [Finmap.lookup_insert_of_ne _ hqp, hc], hx⟩
  · intro id q hq
    rcases Finmap.lookup_insert_eq_some.mp hq with ⟨rfl, rfl⟩ | ⟨hid, hq⟩
    · exact ⟨c', Finmap.lookup_insert _, rfl⟩
    · obtain ⟨c, hc, hcid⟩ := h.idLive id q hq
      have hqp : q ≠ p := by
        rintro rfl
        exact hid (hcid ▸ (hold c hc).1)
      exact ⟨c, by simp only [Finmap.lookup_insert_of_ne _ hqp, hc], hcid⟩
  · intro q c hq
    rcases Finmap.lookup_insert_eq_some.mp hq with ⟨rfl, rfl⟩ | ⟨hqp, hq⟩
    · exact Finmap.lookup_insert _
    · have hid : c.deviceId ≠ c'.deviceId := by
        intro heq
        exact hqp (hslot q (heq ▸ h.filed q c hq))
      simp only [Finmap.lookup_insert_of_ne _ hid]
      exact h.filed q c hq
  · intro q c x hq hx
    rcases Finmap.lookup_insert_eq_some.mp hq with ⟨rfl, rfl⟩ | ⟨_, hq⟩
    · rw [hc'] at hx
      cases hx
      exact Finmap.lookup_insert _
    · have hold := h.owned q c x hq hx
      have hxs : x ≠ s := by
        rintro rfl
        exact hs ((h.registered x).mpr (Finmap.mem_iff.mpr ⟨q, hold⟩))
      simp only [Finmap.lookup_insert_of_ne _ hxs]
      exact hold
  · intro id
    simp only [BratislavaSocketRegistry.getConfigId, Finmap.lookup_insert_ite]
    split
    · simp
    · rename_i hid
      cases hq : r.deviceIdToConfig.lookup id with
      | none => rfl
      | some q =>
        obtain ⟨c, hc, hcid⟩ := h.idLive id q hq
        have hqp : q ≠ p := by
          rintro rfl
          exact hid (hcid ▸ (hold c hc).1)
        simp [hqp]

/-- A config is freed and unfiled, and so is the socket that had it. -/
theorem files_erase (h : WellFormed r) {p : ConfigPtr} {c : BratislavaSocketConfig}
    (hp : r.configs.lookup p = some c) {sockets : List SocketPtr}
    (sockToConfig : UnorderedMap SocketPtr ConfigPtr) (hnodup : sockets.Nodup)
    (hmap : ∀ s q, sockToConfig.lookup s = some q ↔ r.sockToConfig.lookup s = some q ∧ q ≠ p)
    (hmem : ∀ s, s ∈ sockets ↔ s ∈ sockToConfig) :
    Files r { r with sockets, sockToConfig
                     deviceIdToConfig := r.deviceIdToConfig.erase c.deviceId
                     configs := r.configs.erase p } c.deviceId none := by
  refine ⟨⟨hnodup, hmem, ?_, ?_, ?_, ?_⟩, ?_⟩
  · intro s q hq
    obtain ⟨hq, hqp⟩ := (hmap s q).mp hq
    obtain ⟨d, hd, hs⟩ := h.socketLive s q hq
    exact ⟨d, Finmap.lookup_erase_eq_some.mpr ⟨hqp, hd⟩, hs⟩
  · intro id q hq
    obtain ⟨hid, hold⟩ := Finmap.lookup_erase_eq_some.mp hq
    obtain ⟨d, hd, hdid⟩ := h.idLive id q hold
    have hqp : q ≠ p := by
      rintro rfl
      exact hid ((h.getConfigId_iff_lookup hp).mp hold)
    exact ⟨d, Finmap.lookup_erase_eq_some.mpr ⟨hqp, hd⟩, hdid⟩
  · intro q d hq
    obtain ⟨hqp, hd⟩ := Finmap.lookup_erase_eq_some.mp hq
    exact Finmap.lookup_erase_eq_some.mpr
      ⟨fun hid => hqp (h.config_unique hd hp hid), h.filed q d hd⟩
  · intro q d s hq hs
    obtain ⟨hqp, hd⟩ := Finmap.lookup_erase_eq_some.mp hq
    exact (hmap s q).mpr ⟨h.owned q d s hd hs, hqp⟩
  · intro id
    simp only [BratislavaSocketRegistry.getConfigId, Finmap.lookup_erase_ite]
    split
    · rfl
    · rename_i hid
      cases hq : r.deviceIdToConfig.lookup id with
      | none => rfl
      | some q =>
        have hqp : q ≠ p := by
          rintro rfl
          exact hid ((h.getConfigId_iff_lookup hp).mp hq)
        simp [hqp]

end BratislavaSocketRegistry

end SensorLib
