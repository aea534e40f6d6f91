import SensorLib.Socket.Peers
import SensorLib.Socket.Safety

/-! # What threads know about devices stays true -/

namespace SensorLib

open Threads BratislavaSocketRegistry Peers

namespace SharedState

variable {s s' : SharedState} {x y : SocketPtr}

/-- The handles and the pointers are the same, and no adapter has become one of another kind. -/
structure SameShape (s s' : SharedState) : Prop where
  owners : SameOwners s.registry s'.registry
  links : ∀ x, (s'.heap.lookup x).map (·.link) = (s.heap.lookup x).map (·.link)
  kinds : ∀ x a', s'.adapterOf x = some a' → ∃ a, s.adapterOf x = some a ∧ a'.kind = a.kind

theorem SameShape.setRegistry {r : BratislavaSocketRegistry} (h : SameOwners s.registry r) :
    SameShape s (s.setRegistry r) :=
  ⟨h, fun _ => rfl, fun _ a' ha' => ⟨a', ha', rfl⟩⟩

theorem SameShape.refl (s : SharedState) : SameShape s s :=
  .setRegistry (s := s) (SameOwners.refl s.registry)

namespace SameShape

variable (h : SameShape s s')

include h

theorem sockets : s'.registry.sockets = s.registry.sockets := h.owners.sockets

theorem mem_heap : x ∈ s'.heap ↔ x ∈ s.heap := by
  rw [← Finmap.lookup_isSome, ← Finmap.lookup_isSome, ← Option.isSome_map, h.links,
    Option.isSome_map]

theorem lookup {b : BratislavaSocket} (hb : s.heap.lookup x = some b) :
    ∃ b', s'.heap.lookup x = some b' ∧ b'.link = b.link := by
  have hlinks := h.links x
  rw [hb, Option.map_some, Option.map_eq_some_iff] at hlinks
  exact hlinks

theorem deviceOf : s'.deviceOf x = s.deviceOf x := by
  have hlinks := congrArg (Option.map getDeviceID) (h.links x)
  rwa [Option.map_map, Option.map_map] at hlinks

theorem peerOf : s'.peerOf x = s.peerOf x := by
  have hlinks := congrArg (Option.map BratislavaLink.device) (h.links x)
  rwa [Option.map_map, Option.map_map] at hlinks

theorem resolves {link : BratislavaLink} (hs : s.Resolves link) : s'.Resolves link := by
  refine hs.imp_right fun hall x hx hdevice => ?_
  rw [h.sockets] at hx
  rw [h.deviceOf] at hdevice
  rw [h.peerOf]
  exact (hall x hx hdevice).imp_left h.owners.existsId_of_true

end SameShape

end SharedState

/-- No act changes which class of adapter an object is. -/
theorem Adapter.kind_of_exec {a a' : Adapter} {fds fds' : List Int} {e : Choice}
    {act : AdapterAct} {answer : act.Answer} (h : a.exec fds e act = some (answer, a', fds')) :
    a'.kind = a.kind := by
  cases act with
  | socket | receivePort | attempt =>
    simp only [exec] at h
    split at h <;> cases h
    rfl
  | listenForPeer =>
    simp only [exec] at h
    split at h
    · cases h
      rfl
    · split at h <;> cases h
      rfl
  | _ =>
    cases h
    rfl

namespace SharedState

variable {s s' : SharedState} {x y : SocketPtr}

/-- An object is changed and keeps its link. -/
theorem sameShape_insert {b b' : BratislavaSocket} (hb : s.heap.lookup x = some b)
    (hlink : b'.link = b.link) (fds : List Int)
    (hkind : ∀ a', b'.adapter = .object a' → ∃ a, b.adapter = .object a ∧ a'.kind = a.kind) :
    SameShape s { s.insertSocket x b' with openFds := fds } := by
  refine ⟨SameOwners.refl _, fun y => ?_, fun y a' ha' => ?_⟩
  · show ((s.heap.insert x b').lookup y).map _ = _
    rw [Finmap.lookup_insert_ite]
    split
    · rename_i hy
      rw [hy, hb, Option.map_some, Option.map_some, hlink]
    · rfl
  · by_cases hy : y = x
    · subst hy
      obtain ⟨link', adapter'⟩ := b'
      obtain ⟨link, adapter⟩ := b
      simp only [adapterOf, insertSocket, Finmap.lookup_insert] at ha'
      simp only [adapterOf, hb]
      split at ha'
      · rename_i heq
        cases heq
        cases ha'
        obtain ⟨a, rfl, heq⟩ := hkind a' rfl
        exact ⟨a, rfl, heq⟩
      · cases ha'
    · have hsame : adapterOf { s.insertSocket x b' with openFds := fds } y = s.adapterOf y := by
        simp [adapterOf, insertSocket, hy]
      exact ⟨a', hsame ▸ ha', rfl⟩

theorem sameShape_adapter {reuse : Bool} {act : AdapterAct} {e : Choice} {answer : act.Answer}
    (h : s.exec reuse (.adapter x act) e = some (answer, s')) : SameShape s s' := by
  simp only [exec] at h
  split at h
  · rename_i link a hlookup
    obtain ⟨⟨answer, a', fds⟩, hexec, hs⟩ := Option.map_eq_some_iff.mp h
    cases hs
    show SameShape s { s.insertSocket x ⟨link, .object a'⟩ with openFds := fds }
    refine sameShape_insert hlookup ?_ fds ?_
    · rfl
    · rintro _ ⟨⟩
      exact ⟨a, rfl, Adapter.kind_of_exec hexec⟩
  · cases h

theorem adapterOf_of_kind {reuse : Bool} {e : Choice} {kind : AdapterKind}
    (h : s.exec reuse (.adapter x .kind) e = some (kind, s')) :
    ∃ a, s.adapterOf x = some a ∧ a.kind = kind := by
  simp only [exec] at h
  split at h
  · rename_i link a hlookup
    obtain ⟨out, hexec, heq⟩ := Option.map_eq_some_iff.mp h
    cases hexec
    exact ⟨a, by simp [adapterOf, hlookup], congrArg Prod.fst heq⟩
  · cases h

theorem sameShape_deleteAdapter (h : s.deleteAdapter x = some s') : SameShape s s' := by
  simp only [deleteAdapter] at h
  split at h
  · rename_i link a hlookup
    cases h
    show SameShape s { s.insertSocket x ⟨link, .dangling⟩ with
      openFds := s.openFds.removeAll a.closedByDelete }
    refine sameShape_insert hlookup ?_ _ ?_
    · rfl
    · rintro _ ⟨⟩
  · cases h

end SharedState

namespace Peers

/-- What the thread that makes a socket has found out. -/
def Stage.Fits (s : SharedState) : Stage → Prop
  | .idle | .removed _ => True
  | .resolving link => s.Resolves link
  | .named x link =>
    x ∈ s.registry.sockets ∧ (∀ y, s.peerOf y = some link.device → y = x) ∧
      ∃ c, s.registry.getConfigId link.linkID = some c ∧ c.socket = some x
  | .vacant link => ∀ x, s.deviceOf x ≠ some (getDeviceID link)
  | .made x link | .adding x link => (s.heap.lookup x).map (·.link) = some link
  | .settled x link =>
    x ∈ s.registry.sockets ∧ ∀ y, s.peerOf y = some link.device → y = x
  | .removing x => x ∈ s.registry.sockets

/-- Every object but one is registered, the registered ones have the config of their device, and
no two objects are for one device. -/
structure Consistent (s : SharedState) (stage : Stage) : Prop where
  registry : WellFormed { s.registry with sockets := stage.filed s.registry.sockets }
  nodup : s.registry.sockets.Nodup
  live : ∀ x, x ∈ s.heap ↔ x ∈ s.registry.sockets ∨ stage.outside = some x
  outside : ∀ x, stage.outside = some x → x ∉ s.registry.sockets
  wifi : ∀ x a d, s.adapterOf x = some a → a.kind = .wifi d →
    ∃ link, (s.heap.lookup x).map (·.link) = some link ∧ link.instrumentType = .wifi
  devices : ∀ x c, s.registry.getConfigSocket x = some c → s.deviceOf x = some c.deviceId
  unique : ∀ x y d, s.deviceOf x = some d → s.deviceOf y = some d → x = y
  stage : stage.Fits s

/-- What one thread knows is true. -/
structure Knows (s : SharedState) (h : Locks) (g : Insight) : Prop where
  known : ∀ x, g.known = some x → x ∈ s.registry.sockets ∧ Justified h x
  device : ∀ x d, g.known = some x → g.device = some d → s.deviceOf x = some d
  wifi : ∀ x, g.known = some x → g.wifi = true →
    ∃ link, (s.heap.lookup x).map (·.link) = some link ∧ link.instrumentType = .wifi

/-- The stage of the thread that is not idle, if there is one. -/
def Current (G : Tid → Insight) (stage : Stage) : Prop :=
  (∀ t, (G t).stage = .idle ∨ (G t).stage = stage) ∧
    (stage ≠ .idle → ∃ t, (G t).stage = stage)

structure Kept (s : SharedState) (H : Tid → Locks) (G : Tid → Insight) : Prop where
  consistent : ∃ stage, Current G stage ∧ Consistent s stage
  busy : ∀ t, (G t).stage ≠ .idle → (.bsockCreation, .exclusive) ∈ H t
  inside : ∀ t, (G t).stage.InRegistry → (.recursive, .exclusive) ∈ H t
  removing : ∀ t x, (G t).stage = .removing x → (G t).known = none ∧
    (.bsockDeletion, .exclusive) ∈ H t ∧ (.sharedBsock x, .exclusive) ∈ H t
  knows : ∀ t, Knows s (H t) (G t)

/-- The id of a link leads to the socket of its device when the creation lock is taken. -/
def Assumed (s : SharedState) (f : Call) (i : Instr socketSignature) : Prop :=
  ∀ link, f.link = some link → i = .lock .bsockCreation .exclusive → s.Resolves link

variable {s s' : SharedState} {stage : Stage} {H H' : Tid → Locks} {G G' : Tid → Insight}
  {t u : Tid} {h : Locks} {g g' : Insight} {x y : SocketPtr}

/-! ## What an act of another thread leaves as it was -/

theorem Stage.Fits.of_same (hs : s.SameShape s') (hfits : stage.Fits s) : stage.Fits s' := by
  cases stage with
  | idle | removed => trivial
  | resolving link => exact hs.resolves hfits
  | vacant link =>
    intro y
    rw [hs.deviceOf]
    exact hfits y
  | made y link | adding y link => exact (hs.links y).trans hfits
  | removing y =>
    show y ∈ s'.registry.sockets
    rw [hs.sockets]
    exact hfits
  | settled y link =>
    refine ⟨hs.sockets ▸ hfits.1, fun z hz => ?_⟩
    rw [hs.peerOf] at hz
    exact hfits.2 z hz
  | named y link =>
    obtain ⟨hmem, hpeer, c, hc, hsocket⟩ := hfits
    obtain ⟨c', hc', hsocket', -⟩ := hs.owners.getConfigId hc
    refine ⟨hs.sockets ▸ hmem, fun z hz => ?_, c', hc', hsocket'.trans hsocket⟩
    rw [hs.peerOf] at hz
    exact hpeer z hz

theorem Consistent.of_same (hs : s.SameShape s') (hc : Consistent s stage) :
    Consistent s' stage where
  registry := by
    rw [hs.sockets]
    exact (hs.owners.withSockets _).wellFormed hc.registry
  nodup := hs.sockets ▸ hc.nodup
  live x := by
    rw [hs.mem_heap, hs.sockets]
    exact hc.live x
  outside x hx := hs.sockets ▸ hc.outside x hx
  wifi x a' d ha' hd := by
    obtain ⟨a, ha, hkind⟩ := hs.kinds x a' ha'
    rw [hs.links]
    exact hc.wifi x a d ha (hkind ▸ hd)
  devices x c' hx := by
    obtain ⟨c, hc', -, hdevice⟩ := hs.owners.symm.getConfigSocket hx
    rw [hs.deviceOf, ← hdevice]
    exact hc.devices x c hc'
  unique x y d hx hy := by
    rw [hs.deviceOf] at hx hy
    exact hc.unique x y d hx hy
  stage := hc.stage.of_same hs

theorem Knows.of_same (hs : s.SameShape s') (hg : Knows s h g) : Knows s' h g where
  known x hx := hs.sockets ▸ hg.known x hx
  device x d hx hd := hs.deviceOf.trans (hg.device x d hx hd)
  wifi x hx hw := by
    rw [hs.links]
    exact hg.wifi x hx hw

/-- What is known of a handle depends on the handle only. -/
theorem Knows.congr (hg : Knows s h g)
    (hsock : ∀ x, g.known = some x → x ∈ s'.registry.sockets)
    (hheap : ∀ x, g.known = some x → s'.heap.lookup x = s.heap.lookup x) : Knows s' h g where
  known x hx := ⟨hsock x hx, (hg.known x hx).2⟩
  device x d hx hd := by
    rw [SharedState.deviceOf, hheap x hx]
    exact hg.device x d hx hd
  wifi x hx hw := by
    rw [hheap x hx]
    exact hg.wifi x hx hw

theorem Knows.mono (hg : Knows s h g) {h' : Locks}
    (hj : ∀ x, g.known = some x → Justified h' x) : Knows s h' g :=
  ⟨fun x hx => ⟨(hg.known x hx).1, hj x hx⟩, hg.device, hg.wifi⟩

theorem deviceOf_of_peerOf {link : BratislavaLink} (h : s.peerOf x = some link.device) :
    s.deviceOf x = some (getDeviceID link) := by
  obtain ⟨b, hb, hdevice⟩ := Option.map_eq_some_iff.mp h
  rw [SharedState.deviceOf, hb, Option.map_some, getDeviceID_of_device hdevice]

theorem mem_heap_of_deviceOf {d : String} (h : s.deviceOf x = some d) : x ∈ s.heap := by
  obtain ⟨b, hb, -⟩ := Option.map_eq_some_iff.mp h
  exact Finmap.mem_of_lookup_eq_some hb

namespace Consistent

variable (hc : Consistent s stage)

include hc

/-- The config of a socket that has one. -/
theorem config_of_filed (hx : x ∈ stage.filed s.registry.sockets) :
    ∃ c, s.registry.getConfigSocket x = some c ∧ c.socket = some x ∧
      s.deviceOf x = some c.deviceId := by
  obtain ⟨c, hget⟩ := hc.registry.mem_sockets_iff.mp hx
  have hsocket := (hc.registry.getConfigSocket_iff_getConfigId.mp hget).2
  exact ⟨c, hget, hsocket, hc.devices x c hget⟩

/-- A config that names a socket is found under the socket too. -/
theorem getConfigSocket_of_getConfigId {id : String} {c : BratislavaSocketConfig}
    (hid : s.registry.getConfigId id = some c) (hx : c.socket = some x) :
    s.registry.getConfigSocket x = some c ∧ x ∈ stage.filed s.registry.sockets ∧
      s.deviceOf x = some id := by
  have hdevice : c.deviceId = id := hc.registry.deviceId_of_getConfigId hid
  have hget : s.registry.getConfigSocket x = some c :=
    hc.registry.getConfigSocket_iff_getConfigId.mpr ⟨hdevice ▸ hid, hx⟩
  exact ⟨hget, hc.registry.mem_sockets_iff.mpr ⟨c, hget⟩, hdevice ▸ hc.devices x c hget⟩

/-- A socket is found under its device. -/
theorem getConfigId_of_filed (hx : x ∈ stage.filed s.registry.sockets) {id : String}
    (hdevice : s.deviceOf x = some id) :
    ∃ c, s.registry.getConfigId id = some c ∧ c.socket = some x ∧ c.deviceId = id := by
  obtain ⟨c, hget, hsocket, hown⟩ := hc.config_of_filed hx
  have hid : c.deviceId = id := Option.some.inj (hown.symm.trans hdevice)
  have hget' : s.registry.getConfigId c.deviceId = some c :=
    (hc.registry.getConfigSocket_iff_getConfigId.mp hget).1
  exact ⟨c, hid ▸ hget', hsocket, hid⟩

/-- An update with a copy for a socket that has a config and for its device. -/
theorem sameOwners_updateConfig {c : BratislavaSocketConfig}
    (hx : x ∈ stage.filed s.registry.sockets) (hsocket : c.socket = some x)
    (hdevice : s.deviceOf x = some c.deviceId) :
    SameOwners s.registry (s.registry.updateConfig c).2 := by
  obtain ⟨c₀, hget, hsocket₀, hdevice₀⟩ := hc.config_of_filed hx
  obtain ⟨p, hp, hc₀⟩ := Option.bind_eq_some_iff.mp hget
  refine BratislavaSocketRegistry.sameOwners_updateConfig (p := p) ?_ hc₀ ?_
  · rw [updateTarget, hsocket, Option.bind_some, hp, Option.some_or]
  · rw [hdevice₀] at hdevice
    exact Prod.ext (hsocket.trans hsocket₀.symm) (Option.some.inj hdevice).symm

end Consistent

/-! ## Whose stage it is -/

theorem Current.congr (hcur : Current G stage) (heq : ∀ u, (G' u).stage = (G u).stage) :
    Current G' stage := by
  refine ⟨fun u => ?_, fun hne => ?_⟩
  · rw [heq]
    exact hcur.1 u
  · obtain ⟨u, hu⟩ := hcur.2 hne
    exact ⟨u, (heq u).trans hu⟩

theorem stage_update (hstage : g'.stage = (G t).stage) (u : Tid) :
    (Function.update G t g' u).stage = (G u).stage := by
  by_cases hu : u = t
  · rw [hu, Function.update_self, hstage]
  · rw [Function.update_of_ne hu]

namespace Kept

variable (hk : Kept s H G)

include hk

theorem idle_of_ne (hex : Excludes H) (ht : (.bsockCreation, .exclusive) ∈ H t) (hu : u ≠ t) :
    (G u).stage = .idle := by
  by_contra hbusy
  exact hu (hex t u _ _ ht (hk.busy u hbusy))

/-- The state is at the stage of the thread that holds the creation lock. -/
theorem consistent_of_creating (hex : Excludes H) (ht : (.bsockCreation, .exclusive) ∈ H t) :
    Consistent s (G t).stage := by
  obtain ⟨stage, ⟨hall, hsome⟩, hc⟩ := hk.consistent
  have hstage : stage = (G t).stage := by
    rcases hall t with hidle | heq
    · by_contra hne
      have hbusy : stage ≠ .idle := fun h => hne (h.trans hidle.symm)
      obtain ⟨u, hu⟩ := hsome hbusy
      by_cases hut : u = t
      · exact hne (hut ▸ hu.symm)
      · exact hbusy (hu.symm.trans (hk.idle_of_ne hex ht hut))
    · exact heq.symm
  exact hstage ▸ hc

theorem consistent_of_busy (hex : Excludes H) (ht : (G t).stage ≠ .idle) :
    Consistent s (G t).stage := hk.consistent_of_creating hex (hk.busy t ht)

/-- What a thread knows to be registered has a config. -/
theorem filed_of_known (hex : Excludes H) (hx : (G t).known = some x) :
    ∃ stage, Current G stage ∧ Consistent s stage ∧ x ∈ stage.filed s.registry.sockets := by
  obtain ⟨stage, hcur, hc⟩ := hk.consistent
  obtain ⟨hmem, hjust⟩ := (hk.knows t).known x hx
  refine ⟨stage, hcur, hc, ?_⟩
  cases stage with
  | adding y link => exact List.mem_append_left _ hmem
  | removing y =>
    refine (List.mem_erase_of_ne ?_).mpr hmem
    rintro rfl
    -- The thread that freed the config holds alone every lock that could justify this one.
    obtain ⟨u, hu⟩ := hcur.2 (by simp)
    obtain ⟨hnone, hdel, hbsock⟩ := hk.removing u x hu
    have hrec := hk.inside u (by rw [hu]; trivial)
    have htu : t = u := by
      rcases hjust with hname | hname | hname
      · exact excludes_names hex hdel hname
      · exact excludes_names hex hrec hname
      · exact excludes_names hex hbsock hname
    rw [htu, hnone] at hx
    cases hx
  | _ => exact hmem

omit hk in
theorem knows_update (hg : Knows s' (H t) g') (hu : ∀ u, u ≠ t → Knows s' (H u) (G u)) (u : Tid) :
    Knows s' (H u) (Function.update G t g' u) := by
  by_cases hut : u = t
  · rw [hut, Function.update_self]
    exact hg
  · rw [Function.update_of_ne hut]
    exact hu u hut

/-- A thread learns, and stays at its stage. -/
theorem learn (hs : s.SameShape s') (hstage : g'.stage = (G t).stage)
    (hknown : (∃ x, (G t).stage = .removing x) → g'.known = (G t).known)
    (hg : Knows s' (H t) g') : Kept s' H (Function.update G t g') where
  consistent := by
    obtain ⟨stage, hcur, hc⟩ := hk.consistent
    exact ⟨stage, hcur.congr (stage_update hstage), hc.of_same hs⟩
  busy u hu := by
    rw [stage_update hstage] at hu
    exact hk.busy u hu
  inside u hu := by
    rw [stage_update hstage] at hu
    exact hk.inside u hu
  removing u x hu := by
    rw [stage_update hstage] at hu
    obtain ⟨hnone, hlocks⟩ := hk.removing u x hu
    refine ⟨?_, hlocks⟩
    by_cases hut : u = t
    · subst hut
      rw [Function.update_self, hknown ⟨x, hu⟩, hnone]
    · rw [Function.update_of_ne hut, hnone]
  knows := knows_update hg fun u _ => (hk.knows u).of_same hs

/-- Nobody learns. -/
theorem of_same (hs : s.SameShape s') : Kept s' H G := by
  have hg : Knows s' (H 0) (G 0) := (hk.knows 0).of_same hs
  have hsame := hk.learn hs rfl (fun _ => rfl) hg
  rwa [Function.update_eq_self] at hsame

/-- The thread that holds the creation lock goes on to another stage. -/
theorem advance (hex : Excludes H) (ht : (.bsockCreation, .exclusive) ∈ H t)
    (hc : Consistent s' g'.stage) (hinside : g'.stage.InRegistry → (.recursive, .exclusive) ∈ H t)
    (hremoving : ∀ x, g'.stage = .removing x → g'.known = none ∧
      (.bsockDeletion, .exclusive) ∈ H t ∧ (.sharedBsock x, .exclusive) ∈ H t)
    (hg : Knows s' (H t) g') (hu : ∀ u, u ≠ t → Knows s' (H u) (G u)) :
    Kept s' H (Function.update G t g') where
  consistent := by
    refine ⟨g'.stage, ⟨fun u => ?_, fun _ => ⟨t, by rw [Function.update_self]⟩⟩, hc⟩
    by_cases hut : u = t
    · rw [hut, Function.update_self]
      exact Or.inr rfl
    · rw [Function.update_of_ne hut]
      exact Or.inl (hk.idle_of_ne hex ht hut)
  busy u hbusy := by
    by_cases hut : u = t
    · exact hut ▸ ht
    · rw [Function.update_of_ne hut] at hbusy
      exact hk.busy u hbusy
  inside u hin := by
    by_cases hut : u = t
    · subst hut
      rw [Function.update_self] at hin
      exact hinside hin
    · rw [Function.update_of_ne hut] at hin
      exact hk.inside u hin
  removing u x hstage := by
    by_cases hut : u = t
    · subst hut
      rw [Function.update_self] at hstage ⊢
      exact hremoving x hstage
    · rw [Function.update_of_ne hut] at hstage ⊢
      exact hk.removing u x hstage
  knows := knows_update hg hu

end Kept

/-! ## From one stage to the next -/

section Stages

variable {link : BratislavaLink}

/-- Only what the call knows has changed. -/
theorem Consistent.restage (hc : Consistent s stage) {stage' : Stage}
    (hfiled : stage'.filed s.registry.sockets = stage.filed s.registry.sockets)
    (houtside : stage'.outside = stage.outside) (hfits : stage'.Fits s) : Consistent s stage' where
  registry := hfiled ▸ hc.registry
  nodup := hc.nodup
  live x := houtside ▸ hc.live x
  outside x hx := hc.outside x (houtside ▸ hx)
  wifi := hc.wifi
  devices := hc.devices
  unique := hc.unique
  stage := hfits

/-- What is found under the id of a link that resolves. -/
theorem Consistent.resolve (hc : Consistent s (.resolving link)) :
    Consistent s (lookedUp (s.registry.getConfigId link.linkID) link.linkID (.resolving link)) := by
  have hresolves : s.Resolves link := hc.stage
  have hmem {y : SocketPtr} {d : String} (hy : s.deviceOf y = some d) : y ∈ s.registry.sockets :=
    ((hc.live y).mp (mem_heap_of_deviceOf hy)).resolve_right (by simp [Stage.outside])
  simp only [lookedUp, if_true]
  split
  · rename_i x hfound
    obtain ⟨c, hget, hsocket⟩ := Option.bind_eq_some_iff.mp hfound
    obtain ⟨-, hx, hdevice⟩ := hc.getConfigSocket_of_getConfigId hget hsocket
    refine hc.restage rfl rfl ⟨hx, fun y hy => ?_, c, hget, hsocket⟩
    have hy' := deviceOf_of_peerOf hy
    rcases hresolves with heq | hall
    · exact hc.unique y x _ hy' (heq ▸ hdevice)
    · exact absurd hy (hall y (hmem hy') hy').2
  · rename_i hfound
    refine hc.restage rfl rfl fun x hx => ?_
    rcases hresolves with heq | hall
    · obtain ⟨c, hget, hsocket, -⟩ := hc.getConfigId_of_filed (hmem hx) hx
      rw [← heq] at hget
      rw [hget, Option.bind_some, hsocket] at hfound
      cases hfound
    · have hexists := (hall x (hmem hx) hx).1
      unfold existsId at hexists
      cases hget : s.registry.getConfigId link.linkID with
      | none => simp [hget] at hexists
      | some c =>
        rw [hget, Option.bind_some] at hfound
        simp [hget, hfound] at hexists

theorem newSocket_spec {reuse : Bool} {e : Choice} {answer : Option SocketPtr}
    (h : s.newSocket reuse link e = some (answer, s')) (hlink : link.Supported) :
    answer = some e.address ∧ e.address ∉ s.heap ∧ ∃ a fds,
      s' = s.allocate e.address { link, adapter := .object a } fds ∧
      ∀ d, a.kind = .wifi d → link.instrumentType = .wifi := by
  simp only [SharedState.newSocket] at h
  split at h
  · rename_i hfresh
    split at h
    · rename_i a hadapter
      split at h
      · cases h
        refine ⟨rfl, hfresh.1, a, _, rfl, fun d hd => ?_⟩
        rcases hlink with htype | htype
        · simp only [newAdapter, htype, AdapterSlot.object.injEq] at hadapter
          rw [← hadapter] at hd
          cases hd
        · exact htype
      · cases h
    · rename_i hadapter
      have hobject : ∃ a, newAdapter link e = .object a := by
        rcases hlink with htype | htype <;> simp [newAdapter, htype]
      obtain ⟨a, ha⟩ := hobject
      exact (hadapter a ha).elim
  · cases h

/-- A new object for a device that no object is for. -/
theorem Consistent.allocate (hc : Consistent s (.vacant link)) (hx : x ∉ s.heap) {a : Adapter}
    {fds : List Int} (hkind : ∀ d, a.kind = .wifi d → link.instrumentType = .wifi) :
    Consistent (s.allocate x { link, adapter := .object a } fds) (.made x link) := by
  have hlookup (y : SocketPtr) : (s.allocate x { link, adapter := .object a } fds).heap.lookup y =
      if y = x then some { link, adapter := .object a } else s.heap.lookup y :=
    Finmap.lookup_insert_ite _ _ _ _
  have hdevice (y : SocketPtr) : (s.allocate x { link, adapter := .object a } fds).deviceOf y =
      if y = x then some (getDeviceID link) else s.deviceOf y := by
    rw [SharedState.deviceOf, hlookup]
    split <;> rfl
  have hsockets {y : SocketPtr} (hy : y ∈ s.registry.sockets) : y ≠ x := by
    rintro rfl
    exact hx ((hc.live y).mpr (Or.inl hy))
  have hvacant : ∀ y, s.deviceOf y ≠ some (getDeviceID link) := hc.stage
  refine ⟨hc.registry, hc.nodup, fun y => ?_, ?_, fun y a' d ha' hd => ?_, fun y c hget => ?_,
    fun y z d hy hz => ?_, ?_⟩
  · show y ∈ s.heap.insert x _ ↔ _
    rw [Finmap.mem_insert, hc.live y]
    simp only [Stage.outside, reduceCtorEq, or_false, Option.some.injEq]
    rw [or_comm, eq_comm]
    exact Iff.rfl
  · rintro y ⟨⟩ hy
    exact hsockets hy rfl
  · rw [hlookup]
    by_cases hyx : y = x
    · rw [SharedState.adapterOf, hlookup, if_pos hyx] at ha'
      cases ha'
      rw [if_pos hyx]
      exact ⟨link, rfl, hkind d hd⟩
    · rw [SharedState.adapterOf, hlookup, if_neg hyx] at ha'
      rw [if_neg hyx]
      exact hc.wifi y a' d ha' hd
  · have hold := hc.devices y c hget
    rw [hdevice, if_neg, hold]
    rintro rfl
    exact hx (mem_heap_of_deviceOf hold)
  · rw [hdevice] at hy hz
    split at hy <;> split at hz
    · rename_i hyx hzx
      exact hyx.trans hzx.symm
    · cases hy
      exact absurd hz (hvacant z)
    · cases hz
      exact absurd hy (hvacant y)
    · exact hc.unique y z d hy hz
  · show ((s.allocate x _ fds).heap.lookup x).map _ = _
    rw [hlookup, if_pos rfl, Option.map_some]

/-- `CreateConfig` of the new socket. -/
theorem Consistent.createConfig (hc : Consistent s (.made x link)) {p : ConfigPtr}
    (hp : p ∉ s.registry.configs) :
    Consistent (s.setRegistry (s.registry.createConfigSocket x link p)) (.adding x link) := by
  have hx : x ∉ s.registry.sockets := hc.outside x rfl
  have hdevice : s.deviceOf x = some (getDeviceID link) := by
    have hlink : (s.heap.lookup x).map (·.link) = some link := hc.stage
    have hmap := congrArg (Option.map getDeviceID) hlink
    rwa [Option.map_map] at hmap
  have hregistry : WellFormed s.registry := hc.registry
  -- A socket of the device would be another object for it.
  have hfree : ∀ c, s.registry.getConfigId (getDeviceID link) = some c → c.socket = none := by
    intro c hget
    cases hsocket : c.socket with
    | none => rfl
    | some y =>
      obtain ⟨-, hy, hown⟩ := hc.getConfigSocket_of_getConfigId hget hsocket
      cases hc.unique x y _ hdevice hown
      exact absurd hy hx
  have hfiles := add_files hregistry hx hfree hp
  have hsockets := sockets_createConfigSocket s.registry x link p
  refine ⟨hfiles.wellFormed, ?_, fun y => ?_, ?_, hc.wifi, fun y c hget => ?_, hc.unique, hc.stage⟩
  · exact hsockets ▸ hc.nodup
  · show y ∈ s.heap ↔ y ∈ (s.registry.createConfigSocket x link p).sockets ∨ _
    rw [hsockets]
    exact hc.live y
  · rintro y ⟨⟩
    show x ∉ (s.registry.createConfigSocket x link p).sockets
    rwa [hsockets]
  · rcases hfiles.getConfigSocket hregistry (x := y) hget with ⟨hv, hid, hsocket⟩ | hold
    · cases hv
      cases hsocket
      rw [hid]
      exact hdevice
    · exact hc.devices y c hold

theorem Consistent.push (hc : Consistent s (.adding x link)) :
    Consistent (s.setRegistry { s.registry with sockets := s.registry.sockets ++ [x] })
      (.settled x link) := by
  have hx : x ∉ s.registry.sockets := hc.outside x rfl
  refine ⟨hc.registry, ?_, fun y => ?_, fun y hy => (by cases hy), hc.wifi, hc.devices, hc.unique,
    ?_, fun y hy => ?_⟩
  · exact List.nodup_append'.mpr ⟨hc.nodup, List.nodup_singleton x,
      fun y hy hyx => hx (List.mem_singleton.mp hyx ▸ hy)⟩
  · show y ∈ s.heap ↔ y ∈ s.registry.sockets ++ [x] ∨ _
    rw [hc.live y]
    simp [Stage.outside, eq_comm]
  · exact List.mem_append_right _ (List.mem_singleton_self x)
  · have hlink : (s.heap.lookup x).map (·.link) = some link := hc.stage
    have hmap := congrArg (Option.map getDeviceID) hlink
    rw [Option.map_map] at hmap
    exact hc.unique y x _ (deviceOf_of_peerOf hy) hmap

theorem Consistent.removeConfig (hc : Consistent s .idle) (hx : x ∈ s.registry.sockets) :
    Consistent (s.setRegistry (s.registry.removeConfig x)) (.removing x) := by
  obtain ⟨c, hget, -, -⟩ := hc.config_of_filed hx
  have hregistry : WellFormed s.registry := hc.registry
  have hfiles := removeConfig_files hregistry hget
  have hsockets := sockets_removeConfig s.registry x
  refine ⟨?_, ?_, fun y => ?_, fun y hy => (by cases hy), hc.wifi, fun y c' hget' => ?_, hc.unique,
    ?_⟩
  · show WellFormed { s.registry.removeConfig x with
      sockets := (s.registry.removeConfig x).sockets.erase x }
    rw [hsockets]
    exact hfiles.wellFormed
  · exact hsockets ▸ hc.nodup
  · show y ∈ s.heap ↔ y ∈ (s.registry.removeConfig x).sockets ∨ _
    rw [hsockets]
    exact hc.live y
  · rcases hfiles.getConfigSocket hregistry (x := y) hget' with ⟨hv, -⟩ | hold
    · cases hv
    · exact hc.devices y c' hold
  · show x ∈ (s.registry.removeConfig x).sockets
    rwa [hsockets]

theorem Consistent.erase (hc : Consistent s (.removing x)) {removed : List SocketPtr} :
    Consistent { s.setRegistry { s.registry with sockets := s.registry.sockets.erase x } with
      removed } (.removed x) := by
  have hx : x ∈ s.registry.sockets := hc.stage
  refine ⟨hc.registry, hc.nodup.erase x, fun y => ?_, ?_, hc.wifi, hc.devices, hc.unique, trivial⟩
  · show y ∈ s.heap ↔ y ∈ s.registry.sockets.erase x ∨ _
    rw [hc.live y, hc.nodup.mem_erase_iff]
    by_cases hy : y = x
    · subst hy
      simp [Stage.outside, hx]
    · simp [Stage.outside, hy, Ne.symm hy]
  · rintro y ⟨⟩ hy
    exact (hc.nodup.mem_erase_iff.mp hy).1 rfl

theorem Consistent.delete (hc : Consistent s (.removed x)) {deleted : List SocketPtr} :
    Consistent { s with heap := s.heap.erase x, deleted } .idle := by
  have hx : x ∉ s.registry.sockets := hc.outside x rfl
  have hlookup (y : SocketPtr) : (s.heap.erase x).lookup y =
      if y = x then none else s.heap.lookup y := Finmap.lookup_erase_ite _ _ _
  have hdevice {y : SocketPtr} {d : String}
      (hy : SharedState.deviceOf { s with heap := s.heap.erase x, deleted } y = some d) :
      s.deviceOf y = some d := by
    simp only [SharedState.deviceOf, hlookup] at hy
    split at hy
    · cases hy
    · exact hy
  have hkept {y : SocketPtr} (hy : y ≠ x) :
      (s.heap.erase x).lookup y = s.heap.lookup y := Finmap.lookup_erase_ne hy
  refine ⟨hc.registry, hc.nodup, fun y => ?_, fun y hy => (by cases hy), fun y a d ha hd => ?_,
    fun y c hget => ?_, fun y z d hy hz => hc.unique y z d (hdevice hy) (hdevice hz), trivial⟩
  · show y ∈ s.heap.erase x ↔ y ∈ s.registry.sockets ∨ _
    rw [Finmap.mem_erase, hc.live y]
    by_cases hy : y = x
    · subst hy
      simp [Stage.outside, hx]
    · simp [Stage.outside, hy, Ne.symm hy]
  · by_cases hy : y = x
    · simp [SharedState.adapterOf, hlookup, hy] at ha
    · rw [SharedState.adapterOf, hkept hy] at ha
      rw [hkept hy]
      exact hc.wifi y a d ha hd
  · have hregistered : y ∈ s.registry.sockets := hc.registry.mem_sockets_iff.mpr ⟨c, hget⟩
    have hy : y ≠ x := fun heq => hx (heq ▸ hregistered)
    rw [SharedState.deviceOf, hkept hy]
    exact hc.devices y c hget

end Stages

/-! ## Acts -/

namespace Kept

variable (hk : Kept s H G)

include hk

theorem same : Kept s H (Function.update G t (G t)) := by
  rw [Function.update_eq_self]
  exact hk

theorem find (hmay : (.recursive, .exclusive) ∈ H t ∧ (G t).stage = .idle) :
    Kept s H (Function.update G t
      (acted (G t) (.findSocket x) (s.registry.existsSocket x))) := by
  cases hfound : s.registry.existsSocket x with
  | false => exact hk.same
  | true =>
    have hx : x ∈ s.registry.sockets := of_decide_eq_true hfound
    refine hk.learn (.refl s) rfl ?_ ⟨?_, fun y d _ hd => (by cases hd), fun y _ hw => by cases hw⟩
    · rintro ⟨y, hy⟩
      cases hmay.2.symm.trans hy
    · rintro y ⟨⟩
      exact ⟨hx, Or.inr (Or.inl (mem_lockNames_of_mem hmay.1))⟩

/-- The device of a known handle has been read. -/
theorem learn_device {d : String} (hd : s.deviceOf x = some d) (hx : (G t).known = some x) :
    Kept s H (Function.update G t { G t with device := some d }) := by
  have hg := hk.knows t
  refine hk.learn (.refl s) rfl (fun _ => rfl) ⟨hg.known, fun y d' hy hd' => ?_, hg.wifi⟩
  cases hd'
  cases hx.symm.trans hy
  exact hd

theorem getConfigSocket :
    Answers (G t) (.getConfigSocket x) (s.registry.getConfigSocket x) ∧
      Kept s H (Function.update G t
        (acted (G t) (.getConfigSocket x) (s.registry.getConfigSocket x))) := by
  obtain ⟨stage, -, hc⟩ := hk.consistent
  refine ⟨fun c hget => (hc.registry.getConfigSocket_iff_getConfigId.mp hget).2, ?_⟩
  cases hget : s.registry.getConfigSocket x with
  | none => exact hk.same
  | some c =>
    simp only [acted]
    split
    · exact hk.learn_device (hc.devices x c hget) ‹_›
    · exact hk.same

theorem getConfigId (hex : Excludes H) (id : String) :
    Answers (G t) (.getConfigId id) (s.registry.getConfigId id) ∧
      Kept s H (Function.update G t (acted (G t) (.getConfigId id) (s.registry.getConfigId id))) := by
  refine ⟨⟨fun x hx hd c hget => ?_, fun x link hstage heq => ?_⟩, ?_⟩
  · obtain ⟨stage, -, hc, hfiled⟩ := hk.filed_of_known hex hx
    obtain ⟨c', hget', hsocket⟩ := hc.getConfigId_of_filed hfiled ((hk.knows t).device x id hx hd)
    cases hget.symm.trans hget'
    exact hsocket
  · subst heq
    have hc := hk.consistent_of_busy (t := t) hex (by simp [hstage])
    rw [hstage] at hc
    exact hc.stage.2.2
  · -- The lookup matters to the thread that resolves a link.
    have hstage {stage : Stage} (hne : stage ≠ .idle) (hstage : (G t).stage = stage)
        (hc : Consistent s stage →
          Consistent s (lookedUp (s.registry.getConfigId id) id stage))
        (hquiet : ¬ (lookedUp (s.registry.getConfigId id) id stage).InRegistry) :
        Kept s H (Function.update G t
          (acted (G t) (.getConfigId id) (s.registry.getConfigId id))) := by
      have hbusy : (G t).stage ≠ .idle := hstage ▸ hne
      have hold := hk.consistent_of_busy hex hbusy
      rw [hstage] at hold
      have hnew := hc hold
      rw [← hstage] at hnew hquiet
      refine hk.advance hex (hk.busy t hbusy) hnew (fun hin => absurd hin hquiet)
        (fun x hx => absurd ?_ hquiet)
        ⟨(hk.knows t).known, (hk.knows t).device, (hk.knows t).wifi⟩ fun u _ => hk.knows u
      have hx' : lookedUp (s.registry.getConfigId id) id (G t).stage = .removing x := hx
      rw [hx']
      trivial
    cases hst : (G t).stage with
    | resolving link =>
      refine hstage (by simp) hst (fun hc => ?_) ?_
      · by_cases hid : id = link.linkID
        · exact hid ▸ hc.resolve
        · rwa [lookedUp, if_neg hid]
      · simp only [lookedUp]
        split
        · split <;> exact fun hin => hin
        · exact fun hin => hin
    | named x link =>
      refine hstage (by simp) hst (fun hc => ?_) ?_
      · simp only [lookedUp]
        split
        · exact hc.restage rfl rfl ⟨hc.stage.1, hc.stage.2.1⟩
        · exact hc
      · simp only [lookedUp]
        split <;> exact fun hin => hin
    | _ =>
      have hsame : acted (G t) (.getConfigId id) (s.registry.getConfigId id) = G t := by
        simp only [acted, hst, lookedUp]
        rw [← hst]
      rw [hsame]
      exact hk.same

theorem readLink (hex : Excludes H) {b : BratislavaSocket} (hb : s.heap.lookup x = some b) :
    Answers (G t) (.readLink x) b.link ∧
      Kept s H (Function.update G t (acted (G t) (.readLink x) b.link)) := by
  have hlink : (s.heap.lookup x).map (·.link) = some b.link := by rw [hb, Option.map_some]
  refine ⟨⟨fun link hstage => ?_, fun hx hw => ?_⟩, ?_⟩
  · have hc := hk.consistent_of_busy (t := t) hex (by simp [hstage])
    rw [hstage] at hc
    exact Option.some.inj (hlink.symm.trans hc.stage)
  · obtain ⟨link, hlink', htype⟩ := (hk.knows t).wifi x hx hw
    cases hlink.symm.trans hlink'
    exact htype
  · simp only [acted]
    split
    · exact hk.learn_device (by rw [SharedState.deviceOf, hb, Option.map_some]) ‹_›
    · exact hk.same

theorem adapter {reuse : Bool} {act : AdapterAct} {e : Choice}
    {answer : act.Answer} (hexec : s.exec reuse (.adapter x act) e = some (answer, s')) :
    Kept s' H (Function.update G t (acted (G t) (.adapter x act) answer)) := by
  have hs := SharedState.sameShape_adapter hexec
  have hsame := (hk.of_same hs).same (t := t)
  cases act with
  | kind =>
    cases answer with
    | bluetooth => exact hsame
    | wifi d =>
      simp only [acted]
      split
      · rename_i hx
        have hg := (hk.knows t).of_same hs
        refine hk.learn hs rfl (fun _ => rfl) ⟨hg.known, hg.device, fun y hy _ => ?_⟩
        cases hx.symm.trans hy
        obtain ⟨stage, -, hc⟩ := hk.consistent
        obtain ⟨a, ha, hkind⟩ := SharedState.adapterOf_of_kind hexec
        rw [hs.links]
        exact hc.wifi x a d ha hkind
      · exact hsame
  | _ => exact hsame

theorem create (hex : Excludes H) {link : BratislavaLink} {p : ConfigPtr}
    (hmay : (G t).stage = .made x link ∧ (.recursive, .exclusive) ∈ H t)
    (hp : p ∉ s.registry.configs) :
    Kept (s.setRegistry (s.registry.createConfigSocket x link p)) H
      (Function.update G t { G t with stage := .adding x link }) := by
  obtain ⟨hstage, hrec⟩ := hmay
  have hcreate := hk.busy t (by simp [hstage])
  have hc := hk.consistent_of_creating hex hcreate
  rw [hstage] at hc
  have hkeep {h : Locks} {g : Insight} (hg : Knows s h g) :
      Knows (s.setRegistry (s.registry.createConfigSocket x link p)) h g := by
    refine hg.congr (fun y hy => ?_) fun _ _ => rfl
    show y ∈ (s.registry.createConfigSocket x link p).sockets
    rw [sockets_createConfigSocket]
    exact (hg.known y hy).1
  have hg := hkeep (hk.knows t)
  exact hk.advance hex hcreate (hc.createConfig hp) (fun _ => hrec) (fun y hy => by cases hy)
    ⟨hg.known, hg.device, hg.wifi⟩ fun u _ => hkeep (hk.knows u)

theorem push (hex : Excludes H) {link : BratislavaLink} (hstage : (G t).stage = .adding x link) :
    Kept (s.setRegistry { s.registry with sockets := s.registry.sockets ++ [x] }) H
      (Function.update G t { G t with stage := .settled x link }) := by
  have hcreate := hk.busy t (by simp [hstage])
  have hc := hk.consistent_of_creating hex hcreate
  rw [hstage] at hc
  have hkeep {h : Locks} {g : Insight} (hg : Knows s h g) :
      Knows (s.setRegistry { s.registry with sockets := s.registry.sockets ++ [x] }) h g :=
    hg.congr (fun y hy => List.mem_append_left _ (hg.known y hy).1) fun _ _ => rfl
  have hg := hkeep (hk.knows t)
  exact hk.advance hex hcreate hc.push (fun hin => hin.elim) (fun y hy => by cases hy)
    ⟨hg.known, hg.device, hg.wifi⟩ fun u _ => hkeep (hk.knows u)

theorem new (hex : Excludes H) {reuse : Bool} {link : BratislavaLink} {e : Choice}
    {answer : Option SocketPtr} (hstage : (G t).stage = .vacant link) (hlink : link.Supported)
    (h : s.newSocket reuse link e = some (answer, s')) :
    answer.isSome ∧
      Kept s' H (Function.update G t (acted (G t) (.newSocket link) answer)) := by
  obtain ⟨rfl, hfresh, a, fds, rfl, hkind⟩ := newSocket_spec h hlink
  refine ⟨rfl, ?_⟩
  have hcreate := hk.busy t (by simp [hstage])
  have hc := hk.consistent_of_creating hex hcreate
  rw [hstage] at hc
  have hkeep {h : Locks} {g : Insight} (hg : Knows s h g) :
      Knows (s.allocate e.address { link, adapter := .object a } fds) h g := by
    refine hg.congr (fun y hy => (hg.known y hy).1) fun y hy => Handles.lookup_allocate ?_
    rintro rfl
    exact hfresh ((hc.live _).mpr (Or.inl (hg.known _ hy).1))
  have hg := hkeep (hk.knows t)
  exact hk.advance hex hcreate (hc.allocate hfresh hkind) (fun hin => hin.elim)
    (fun y hy => by cases hy) ⟨hg.known, hg.device, hg.wifi⟩ fun u _ => hkeep (hk.knows u)

theorem unfile (hex : Excludes H)
    (hmay : MayAct (H t) (G t) (.removeConfig x)) :
    Kept (s.setRegistry (s.registry.removeConfig x)) H
      (Function.update G t { G t with stage := .removing x, known := none }) := by
  obtain ⟨hstage, hknown, hcreate, hrec, hdel, hbsock⟩ := hmay
  have hc := hk.consistent_of_creating hex hcreate
  rw [hstage] at hc
  have hkeep {h : Locks} {g : Insight} (hg : Knows s h g) :
      Knows (s.setRegistry (s.registry.removeConfig x)) h g := by
    refine hg.congr (fun y hy => ?_) fun _ _ => rfl
    show y ∈ (s.registry.removeConfig x).sockets
    rw [sockets_removeConfig]
    exact (hg.known y hy).1
  refine hk.advance hex hcreate (hc.removeConfig ((hk.knows t).known x hknown).1) (fun _ => hrec)
    ?_ ⟨fun y hy => (by cases hy), fun y d hy => (by cases hy), fun y hy => by cases hy⟩
    fun u _ => hkeep (hk.knows u)
  rintro y ⟨⟩
  exact ⟨rfl, hdel, hbsock⟩

theorem erase (hex : Excludes H) (hstage : (G t).stage = .removing x) :
    Kept { s.setRegistry { s.registry with sockets := s.registry.sockets.erase x } with
        removed := x :: s.removed } H
      (Function.update G t { G t with stage := .removed x }) := by
  have hcreate := hk.busy t (by simp [hstage])
  have hc := hk.consistent_of_creating hex hcreate
  have hrec := hk.inside t (by rw [hstage]; trivial)
  obtain ⟨hnone, hdel, hbsock⟩ := hk.removing t x hstage
  rw [hstage] at hc
  refine hk.advance hex hcreate hc.erase (fun hin => hin.elim) (fun y hy => by cases hy) ?_
    fun u hu => ?_
  · exact ⟨fun y hy => absurd (hnone.symm.trans hy) (by simp),
      fun y d hy => absurd (hnone.symm.trans hy) (by simp),
      fun y hy => absurd (hnone.symm.trans hy) (by simp)⟩
  · have hg := hk.knows u
    refine hg.congr (fun y hy => ?_) fun _ _ => rfl
    obtain ⟨hmem, hjust⟩ := hg.known y hy
    refine (List.mem_erase_of_ne ?_).mpr hmem
    rintro rfl
    rcases hjust with hname | hname | hname
    · exact hu (excludes_names hex hdel hname)
    · exact hu (excludes_names hex hrec hname)
    · exact hu (excludes_names hex hbsock hname)

theorem delete (hex : Excludes H) (hstage : (G t).stage = .removed x)
    (h : s.deleteSocket x = some s') :
    Kept s' H (Function.update G t { G t with stage := .idle }) := by
  have hcreate := hk.busy t (by simp [hstage])
  have hc := hk.consistent_of_creating hex hcreate
  rw [hstage] at hc
  simp only [SharedState.deleteSocket] at h
  split at h
  · cases h
    have hkeep {h : Locks} {g : Insight} (hg : Knows s h g) :
        Knows { s with heap := s.heap.erase x, deleted := x :: s.deleted } h g := by
      refine hg.congr (fun y hy => (hg.known y hy).1) fun y hy => Finmap.lookup_erase_ne ?_
      rintro rfl
      exact hc.outside _ rfl (hg.known _ hy).1
    have hg := hkeep (hk.knows t)
    exact hk.advance hex hcreate hc.delete (fun hin => hin.elim) (fun y hy => by cases hy)
      ⟨hg.known, hg.device, hg.wifi⟩ fun u _ => hkeep (hk.knows u)
  · cases h

theorem act (hex : Excludes H) {reuse : Bool} {a : SocketAct} {e : Choice} {answer : a.Answer}
    (hmay : MayAct (H t) (G t) a) (hexec : s.exec reuse a e = some (answer, s')) :
    Answers (G t) a answer ∧ Kept s' H (Function.update G t (acted (G t) a answer)) := by
  cases a with
  | lastSocket | createConfigId | removeUnusedConfig => exact hmay.elim
  | findSocket y =>
    cases hexec
    exact ⟨trivial, hk.find hmay⟩
  | getConfigSocket y =>
    cases hexec
    exact hk.getConfigSocket
  | getConfigId id =>
    cases hexec
    exact hk.getConfigId hex id
  | updateConfig c =>
    cases hexec
    obtain ⟨x, hx, hsocket, hdevice⟩ := hmay
    obtain ⟨stage, -, hc, hfiled⟩ := hk.filed_of_known hex hx
    have howners := hc.sameOwners_updateConfig hfiled hsocket ((hk.knows t).device x _ hx hdevice)
    exact ⟨trivial, (hk.of_same (.setRegistry howners)).same⟩
  | acquireLocalPort =>
    cases hexec
    have howners : SameOwners s.registry s.registry.acquireLocalPort.2 := by
      unfold acquireLocalPort
      split
      · exact SameOwners.withPorts _ _
      · exact SameOwners.refl _
    exact ⟨trivial, (hk.of_same (.setRegistry howners)).same⟩
  | releaseLocalPort port =>
    cases hexec
    have howners : SameOwners s.registry (s.registry.releaseLocalPort port).2 := by
      unfold releaseLocalPort
      split
      · exact SameOwners.withPorts _ _
      · exact SameOwners.refl _
    exact ⟨trivial, (hk.of_same (.setRegistry howners)).same⟩
  | readLink y =>
    obtain ⟨b, hb, heq⟩ := Option.map_eq_some_iff.mp hexec
    cases heq
    exact hk.readLink hex hb
  | hasAdapter y =>
    obtain ⟨b, hb, heq⟩ := Option.map_eq_some_iff.mp hexec
    cases heq
    exact ⟨trivial, hk.same⟩
  | turn =>
    cases hexec
    exact ⟨trivial, hk.same⟩
  | adapter y act => exact ⟨trivial, hk.adapter hexec⟩
  | newSocket link => exact hk.new hex hmay.1 hmay.2 hexec
  | createConfigSocket y link =>
    simp only [SharedState.exec] at hexec
    split at hexec
    · cases hexec
    · rename_i hfresh
      cases hexec
      exact ⟨trivial, hk.create hex hmay hfresh⟩
  | pushSocket y =>
    cases hexec
    obtain ⟨link, hstage⟩ := hmay
    refine ⟨trivial, ?_⟩
    simp only [acted, hstage]
    exact hk.push hex hstage
  | removeConfig y =>
    cases hexec
    exact ⟨trivial, hk.unfile hex hmay⟩
  | eraseSocket y =>
    cases hexec
    exact ⟨trivial, hk.erase hex hmay⟩
  | deleteAdapter y =>
    obtain ⟨s₁, h, heq⟩ := Option.map_eq_some_iff.mp hexec
    cases heq
    exact ⟨trivial, (hk.of_same (SharedState.sameShape_deleteAdapter h)).same⟩
  | deleteSocket y =>
    obtain ⟨s₁, h, heq⟩ := Option.map_eq_some_iff.mp hexec
    cases heq
    exact ⟨trivial, hk.delete hex hmay h⟩

/-! ## Locks -/

theorem start (hheld : H t = []) : Kept s H (Function.update G t {}) := by
  have hidle : (G t).stage = .idle := by
    by_contra hbusy
    have hmem := hk.busy t hbusy
    rw [hheld] at hmem
    exact List.not_mem_nil hmem
  refine hk.learn (.refl s) hidle.symm ?_ ⟨fun y hy => (by cases hy), fun y d hy => (by cases hy),
    fun y hy => by cases hy⟩
  rintro ⟨y, hy⟩
  cases hidle.symm.trans hy

/-- A thread takes or releases a lock, and what it holds still agrees with its stage. -/
theorem relock {h' : Locks} (hcur : ∃ stage, Current (Function.update G t g') stage ∧
      Consistent s stage)
    (hbusy : g'.stage ≠ .idle → (.bsockCreation, .exclusive) ∈ h')
    (hinside : g'.stage.InRegistry → (.recursive, .exclusive) ∈ h')
    (hremoving : ∀ x, g'.stage = .removing x → g'.known = none ∧
      (.bsockDeletion, .exclusive) ∈ h' ∧ (.sharedBsock x, .exclusive) ∈ h')
    (hg : Knows s h' g') :
    Kept s (Function.update H t h') (Function.update G t g') where
  consistent := hcur
  busy u hu := by
    by_cases hut : u = t
    · subst hut
      rw [Function.update_self] at hu ⊢
      exact hbusy hu
    · rw [Function.update_of_ne hut] at hu ⊢
      exact hk.busy u hu
  inside u hu := by
    by_cases hut : u = t
    · subst hut
      rw [Function.update_self] at hu ⊢
      exact hinside hu
    · rw [Function.update_of_ne hut] at hu ⊢
      exact hk.inside u hu
  removing u x hu := by
    by_cases hut : u = t
    · subst hut
      rw [Function.update_self] at hu
      rw [Function.update_self, Function.update_self]
      exact hremoving x hu
    · rw [Function.update_of_ne hut] at hu
      rw [Function.update_of_ne hut, Function.update_of_ne hut]
      exact hk.removing u x hu
  knows u := by
    by_cases hut : u = t
    · subst hut
      rwa [Function.update_self, Function.update_self]
    · rw [Function.update_of_ne hut, Function.update_of_ne hut]
      exact hk.knows u

/-- The creation lock is taken for a link that resolves. -/
theorem lock {reuse : Bool} {f : Call} {l : Mutex} {m : Mode} (hassumed : Assumed s f (.lock l m))
    (hmay : l = .bsockCreation → m = .exclusive ∧ (G t).stage = .idle)
    (hfree : Discipline.FreeFor (socketSystem reuse) H t l m) :
    Kept s (Function.update H t ((l, m) :: H t)) (Function.update G t (locked f (G t) l)) := by
  have hg : Knows s ((l, m) :: H t) (G t) :=
    (hk.knows t).mono fun x hx => ((hk.knows t).known x hx).2.cons
  have hsame : Kept s (Function.update H t ((l, m) :: H t)) (Function.update G t (G t)) := by
    refine hk.relock ?_ (fun hbusy => List.mem_cons_of_mem _ (hk.busy t hbusy))
      (fun hin => List.mem_cons_of_mem _ (hk.inside t hin)) (fun x hx => ?_) hg
    · rw [Function.update_eq_self]
      exact hk.consistent
    · obtain ⟨hnone, hdel, hbsock⟩ := hk.removing t x hx
      exact ⟨hnone, List.mem_cons_of_mem _ hdel, List.mem_cons_of_mem _ hbsock⟩
  unfold locked
  split
  · split
    · rename_i link hlink
      obtain ⟨rfl, hidle⟩ := hmay rfl
      -- The lock was free, so nobody was busy.
      have hquiet (u : Tid) : (G u).stage = .idle := by
        by_contra hbusy
        rcases hfree u _ (hk.busy u hbusy) with ⟨hmode, -⟩ | ⟨hreentrant, -⟩
        · cases hmode
        · simp at hreentrant
      obtain ⟨stage, ⟨-, hsome⟩, hc⟩ := hk.consistent
      have hstage : stage = .idle := by
        by_contra hne
        obtain ⟨u, hu⟩ := hsome hne
        exact hne (hu.symm.trans (hquiet u))
      subst hstage
      refine hk.relock ⟨.resolving link, ⟨fun u => ?_, fun _ => ⟨t, by rw [Function.update_self]⟩⟩,
        hc.restage rfl rfl (hassumed link hlink rfl)⟩ (fun _ => List.mem_cons_self)
        (fun hin => hin.elim) (fun x hx => by cases hx) ⟨hg.known, hg.device, hg.wifi⟩
      by_cases hut : u = t
      · rw [hut, Function.update_self]
        exact Or.inr rfl
      · rw [Function.update_of_ne hut]
        exact Or.inl (hquiet u)
    · exact hsame
  · exact hsame

theorem unlock (hex : Excludes H) {l : Mutex} {m : Mode} (hl : (l, m) ∈ H t)
    (hmay : (G t).stage.MayUnlock l) :
    Kept s (Function.update H t ((H t).erase (l, m)))
      (Function.update G t (unlocked (H t) (G t) l m)) := by
  have hstill {k : Mutex} (hk : k ≠ l) {m' : Mode} (hmem : (k, m') ∈ H t) :
      (k, m') ∈ (H t).erase (l, m) :=
    (List.mem_erase_of_ne fun heq => hk (congrArg Prod.fst heq)).mpr hmem
  have hknown {x : SocketPtr} (hx : (unlocked (H t) (G t) l m).known = some x) :
      (G t).known = some x ∧ Justified ((H t).erase (l, m)) x := by
    obtain ⟨hx, hjust⟩ := Option.filter_eq_some_iff.mp hx
    exact ⟨hx, of_decide_eq_true hjust⟩
  have hg : Knows s ((H t).erase (l, m)) (unlocked (H t) (G t) l m) :=
    ⟨fun x hx => ⟨((hk.knows t).known x (hknown hx).1).1, (hknown hx).2⟩,
      fun x d hx hd => (hk.knows t).device x d (hknown hx).1 hd,
      fun x hx hw => (hk.knows t).wifi x (hknown hx).1 hw⟩
  by_cases hcreate : l = .bsockCreation
  · have hstage : (unlocked (H t) (G t) l m).stage = .idle := if_pos hcreate
    refine hk.relock ?_ (fun hne => absurd hstage hne) (fun hin => ?_) (fun x hx => ?_) hg
    · by_cases hidle : (G t).stage = .idle
      · obtain ⟨stage, hcur, hc⟩ := hk.consistent
        exact ⟨stage, hcur.congr (stage_update (hstage.trans hidle.symm)), hc⟩
      · have hmem := hk.busy t hidle
        have hc := hk.consistent_of_creating hex hmem
        have hc' : Consistent s .idle := by
          subst hcreate
          cases hst : (G t).stage with
          | idle => exact absurd hst hidle
          | settled x link =>
            rw [hst] at hc
            exact hc.restage rfl rfl trivial
          | adding | removing =>
            rw [hst] at hmay
            cases hmay
          | _ =>
            rw [hst] at hmay
            exact absurd rfl hmay
        refine ⟨.idle, ⟨fun u => Or.inl ?_, fun hne => absurd rfl hne⟩, hc'⟩
        by_cases hut : u = t
        · rw [hut, Function.update_self, hstage]
        · rw [Function.update_of_ne hut]
          exact hk.idle_of_ne hex hmem hut
    · rw [hstage] at hin
      exact hin.elim
    · cases hstage.symm.trans hx
  · have hstage : (unlocked (H t) (G t) l m).stage = (G t).stage := if_neg hcreate
    refine hk.relock ?_ (fun hne => ?_) (fun hin => ?_) (fun x hx => ?_) hg
    · obtain ⟨stage, hcur, hc⟩ := hk.consistent
      exact ⟨stage, hcur.congr (stage_update hstage), hc⟩
    · rw [hstage] at hne
      exact hstill (Ne.symm hcreate) (hk.busy t hne)
    · rw [hstage] at hin
      have hmem := hk.inside t hin
      refine hstill ?_ hmem
      rintro rfl
      cases hst : (G t).stage <;> rw [hst] at hin hmay <;> first | exact hin.elim | cases hmay
    · rw [hstage] at hx
      obtain ⟨hnone, hdel, hbsock⟩ := hk.removing t x hx
      rw [hx] at hmay
      have hconfig : l = .sharedConfig := hmay
      subst hconfig
      refine ⟨?_, hstill (by simp) hdel, hstill (by simp) hbsock⟩
      show (G t).known.filter _ = none
      rw [hnone, Option.filter_none]

end Kept

theorem peers_sound {reuse : Bool} : (peerDiscipline reuse).Sound Kept Assumed where
  start _ _ _ _ _ hk hheld := hk.start hheld
  lock _ _ _ _ _ _ _ _ hk hassumed hmay hfree := hk.lock hassumed hmay hfree
  unlock _ _ _ _ _ _ hex hk hl hmay := hk.unlock hex hl hmay
  act _ _ _ _ _ _ _ _ _ hex hk _ hmay hexec := hk.act hex hmay hexec
  call _ _ _ _ hmay := hmay.elim

end Peers

end SensorLib
