import SensorLib.Registry.Sharing
import SensorLib.Socket.Interface
import SensorLib.Threads.Discipline

/-! # Configs that threads update

`Add`, `Remove` and the attribute setters each run as more than one critical
section. A thread that holds `mutex_recursive_` knows how far `Add` or
`Remove` has come, and a copy of a config is one for the device of its socket.
-/

namespace SensorLib

open Threads Runs BratislavaSocketRegistry

/-- How far `Add` or `Remove` has come: a socket has a config and is not yet in the vector, or
is still in the vector and has no config any more. -/
inductive Phase
  | idle
  | adding (bsock : SocketPtr)
  | removing (bsock : SocketPtr)
  deriving DecidableEq

structure Progress where
  call : Option Call := none
  phase : Phase := .idle
  deriving DecidableEq

namespace Updates

variable (device : SocketPtr → Option String)

def MayAct (h : List (Mutex × Mode)) (g : Progress) : SocketAct → Prop
  | .createConfigSocket x link =>
    device x = some (getDeviceID link) ∧ (.recursive, .exclusive) ∈ h ∧ g.phase = .idle
  | .pushSocket x => g.phase = .adding x
  | .removeConfig x =>
    (.recursive, .exclusive) ∈ h ∧ g.phase = .idle ∧ g.call = some (.remove x)
  | .eraseSocket x => g.phase = .removing x
  | .updateConfig c => c.Tagged device
  | .findSocket _ | .getConfigSocket _ | .getConfigId _ | .createConfigId _
  | .removeUnusedConfig _ | .acquireLocalPort | .releaseLocalPort _ | .readLink _ => True
  | .lastSocket | .newSocket _ | .hasAdapter _ | .adapter .. | .deleteAdapter _
  | .deleteSocket _ | .turn => False

def Answers : (act : SocketAct) → act.Answer → Prop
  | .readLink x, link => device x = some (getDeviceID link)
  | .getConfigSocket _, found | .getConfigId _, found => ∀ c, found = some c → c.Tagged device
  | _, _ => True

def acted (g : Progress) : SocketAct → Progress
  | .createConfigSocket x _ => { g with phase := .adding x }
  | .removeConfig x => { g with phase := .removing x }
  | .pushSocket _ | .eraseSocket _ => { g with phase := .idle }
  | _ => g

end Updates

@[reducible] def updateDiscipline (reuse : Bool) (device : SocketPtr → Option String) :
    Discipline (socketSystem reuse) where
  Ghost := Progress
  initial f _ := { call := some f }
  mayLock _ _ _ _ _ := True
  locked _ _ g _ _ := g
  mayUnlock _ g l _ := l = .recursive → g.phase = .idle
  unlocked _ g _ _ := g
  mayAct _ h g a := Updates.MayAct device h g a
  answers _ _ act x := Updates.Answers device act x
  acted _ g a _ := Updates.acted g a
  mayCall _ _ _ _ := False
  returns _ _ _ _ _ _ := True
  finished _ _ _ := True

/-! ## What holds between steps -/

/-- The sockets with a config are those in the vector, but for the one that is being added or
removed. -/
structure Updates.Tracked (device : SocketPtr → Option String) (s : SharedState)
    (H : Tid → List (Mutex × Mode)) (G : Tid → Progress) : Prop where
  devices : ∀ x, s.deviceOf x = device x
  shared : Shared device s.registry
  nodup : s.registry.sockets.Nodup
  registered : ∀ x, x ∈ s.registry.sockToConfig ↔
    (x ∈ s.registry.sockets ∧ ∀ t, (G t).phase ≠ .removing x) ∨ ∃ t, (G t).phase = .adding x
  busy : ∀ t, (G t).phase ≠ .idle → (.recursive, .exclusive) ∈ H t
  adding : ∀ t x, (G t).phase = .adding x → x ∉ s.registry.sockets
  removing : ∀ t x, (G t).phase = .removing x → (G t).call = some (.remove x)

namespace Updates

/-- What is assumed of the instructions that run: an update overwrites no config of another
socket, and a device gets a socket only while it has none. -/
def Assumed (s : SharedState) (_ : Call) : Instr socketSignature → Prop
  | .act (.updateConfig c) => s.registry.writesOwn c = true
  | .act (.createConfigSocket _ link) =>
    ∀ x ∈ s.registry.sockToConfig, s.deviceOf x ≠ some (getDeviceID link)
  | _ => True

variable {reuse : Bool} {device : SocketPtr → Option String} {s s' : SharedState}
  {H H' : Tid → List (Mutex × Mode)} {G G' : Tid → Progress} {t u : Tid} {x : SocketPtr}

/-- Nobody's phase changes. -/
theorem Tracked.congr (h : Tracked device s H G) (hphase : ∀ u, (G' u).phase = (G u).phase)
    (hcall : ∀ u, (G u).phase ≠ .idle → (G' u).call = (G u).call)
    (hbusy : ∀ u, (G u).phase ≠ .idle → (Mutex.recursive, Mode.exclusive) ∈ H u →
      (Mutex.recursive, Mode.exclusive) ∈ H' u) : Tracked device s H' G' where
  devices := h.devices
  shared := h.shared
  nodup := h.nodup
  registered x := by
    simp only [hphase]
    exact h.registered x
  busy u hu := by
    rw [hphase] at hu
    exact hbusy u hu (h.busy u hu)
  adding u x hu := h.adding u x ((hphase u).symm.trans hu)
  removing u x hu := by
    have hold := (hphase u).symm.trans hu
    rw [hcall u (by simp [hold])]
    exact h.removing u x hold

/-- A section that changes neither which sockets are in the vector nor which have a config. -/
theorem Tracked.section (h : Tracked device s H G) {r : BratislavaSocketRegistry}
    (hshared : Shared device r) (hsockets : r.sockets = s.registry.sockets)
    (hconfigs : r.sockToConfig = s.registry.sockToConfig) :
    Tracked device (s.setRegistry r) H G where
  devices := h.devices
  shared := hshared
  nodup := hsockets ▸ h.nodup
  registered x := by
    show x ∈ r.sockToConfig ↔ (x ∈ r.sockets ∧ _) ∨ _
    rw [hsockets, hconfigs]
    exact h.registered x
  busy := h.busy
  adding t x hx := hsockets ▸ h.adding t x hx
  removing := h.removing

/-- One thread at most is busy. -/
theorem Tracked.idle_of_ne (h : Tracked device s H G)
    (hex : Discipline.Excludes (S := socketSignature) H)
    (ht : (.recursive, .exclusive) ∈ H t) (hu : u ≠ t) : (G u).phase = .idle := by
  by_contra hbusy
  exact hu (hex t u _ _ ht (h.busy u hbusy))

theorem Tracked.registered_iff (h : Tracked device s H G)
    (hex : Discipline.Excludes (S := socketSignature) H)
    (ht : (.recursive, .exclusive) ∈ H t) : x ∈ s.registry.sockToConfig ↔
      (x ∈ s.registry.sockets ∧ (G t).phase ≠ .removing x) ∨ (G t).phase = .adding x := by
  rw [h.registered x]
  refine or_congr (and_congr_right fun _ => ⟨fun hall => hall t, fun hne u => ?_⟩)
    ⟨?_, fun hadd => ⟨t, hadd⟩⟩
  · by_cases hu : u = t
    · exact hu ▸ hne
    · simp [h.idle_of_ne hex ht hu]
  · rintro ⟨u, hadd⟩
    by_cases hu : u = t
    · exact hu ▸ hadd
    · simp [h.idle_of_ne hex ht hu] at hadd

/-- The busy thread goes on to its next phase. -/
theorem Tracked.advance (h : Tracked device s H G)
    (hex : Discipline.Excludes (S := socketSignature) H)
    (ht : (.recursive, .exclusive) ∈ H t) {g' : Progress}
    (hdevices : ∀ x, s'.deviceOf x = s.deviceOf x) (hshared : Shared device s'.registry)
    (hnodup : s'.registry.sockets.Nodup)
    (hregistered : ∀ x, x ∈ s'.registry.sockToConfig ↔
      (x ∈ s'.registry.sockets ∧ g'.phase ≠ .removing x) ∨ g'.phase = .adding x)
    (hadding : ∀ x, g'.phase = .adding x → x ∉ s'.registry.sockets)
    (hremoving : ∀ x, g'.phase = .removing x → g'.call = some (.remove x)) :
    Tracked device s' H (Function.update G t g') := by
  have hother (u : Tid) (hu : u ≠ t) : (Function.update G t g' u).phase = .idle := by
    rw [Function.update_of_ne hu]
    exact h.idle_of_ne hex ht hu
  refine ⟨fun x => (hdevices x).trans (h.devices x), hshared, hnodup, fun x => ?_, fun u hu => ?_,
    fun u x hu => ?_, fun u x hu => ?_⟩
  · rw [hregistered x]
    refine or_congr (and_congr_right fun _ => ⟨fun hne u => ?_, fun hall => ?_⟩)
      ⟨fun hadd => ⟨t, by rwa [Function.update_self]⟩, ?_⟩
    · by_cases hu : u = t
      · rwa [hu, Function.update_self]
      · simp [hother u hu]
    · simpa using hall t
    · rintro ⟨u, hadd⟩
      by_cases hu : u = t
      · rwa [hu, Function.update_self] at hadd
      · simp [hother u hu] at hadd
  all_goals
    by_cases hut : u = t
  · exact hut ▸ ht
  · exact absurd (hother u hut) hu
  · rw [hut, Function.update_self] at hu
    exact hadding x hu
  · simp [hother u hut] at hu
  · rw [hut, Function.update_self] at hu ⊢
    exact hremoving x hu
  · simp [hother u hut] at hu

theorem Tracked.act (h : Tracked device s H G)
    (hex : Discipline.Excludes (S := socketSignature) H) {f : Call} {a : SocketAct} {e : Choice}
    {answer : a.Answer} (hassumed : Assumed s f (.act a)) (hmay : MayAct device (H t) (G t) a)
    (hexec : s.exec reuse a e = some (answer, s')) :
    Answers device a answer ∧ Tracked device s' H (Function.update G t (acted (G t) a)) := by
  have hsame : acted (G t) a = G t →
      Tracked device s' H G → Tracked device s' H (Function.update G t (acted (G t) a)) := by
    intro hacted htracked
    rwa [hacted, Function.update_eq_self]
  cases a with
  | lastSocket | newSocket | hasAdapter | adapter | deleteAdapter | deleteSocket | turn =>
    exact hmay.elim
  | findSocket y =>
    cases hexec
    exact ⟨trivial, hsame rfl h⟩
  | getConfigSocket y =>
    cases hexec
    refine ⟨fun c hc => ?_, hsame rfl h⟩
    obtain ⟨p, -, hp⟩ := Option.bind_eq_some_iff.mp hc
    exact h.shared.tagged p c hp
  | getConfigId id =>
    cases hexec
    refine ⟨fun c hc => ?_, hsame rfl h⟩
    obtain ⟨p, -, hp⟩ := Option.bind_eq_some_iff.mp hc
    exact h.shared.tagged p c hp
  | readLink y =>
    obtain ⟨b, hb, heq⟩ := Option.map_eq_some_iff.mp hexec
    cases heq
    refine ⟨?_, hsame rfl h⟩
    show device y = some (getDeviceID b.link)
    rw [← h.devices y, SharedState.deviceOf, hb, Option.map_some]
  | updateConfig c =>
    cases hexec
    exact ⟨trivial, hsame rfl (h.section (h.shared.updateConfig hmay hassumed) (by simp) (by simp))⟩
  | createConfigId id =>
    simp only [SharedState.exec] at hexec
    split at hexec
    · cases hexec
    · rename_i hfresh
      cases hexec
      exact ⟨trivial, hsame rfl (h.section (h.shared.createConfigId hfresh) (by simp) (by simp))⟩
  | removeUnusedConfig id =>
    cases hexec
    exact ⟨trivial, hsame rfl (h.section (h.shared.removeUnusedConfig id) (by simp) (by simp))⟩
  | acquireLocalPort =>
    cases hexec
    refine ⟨trivial, hsame rfl (h.section ?_ (by simp) ?_)⟩ <;>
      unfold acquireLocalPort <;> split
    · exact h.shared.withPorts _
    · exact h.shared
    · rfl
    · rfl
  | releaseLocalPort port =>
    cases hexec
    refine ⟨trivial, hsame rfl (h.section ?_ (by simp) ?_)⟩ <;>
      unfold releaseLocalPort <;> split
    · exact h.shared.withPorts _
    · exact h.shared
    · rfl
    · rfl
  | createConfigSocket y link =>
    obtain ⟨hdevice, hrec, hidle⟩ := hmay
    simp only [SharedState.exec] at hexec
    split at hexec
    · cases hexec
    · rename_i hfresh
      cases hexec
      have hone : ∀ z ∈ s.registry.sockToConfig, device z ≠ some (getDeviceID link) := by
        intro z hz
        rw [← h.devices z]
        exact hassumed z hz
      have hiff {z : SocketPtr} := h.registered_iff (x := z) hex hrec
      simp only [hidle, ne_eq, reduceCtorEq, not_false_eq_true, and_true, or_false] at hiff
      have hnew : y ∉ s.registry.sockets := fun hy => hone y (hiff.mpr hy) hdevice
      refine ⟨trivial, h.advance hex hrec (fun _ => rfl)
        (h.shared.createConfigSocket hdevice hone hfresh) ?_ (fun z => ?_) (fun z hz => ?_)
        fun z hz => by cases hz⟩
      · simpa using h.nodup
      · simp [acted, h.shared.mem_createConfigSocket, hiff, eq_comm, or_comm]
      · cases hz
        simpa using hnew
  | pushSocket y =>
    cases hexec
    have hphase : (G t).phase = .adding y := hmay
    have hrec := h.busy t (by simp [hphase])
    have hiff {z : SocketPtr} := h.registered_iff (x := z) hex hrec
    refine ⟨trivial, h.advance hex hrec (fun _ => rfl) ⟨h.shared.socketLive, h.shared.idLive,
      h.shared.filed, h.shared.tagged⟩ ?_ (fun z => ?_) (fun z hz => by cases hz)
      fun z hz => by cases hz⟩
    · exact List.nodup_append'.mpr ⟨h.nodup, List.nodup_singleton y,
        fun z hz hzy => h.adding t y hphase (List.mem_singleton.mp hzy ▸ hz)⟩
    · simp [acted, hiff, hphase, eq_comm]
  | removeConfig y =>
    cases hexec
    obtain ⟨hrec, hidle, hcall⟩ := hmay
    have hiff {z : SocketPtr} := h.registered_iff (x := z) hex hrec
    simp only [hidle, ne_eq, reduceCtorEq, not_false_eq_true, and_true, or_false] at hiff
    refine ⟨trivial, h.advance hex hrec (fun _ => rfl) (h.shared.removeConfig y) ?_ (fun z => ?_)
      (fun z hz => by cases hz) fun z hz => ?_⟩
    · simpa using h.nodup
    · simp [acted, h.shared.mem_removeConfig, hiff, eq_comm, and_comm]
    · cases hz
      exact hcall
  | eraseSocket y =>
    cases hexec
    have hphase : (G t).phase = .removing y := hmay
    have hrec := h.busy t (by simp [hphase])
    have hiff {z : SocketPtr} := h.registered_iff (x := z) hex hrec
    refine ⟨trivial, h.advance hex hrec (fun _ => rfl) ⟨h.shared.socketLive, h.shared.idLive,
      h.shared.filed, h.shared.tagged⟩ (h.nodup.erase y) (fun z => ?_) (fun z hz => by cases hz)
      fun z hz => by cases hz⟩
    simp [acted, hiff, hphase, h.nodup.mem_erase_iff, eq_comm, and_comm]

theorem updates_sound :
    (updateDiscipline reuse device).Sound (Tracked device) Assumed where
  start s H G t f h hheld := by
    have hidle : (G t).phase = .idle := by
      by_contra hbusy
      have hmem := h.busy t hbusy
      rw [hheld] at hmem
      exact List.not_mem_nil hmem
    refine h.congr (fun u => ?_) (fun u hu => ?_) fun u _ hmem => hmem
    · by_cases hut : u = t
      · rw [hut, Function.update_self, hidle]
      · rw [Function.update_of_ne hut]
    · have hut : u ≠ t := fun heq => hu (heq ▸ hidle)
      rw [Function.update_of_ne hut]
  lock s H G t f l m _ h _ _ _ := by
    rw [Function.update_eq_self]
    refine h.congr (fun _ => rfl) (fun _ _ => rfl) fun u _ hmem => ?_
    by_cases hut : u = t
    · rw [hut, Function.update_self]
      exact List.mem_cons_of_mem _ (hut ▸ hmem)
    · rwa [Function.update_of_ne hut]
  unlock s H G t l m _ h _ hmay := by
    rw [Function.update_eq_self]
    refine h.congr (fun _ => rfl) (fun _ _ => rfl) fun u hu hmem => ?_
    by_cases hut : u = t
    · subst hut
      rw [Function.update_self]
      refine (List.mem_erase_of_ne fun heq => ?_).mpr hmem
      exact hu (hmay (congrArg Prod.fst heq).symm)
    · rwa [Function.update_of_ne hut]
  act s H G t f a e x s' hex h hassumed hmay hexec := h.act hex hassumed hmay hexec
  call _ _ _ _ hmay := hmay.elim

end Updates

end SensorLib
