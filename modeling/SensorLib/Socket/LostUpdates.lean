import SensorLib.Socket.Updates
import SensorLib.Threads.Paths

/-! # Updates that are not lost

A setter copies a config out and writes it back in a second section. What it
writes names the socket that the config had when it was copied. Where the
config still has that socket, or none, every socket keeps its own config.
-/

namespace SensorLib

open Threads Runs BratislavaSocketRegistry Updates

/-- The methods of the registry that threads run side by side. -/
def Call.OnRegistry : Call → Prop
  | .add _ | .remove _ | .createConfig _ | .removeUnusedConfig _ | .addIP .. | .addRemotePort ..
  | .connect _ | .disconnectSocket _ | .disconnectId _ => True
  | _ => False

variable {reuse : Bool}

namespace Updates

variable {device : SocketPtr → Option String} {f : Call} {h : List (Mutex × Mode)} {g : Progress}
  {x : SocketPtr} {α : Type}

/-! ## The methods keep to the discipline -/

theorem keeps_pure (a : α) :
    (updateDiscipline reuse device).Keeps f (pure a : Program α) h g := ⟨rfl, rfl⟩

theorem keeps_act {a : SocketAct} (hmay : MayAct device h g a) (hacted : acted g a = g) :
    (updateDiscipline reuse device).Keeps f (act a) h g :=
  ⟨hmay, fun _ _ => ⟨rfl, hacted⟩⟩

theorem keeps_locked {l : Mutex} {m : Mode} {p : Program α}
    (hp : (updateDiscipline reuse device).Keeps f p ((l, m) :: h) g)
    (hidle : l = .recursive → g.phase = .idle) :
    (updateDiscipline reuse device).Keeps f (locked l m p) h g := by
  refine Discipline.obeys_locked.mpr ⟨trivial, hp.mono ?_⟩
  rintro a _ _ ⟨rfl, rfl⟩
  exact ⟨List.mem_cons_self, hidle, List.erase_cons_head _ _, rfl⟩

/-- A scope that is not the outer one of `Add` or `Remove`. -/
theorem keeps_inner {l : Mutex} {m : Mode} {p : Program α} (hl : l ≠ .recursive)
    (hp : (updateDiscipline reuse device).Keeps f p ((l, m) :: h) g) :
    (updateDiscipline reuse device).Keeps f (locked l m p) h g :=
  keeps_locked hp fun heq => absurd heq hl

/-- A program that reads a config and finds one for the device of its socket. -/
def Finds (reuse : Bool) (device : SocketPtr → Option String) (f : Call)
    (get : Program (Option BratislavaSocketConfig)) (h : List (Mutex × Mode)) (g : Progress) :
    Prop :=
  (updateDiscipline reuse device).Obeys f get h g fun found h' g' =>
    (∀ c, found = some c → c.Tagged device) ∧ h' = h ∧ g' = g

theorem finds_getConfigSocket :
    Finds reuse device f (Registry.getConfigSocket x) h g := by
  refine Discipline.obeys_locked.mpr ⟨trivial, trivial, fun found hfound => ?_⟩
  exact ⟨List.mem_cons_self, by simp, hfound, List.erase_cons_head _ _, rfl⟩

theorem finds_getConfigId (id : String) :
    Finds reuse device f (Registry.getConfigId id) h g := by
  refine Discipline.obeys_locked.mpr ⟨trivial, trivial, fun found hfound => ?_⟩
  exact ⟨List.mem_cons_self, by simp, hfound, List.erase_cons_head _ _, rfl⟩

/-- A setter that leaves the socket and the id of the copy as they are. -/
theorem keeps_modifyConfig {get : Program (Option BratislavaSocketConfig)}
    {change : BratislavaSocketConfig → BratislavaSocketConfig}
    (hget : ∀ h, Finds reuse device f get h g)
    (hchange : ∀ c, (change c).socket = c.socket ∧ (change c).deviceId = c.deviceId) :
    (updateDiscipline reuse device).Keeps f (Registry.modifyConfig get change) h g := by
  refine Discipline.Obeys.bind (hget h) ?_
  rintro found _ _ ⟨hfound, rfl, rfl⟩
  cases found with
  | none => exact keeps_pure false
  | some c =>
    have htagged : (change c).Tagged device := by
      intro s hs
      rw [(hchange c).1] at hs
      rw [(hchange c).2]
      exact hfound c rfl s hs
    exact keeps_inner (by simp) (keeps_act htagged rfl)

theorem keeps_setter {get : Program (Option BratislavaSocketConfig)}
    {change : BratislavaSocketConfig → BratislavaSocketConfig}
    (hget : ∀ h, Finds reuse device f get h g)
    (hchange : ∀ c, (change c).socket = c.socket ∧ (change c).deviceId = c.deviceId) :
    (updateDiscipline reuse device).Keeps f
      (locked .sharedRegistry .exclusive (Registry.modifyConfig get change)) h g :=
  keeps_inner (by simp) (keeps_modifyConfig hget hchange)

theorem keeps_disconnectSocket :
    (updateDiscipline reuse device).Keeps f (Registry.disconnectSocket x) h g :=
  keeps_setter (fun _ => finds_getConfigSocket) fun _ => ⟨rfl, rfl⟩

theorem keeps_addRemotePort (id : String) (port : Int) :
    (updateDiscipline reuse device).Keeps f (Registry.addRemotePort id port) h g := by
  refine keeps_inner (by simp) ?_
  split
  · exact keeps_pure false
  · exact keeps_modifyConfig (fun _ => finds_getConfigId id) fun _ => ⟨rfl, rfl⟩

theorem keeps_releaseLocalPortSocket :
    (updateDiscipline reuse device).Keeps f (Registry.releaseLocalPortSocket x) h g := by
  refine keeps_inner (by simp) (Discipline.Obeys.bind finds_getConfigSocket ?_)
  rintro found _ _ ⟨-, rfl, rfl⟩
  cases found with
  | none => exact keeps_pure false
  | some c =>
    show (updateDiscipline reuse device).Keeps f (if c.localPort = -1 then _ else _) _ _
    split
    · exact keeps_pure false
    · exact keeps_inner (by simp) (keeps_act trivial rfl)

theorem keeps_add (hidle : g.phase = .idle) :
    (updateDiscipline reuse device).Keeps f (Registry.add x) h g := by
  obtain ⟨call, phase⟩ := g
  cases hidle
  refine Discipline.obeys_locked.mpr ⟨trivial, Discipline.obeys_bind.mpr ?_⟩
  -- The lock of the config goes while the socket is not yet in the vector.
  refine ⟨trivial, fun link hlink => Discipline.obeys_locked.mpr ⟨trivial, ?_⟩⟩
  refine ⟨⟨hlink, by simp, rfl⟩, fun _ _ => ⟨by simp, by simp, ?_⟩⟩
  rw [List.erase_cons_head]
  exact ⟨rfl, fun _ _ => ⟨by simp, fun _ => rfl, List.erase_cons_head _ _, rfl⟩⟩

theorem keeps_remove (hidle : g.phase = .idle) (hcall : g.call = some (.remove x)) :
    (updateDiscipline reuse device).Keeps f (Registry.remove x) h g := by
  obtain ⟨call, phase⟩ := g
  cases hidle
  refine Discipline.obeys_locked.mpr ⟨trivial, trivial, fun found _ => ?_⟩
  cases found with
  | false => exact ⟨by simp, fun _ => rfl, List.erase_cons_head _ _, rfl⟩
  | true =>
    refine keeps_releaseLocalPortSocket.bind fun _ => ?_
    refine keeps_disconnectSocket.bind fun _ => ?_
    refine Discipline.obeys_bind.mpr (Discipline.obeys_locked.mpr ⟨trivial, ?_⟩)
    refine ⟨⟨by simp, rfl, hcall⟩, fun _ _ => ⟨by simp, by simp, ?_⟩⟩
    rw [List.erase_cons_head]
    exact ⟨rfl, fun _ _ => ⟨by simp, fun _ => rfl, List.erase_cons_head _ _, rfl⟩⟩

/-- A call returns the answer of a method that changes no phase. -/
theorem obeys_call {p : Program α} {result : α → CallResult}
    (hp : (updateDiscipline reuse device).Keeps f p [] { call := some f }) :
    (updateDiscipline reuse device).Obeys f (p.bind fun a => .pure (result a)) []
      { call := some f } fun _ h' _ => h' = [] ∧ True :=
  hp.bind fun _ => ⟨rfl, trivial⟩

theorem updates_cover : (updateDiscipline reuse device).Covers Call.OnRegistry := by
  intro f s hf
  cases f with
  | add y => exact obeys_call (keeps_add rfl)
  | remove y => exact obeys_call (keeps_remove rfl rfl)
  | createConfig id => exact obeys_call (keeps_inner (by simp) (keeps_act trivial rfl))
  | removeUnusedConfig id => exact obeys_call (keeps_inner (by simp) (keeps_act trivial rfl))
  | addIP id ip =>
    exact obeys_call (keeps_setter (fun _ => finds_getConfigId id) fun _ => ⟨rfl, rfl⟩)
  | addRemotePort id port => exact obeys_call (keeps_addRemotePort id port)
  | connect y =>
    exact obeys_call (keeps_setter (fun _ => finds_getConfigSocket) fun _ => ⟨rfl, rfl⟩)
  | disconnectSocket y => exact obeys_call keeps_disconnectSocket
  | disconnectId id =>
    exact obeys_call (keeps_setter (fun _ => finds_getConfigId id) fun _ => ⟨rfl, rfl⟩)
  | _ => exact hf.elim

/-! ## What threads do, seen from outside -/

/-- A thread that runs `f` knows that it does. -/
def Labelled (w : World (socketSystem reuse)) (G : Tid → Progress) : Prop :=
  ∀ t f p, w.thread t = some (f, p) → (G t).call = some f

theorem call_constant : (updateDiscipline reuse device).Constant Progress.call where
  locked _ _ _ _ _ := rfl
  unlocked _ _ _ _ := rfl
  acted _ g a _ := by cases a <;> rfl

theorem Labelled.next {w : World (socketSystem reuse)} {G : Tid → Progress} (h : Labelled w G)
    {op : Op (socketSystem reuse)} (hop : w.enabled op = true) :
    Labelled (w.next op) ((updateDiscipline reuse device).track w G op) := by
  intro t f p hthread
  cases op with
  | start u g =>
    by_cases hu : t = u
    · subst hu
      simp only [World.next, World.setThread_thread, Function.update_self, Option.some.injEq]
        at hthread
      cases hthread
      simp only [Discipline.track, Function.update_self]
    · rw [World.next_start_of_ne g hu] at hthread
      simp only [Discipline.track, Function.update_of_ne hu]
      exact h t f p hthread
  | run u e =>
    obtain ⟨p', hold⟩ := World.thread_of_next_run hop hthread
    exact (call_constant.track w G u t e).trans (h t f p' hold)

/-- What every world of a run is like. -/
def Updating (device : SocketPtr → Option String) (w : World (socketSystem reuse)) : Prop :=
  ∃ G, (updateDiscipline reuse device).Follows (Tracked device) w G ∧ Labelled w G

end Updates

/-- Between calls: the registry is well formed, and a config that names a socket is for the
device of that socket. -/
structure SharedState.Filed (s : SharedState) : Prop where
  wellFormed : WellFormed s.registry
  tagged : ∀ p c, s.registry.configs.lookup p = some c → c.Tagged s.deviceOf

theorem SharedState.Filed.updating {s : SharedState} (hs : s.Filed) :
    Updating s.deviceOf (World.quiet s : World (socketSystem reuse)) := by
  refine ⟨fun _ => {}, Discipline.follows_quiet ?_, fun t f p hthread => by cases hthread⟩
  refine ⟨fun _ => rfl, hs.wellFormed.shared hs.tagged, hs.wellFormed.nodup, fun x => ?_, ?_, ?_, ?_⟩
  · rw [← hs.wellFormed.registered]
    simp
  all_goals simp

/-- A thread is in `Remove` of the socket, with `mutex_recursive_` held. -/
def Removing (w : World (socketSystem reuse)) (x : SocketPtr) : Prop :=
  ∃ t p, w.thread t = some (.remove x, p) ∧ (.recursive, .exclusive) ∈ w.heldBy t

/-- The config of every socket names it, and every registered socket has one until `Remove`
frees it. -/
structure KeepsSockets (w : World (socketSystem reuse)) : Prop where
  own : ∀ x p, w.state.registry.sockToConfig.lookup x = some p →
    ∃ c, w.state.registry.configs.lookup p = some c ∧ c.socket = some x
  registered : ∀ x ∈ w.state.registry.sockets,
    x ∈ w.state.registry.sockToConfig ∨ Removing w x

/-- `RemoveUnusedConfig` frees no config of a socket. -/
def SparesSockets (w : World (socketSystem reuse)) : Op (socketSystem reuse) → Prop
  | .start .. => True
  | .run t e =>
    match w.thread t with
    | some (_, .act (.removeUnusedConfig _) _) =>
      ∀ x p, w.state.registry.sockToConfig.lookup x = some p →
        p ∈ (w.next (.run t e)).state.registry.configs
    | _ => True

/-- A socket gets a config while no socket of its device has one. -/
def oneSocketPerDevice (w : World (socketSystem reuse)) : Op (socketSystem reuse) → Bool
  | .start .. => true
  | .run t _ =>
    match w.thread t with
    | some (_, .act (.createConfigSocket _ link) _) =>
      decide (∀ x ∈ w.state.registry.sockToConfig.keys,
        w.state.deviceOf x ≠ some (getDeviceID link))
    | _ => true

/-- `UpdateConfig` overwrites no config of a socket that its argument does not name. -/
def updatesOwn (w : World (socketSystem reuse)) : Op (socketSystem reuse) → Bool
  | .start .. => true
  | .run t _ =>
    match w.thread t with
    | some (_, .act (.updateConfig c) _) => w.state.registry.writesOwn c
    | _ => true

namespace Updates

variable {device : SocketPtr → Option String} {w : World (socketSystem reuse)}

theorem Updating.keepsSockets (hw : Updating device w) : KeepsSockets w := by
  obtain ⟨G, hG, hlabel⟩ := hw
  have htracked := hG.invariant
  refine ⟨htracked.shared.socketLive, fun x hx => ?_⟩
  by_cases hremoving : ∃ t, (G t).phase = .removing x
  · obtain ⟨t, ht⟩ := hremoving
    have hrec := htracked.busy t (by simp [ht])
    rcases hthread : w.thread t with _ | ⟨f, p⟩
    · have hnil := hG.threads t
      rw [Discipline.ThreadObeys, hthread] at hnil
      rw [show w.heldBy t = [] from hnil] at hrec
      exact absurd hrec List.not_mem_nil
    · have hcall := htracked.removing t x ht
      rw [hlabel t f p hthread] at hcall
      cases hcall
      exact Or.inr ⟨t, p, hthread, hrec⟩
  · refine Or.inl ((htracked.registered x).mpr (Or.inl ⟨hx, fun t ht => hremoving ⟨t, ht⟩⟩))

theorem Updating.sparesSockets (hw : Updating device w) (op : Op (socketSystem reuse)) :
    SparesSockets w op := by
  obtain ⟨G, hG, -⟩ := hw
  cases op with
  | start => trivial
  | run t e =>
    simp only [SparesSockets]
    split
    · rename_i f id k hthread
      intro x p hx
      have hstate : (w.next (.run t e)).state.registry =
          w.state.registry.removeUnusedConfig id := by
        simp only [World.next, hthread]
        rfl
      rw [hstate]
      exact hG.invariant.shared.removeUnusedConfig_spares id hx
    · trivial

theorem meets_assumed {op : Op (socketSystem reuse)}
    (hcall : ∀ t f, op = .start t f → f.OnRegistry) (hone : oneSocketPerDevice w op = true)
    (hown : updatesOwn w op = true) : Discipline.Meets Call.OnRegistry Assumed w op := by
  cases op with
  | start t f => exact hcall t f rfl
  | run t e =>
    rintro f p hthread
    cases p with
    | pure | lock | unlock | call => trivial
    | act a k =>
      cases a with
      | updateConfig c =>
        simp only [updatesOwn, hthread] at hown
        exact hown
      | createConfigSocket x link =>
        simp only [oneSocketPerDevice, hthread, decide_eq_true_eq] at hone
        exact fun y hy => hone y (Finmap.mem_keys.mpr hy)
      | _ => trivial

theorem Updating.next (hw : Updating device w) {op : Op (socketSystem reuse)}
    (hop : w.enabled op = true) (hmeets : Discipline.Meets Call.OnRegistry Assumed w op) :
    Updating device (w.next op) := by
  obtain ⟨G, hG, hlabel⟩ := hw
  exact ⟨_, hG.next updates_sound updates_cover hop hmeets, hlabel.next hop⟩

/-- An update after which every socket has its own config overwrote none of another socket. -/
theorem Updating.updatesOwn_of_next (hw : Updating device w) {op : Op (socketSystem reuse)}
    (hnext : KeepsSockets (w.next op)) : updatesOwn w op = true := by
  obtain ⟨G, hG, -⟩ := hw
  have hshared := hG.invariant.shared
  cases op with
  | start => rfl
  | run t e =>
    simp only [updatesOwn]
    split
    · rename_i f c k hthread
      refine hshared.writesOwn_iff.mpr fun x p hp hx => ?_
      obtain ⟨c₀, hc₀, -⟩ := hshared.socketLive x p hx
      have hstate : (w.next (.run t e)).state.registry =
          { w.state.registry with configs := w.state.registry.configs.insert p c } := by
        simp only [World.next, hthread]
        show (w.state.registry.updateConfig c).2 = _
        rw [updateConfig_target, hp]
        exact store_of_lookup hc₀ c
      obtain ⟨c', hc', hsocket⟩ := hnext.own x p (by rw [hstate]; exact hx)
      rw [hstate] at hc'
      cases (Finmap.lookup_insert _).symm.trans hc'
      exact hsocket
    · rfl

end Updates

/-- With at most one socket for each device, every socket keeps its config, and no config of a
socket is freed as unused, if and only if no update overwrites the config of a socket that its
copy does not name. -/
theorem updates_kept_iff {s : SharedState} (hs : s.Filed) {ops : List (Op (socketSystem reuse))}
    (hcalls : Calls Call.OnRegistry ops)
    (hlegal : (machine (socketSystem reuse)).Legal (World.quiet s) ops)
    (hone : (machine (socketSystem reuse)).Each (fun w op => oneSocketPerDevice w op = true)
      (World.quiet s) ops) :
    (machine (socketSystem reuse)).Always KeepsSockets (World.quiet s) ops ∧
        (machine (socketSystem reuse)).Each SparesSockets (World.quiet s) ops ↔
      (machine (socketSystem reuse)).Each (fun w op => updatesOwn w op = true)
        (World.quiet s) ops := by
  have hstarts := hcalls.each (World.quiet s)
  have heach := Machine.Each.and (Machine.Each.and hlegal hstarts) hone
  have hstart : Updating s.deviceOf (World.quiet s : World (socketSystem reuse)) := hs.updating
  have halways := Machine.Each.always_iff_each (M := machine (socketSystem reuse))
    (I := Updating s.deviceOf) (P := KeepsSockets)
    (D := fun w op => updatesOwn w op = true)
    (fun w op hw _ hop hown => hw.next hop.1.1 (meets_assumed hop.1.2 hop.2 hown))
    (fun w op hw _ hop => ⟨hw.updatesOwn_of_next,
      fun hown => (hw.next hop.1.1 (meets_assumed hop.1.2 hop.2 hown)).keepsSockets⟩)
    heach hstart hstart.keepsSockets
  refine ⟨fun h => halways.mp h.1, fun hown => ⟨halways.mpr hown, ?_⟩⟩
  exact Machine.Each.each (M := machine (socketSystem reuse)) (I := Updating s.deviceOf)
    (fun w op hw hop => hw.next hop.1.1.1 (meets_assumed hop.1.1.2 hop.1.2 hop.2))
    (fun w op hw _ => hw.sparesSockets op) (Machine.Each.and heach hown) hstart

/-- One handle, not registered yet. -/
def SharedState.oneHandle : SharedState where
  registry := .empty
  heap := Finmap.singleton 1 { link := .wifi "peer" "aa", adapter := .null }
  openFds := []
  used := [1]
  removed := []
  deleted := []

theorem SharedState.oneHandle_filed : SharedState.oneHandle.Filed where
  wellFormed := empty_wellFormed
  tagged p c hc := by simp [oneHandle, BratislavaSocketRegistry.empty] at hc

/-- One thread copies the config when another one is in `Add`, which has just claimed it. -/
def copyAfterClaim (reuse : Bool) : List (Op (socketSystem reuse)) :=
  .start 0 (.createConfig "aa") :: List.replicate 4 (.run 0 {}) ++
    .start 1 (.add 1) :: List.replicate 4 (.run 1 { address := 7 }) ++
    .start 0 (.addIP "aa" "10.0.0.2") :: .run 0 {} :: .run 1 {} :: List.replicate 3 (.run 0 {}) ++
    List.replicate 3 (.run 1 {}) ++ List.replicate 5 (.run 0 {}) ++
    .start 0 (.removeUnusedConfig "aa") :: List.replicate 4 (.run 0 {})

theorem updates_kept_copy_after_claim :
    (machine (socketSystem false)).Always KeepsSockets (World.quiet .oneHandle)
        (copyAfterClaim false) ∧
      (machine (socketSystem false)).Each SparesSockets (World.quiet .oneHandle)
        (copyAfterClaim false) := by
  refine (updates_kept_iff SharedState.oneHandle_filed ?_ (by decide +kernel)
    (by decide +kernel)).mpr (by decide +kernel)
  intro t f hmem
  simp [copyAfterClaim] at hmem
  rcases hmem with ⟨_, rfl⟩ | ⟨_, rfl⟩ | ⟨_, rfl⟩ | ⟨_, rfl⟩ <;> trivial

/-- One thread copies the config, another one adds the socket, and the copy is written back. -/
def copyBeforeClaim : List (Op (socketSystem false)) :=
  .start 0 (.createConfig "aa") :: List.replicate 4 (.run 0 {}) ++
    .start 0 (.addIP "aa" "10.0.0.2") :: List.replicate 4 (.run 0 {}) ++
    .start 1 (.add 1) :: List.replicate 8 (.run 1 { address := 7 }) ++ List.replicate 2 (.run 0 {})

/-- The config of a registered socket loses the socket. -/
theorem stale_copy_loses_socket : ¬ ∀ ops : List (Op (socketSystem false)),
    Calls Call.OnRegistry ops →
    (machine (socketSystem false)).Legal (World.quiet .oneHandle) ops →
    (machine (socketSystem false)).Each (fun w op => oneSocketPerDevice w op = true)
      (World.quiet .oneHandle) ops →
    (machine (socketSystem false)).Always KeepsSockets (World.quiet .oneHandle) ops ∧
      (machine (socketSystem false)).Each SparesSockets (World.quiet .oneHandle) ops := by
  intro h
  have hcalls : Calls Call.OnRegistry copyBeforeClaim := by
    intro t f hmem
    simp [copyBeforeClaim] at hmem
    rcases hmem with ⟨_, rfl⟩ | ⟨_, rfl⟩ | ⟨_, rfl⟩ <;> trivial
  have hkeeps := (h copyBeforeClaim hcalls (by decide +kernel) (by decide +kernel)).1.last
  have hentry : ((machine (socketSystem false)).run (World.quiet .oneHandle)
      copyBeforeClaim).state.registry.sockToConfig.lookup 1 = some 0 := by decide +kernel
  have hlost : (((machine (socketSystem false)).run (World.quiet .oneHandle)
      copyBeforeClaim).state.registry.configs.lookup 0).bind (fun c => c.socket) = none := by
    decide +kernel
  obtain ⟨c, hc, hsocket⟩ := hkeeps.own 1 0 hentry
  rw [hc, Option.bind_some, hsocket] at hlost
  cases hlost

end SensorLib
