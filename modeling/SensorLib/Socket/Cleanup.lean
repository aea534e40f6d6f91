import SensorLib.Registry.Ports
import SensorLib.Socket.Methods

/-! # The end of a program

`Cleanup` destroys the last socket of the registry until there is none. The
loop comes to an end because each round removes the socket it destroys.
-/

namespace SensorLib

open Threads Threads.Prog Runs Handles BratislavaSocketRegistry

/-- The system of the sockets, with the handles whose adapter was deleted. -/
@[reducible] def cleanupSystem (reuse : Bool) : System socketSignature :=
  (socketSystem reuse).recording fun act _ _ (deleted : List SocketPtr) =>
    match act with
    | .deleteAdapter x => x :: deleted
    | _ => deleted

/-- Every registered socket has an adapter. -/
def SharedState.Equipped (s : SharedState) : Prop :=
  ∀ x ∈ s.registry.sockets, (s.adapterOf x).isSome

/-- What `Cleanup` leaves. The histories count the sockets and the adapters that were deleted. -/
structure CleanedUp (s s' : SharedState × List SocketPtr) : Prop where
  sockets : s'.1.registry.sockets = []
  sockToConfig : s'.1.registry.sockToConfig = ∅
  deleted : ∀ x, s'.1.deleted.count x =
    s.1.deleted.count x + if x ∈ s.1.registry.sockets then 1 else 0
  adapters : ∀ x, s'.2.count x = s.2.count x + if x ∈ s.1.registry.sockets then 1 else 0
  heap : ∀ x, x ∈ s'.1.heap ↔ x ∈ s.1.heap ∧ x ∉ s.1.registry.sockets
  pool : s.1.registry.availableLocalPorts ⊆ s'.1.registry.availableLocalPorts
  ports : ∀ x ∈ s.1.registry.sockets, ∃ c, s.1.registry.getConfigSocket x = some c ∧
    (c.localPort = -1 ∨ c.localPort ∈ s'.1.registry.availableLocalPorts)

namespace Cleanup

variable {reuse : Bool} {x : SocketPtr} {s : SharedState} {deleted : List SocketPtr} {α : Type}

theorem overlooks : Overlooks fun act _ _ (deleted : List SocketPtr) =>
    match act with
    | .deleteAdapter x => x :: deleted
    | _ => deleted := by
  intro a _ _ _ hoff
  cases a <;> first | rfl | exact hoff.elim

/-! ## One socket -/

/-- The registry is as it was, and so are the handles. -/
structure Undisturbed (s s' : SharedState × List SocketPtr) : Prop extends
    SharedState.SameHandles s.1 s'.1 where
  registry : s'.1.registry = s.1.registry
  history : s'.2 = s.2

theorem Undisturbed.refl (s : SharedState × List SocketPtr) : Undisturbed s s :=
  ⟨.refl s.1, rfl, rfl⟩

theorem Undisturbed.trans {s₁ s₂ s₃ : SharedState × List SocketPtr} (h : Undisturbed s₁ s₂)
    (h' : Undisturbed s₂ s₃) : Undisturbed s₁ s₃ where
  sockets := h'.sockets.trans h.sockets
  adapters y := (h'.adapters y).trans (h.adapters y)
  heap y := (h'.heap y).trans (h.heap y)
  used := h'.used.trans h.used
  removed := h'.removed.trans h.removed
  deleted := h'.deleted.trans h.deleted
  registry := h'.registry.trans h.registry
  history := h'.history.trans h.history

/-- The clock can always stop an act of an adapter. -/
theorem exec_ready (a : Adapter) (fds : List Int) (act : AdapterAct) :
    (a.exec fds { attempt := .expired } act).isSome := by
  cases act with
  | socket => simp [Adapter.exec, FreshFd]
  | attempt | listenForPeer | receivePort => simp [Adapter.exec]
  | _ => rfl

/-- Work on an adapter alone ends, and disturbs nothing else. -/
theorem ends_only {P : AdapterAct → Prop} {p : Program α} (hp : p.Only (ActsOn P x))
    (hx : (s.adapterOf x).isSome) (held : Locks) :
    p.Ends (cleanupSystem reuse) (fun _ held' s' => held' = held ∧ Undisturbed (s, deleted) s')
      held (s, deleted) := by
  suffices h : ∀ s', Undisturbed (s, deleted) s' → p.Ends (cleanupSystem reuse)
      (fun _ held' s' => held' = held ∧ Undisturbed (s, deleted) s') held s' from h _ (.refl _)
  induction p with
  | pure a => exact fun s' hs' => .pure ⟨rfl, hs'⟩
  | lock | unlock | call => exact hp.elim
  | act a k ih =>
    rintro ⟨s', deleted'⟩ hs'
    obtain ⟨ha, hk⟩ := hp
    cases a with
    | turn =>
      refine .act ({} : Choice) rfl fun e y s'' hexec => ?_
      cases hexec
      exact ih _ (hk _) _ hs'
    | adapter y act =>
      obtain ⟨rfl, -⟩ := ha
      have hsome : (s'.adapterOf y).isSome := (hs'.adapters y).trans hx
      obtain ⟨a, hobject⟩ := Option.isSome_iff_exists.mp hsome
      obtain ⟨link, hlookup⟩ := SharedState.adapterOf_eq_some.mp hobject
      refine .act ({ attempt := .expired } : Choice) ?_ fun e z s'' hexec => ?_
      · show ((s'.exec reuse (.adapter y act) _).map _).isSome
        simp only [SharedState.exec, hlookup, Option.isSome_map]
        exact exec_ready a _ act
      · obtain ⟨hexec', hhistory⟩ := System.recording_exec hexec
        have hexec'' : s'.exec reuse (.adapter y act) e = some (z, s''.1) := hexec'
        obtain ⟨_, _, hstep, -⟩ := SharedState.exec_adapter hexec''
        exact ih _ (hk _) _ (hs'.trans
          ⟨SharedState.sameHandles_adapter hexec'', hstep.registry, hhistory⟩)
    | _ => exact ha.elim

/-- One socket is out of the registry and deleted with its adapter. -/
structure Destroyed (x : SocketPtr) (s s' : SharedState × List SocketPtr) : Prop where
  registry : s'.1.registry = (s.1.registry.remove x).2
  adapters : ∀ y, y ≠ x → (s'.1.adapterOf y).isSome = (s.1.adapterOf y).isSome
  heap : ∀ y, y ∈ s'.1.heap ↔ y ∈ s.1.heap ∧ y ≠ x
  deleted : s'.1.deleted = x :: s.1.deleted
  history : s'.2 = x :: s.2

/-- `delete` of the adapter and of the socket. -/
theorem ends_delete {p : Program α} {Q : α → Locks → SharedState × List SocketPtr → Prop}
    {held b : Locks} {l : Mutex} {m : Mode} (hx : (s.adapterOf x).isSome)
    (hheld : held.erase (l, m) = b)
    (hp : ∀ s', s'.1.registry = s.registry →
      (∀ y, y ≠ x → (s'.1.adapterOf y).isSome = (s.adapterOf y).isSome) →
      (∀ y, y ∈ s'.1.heap ↔ y ∈ s.heap ∧ y ≠ x) → s'.1.deleted = x :: s.deleted →
      s'.2 = x :: deleted → p.Ends (cleanupSystem reuse) Q b s') :
    Ends (cleanupSystem reuse) Q (do
      act (.deleteAdapter x)
      unlock l m
      act (.deleteSocket x)
      p) held (s, deleted) := by
  obtain ⟨a, hobject⟩ := Option.isSome_iff_exists.mp hx
  obtain ⟨link, hlookup⟩ := SharedState.adapterOf_eq_some.mp hobject
  let s₁ : SharedState := { s.insertSocket x { link, adapter := .dangling } with
    openFds := s.openFds.removeAll a.closedByDelete }
  let s₂ : SharedState := { s₁ with heap := s₁.heap.erase x, deleted := x :: s.deleted }
  have hadapter : ∀ e, (cleanupSystem reuse).exec (.deleteAdapter x) e (s, deleted) =
      some ((), s₁, x :: deleted) := by
    intro e
    show (s.exec reuse (.deleteAdapter x) e).map _ = _
    simp only [SharedState.exec, SharedState.deleteAdapter, hlookup, Option.map_some]
    rfl
  have hsocket : ∀ e, (cleanupSystem reuse).exec (.deleteSocket x) e (s₁, x :: deleted) =
      some ((), s₂, x :: deleted) := by
    intro e
    have hmem : x ∈ s₁.heap := by simp [s₁, SharedState.insertSocket]
    show (s₁.exec reuse (.deleteSocket x) e).map _ = _
    simp only [SharedState.exec, SharedState.deleteSocket, if_pos hmem, Option.map_some]
    rfl
  refine Ends.determined ({} : Choice) hadapter (.unlock ?_)
  rw [hheld]
  refine Ends.determined ({} : Choice) hsocket (hp (s₂, x :: deleted) rfl ?_ ?_ rfl rfl)
  · intro y hy
    simp [s₂, s₁, SharedState.adapterOf, SharedState.insertSocket, hy, Finmap.lookup_erase_ne]
  · intro y
    simp only [s₂, s₁, SharedState.insertSocket, Finmap.mem_erase, Finmap.mem_insert]
    tauto

/-- The locks of `Cleanup`, and those that `bratislavaDestroy` takes under them. -/
def inCleanup : Locks := [(.recursive, .exclusive)]

def inDestroy (x : SocketPtr) : Locks :=
  [(.bsockCreation, .exclusive), (.sharedBsock x, .exclusive), (.bsockDeletion, .exclusive),
    (.recursive, .exclusive)]

theorem ends_destroyLocked (hregistered : x ∈ s.registry.sockets) (hx : (s.adapterOf x).isSome) :
    (destroyLocked x).Ends (cleanupSystem reuse)
      (fun _ held s' => held = inCleanup ∧ Destroyed x (s, deleted) s') (inDestroy x)
      (s, deleted) := by
  have hbelow : Below 4 (inDestroy x) := by
    intro l hl
    simp only [inDestroy, lockNames, List.map_cons, List.map_nil, List.mem_cons, List.not_mem_nil,
      or_false] at hl
    rcases hl with rfl | rfl | rfl | rfl <;> simp [Mutex.rank]
  have hfound : s.registry.existsSocket x = true := decide_eq_true hregistered
  refine (computes_existsSocket overlooks).ends ?_
  rw [hfound, if_pos rfl]
  refine (computes_remove overlooks hbelow hregistered).ends ?_
  rw [if_pos rfl]
  refine ends_delete (s := { s.setRegistry (s.registry.remove x).2 with removed := x :: s.removed })
    hx (b := [(.bsockCreation, .exclusive), (.bsockDeletion, .exclusive),
      (.recursive, .exclusive)]) (by simp [inDestroy]) ?_
  intro s' hregistry hadapters hheap hdeleted hhistory
  refine .unlock (.unlock (.pure ⟨?_, hregistry, hadapters, hheap, hdeleted, hhistory⟩))
  simp [inCleanup]

/-- A registered socket is destroyed, whatever its adapter answers to `interrupt`. -/
theorem ends_bratislavaDestroy (hregistered : x ∈ s.registry.sockets)
    (hx : (s.adapterOf x).isSome) :
    (bratislavaDestroy (some x)).Ends (cleanupSystem reuse)
      (fun _ held s' => held = inCleanup ∧ Destroyed x (s, deleted) s') inCleanup
      (s, deleted) := by
  have hfound : s.registry.existsSocket x = true := decide_eq_true hregistered
  have hgrants : ∀ {held : Locks} {l : Mutex} {m : Mode}, l ∉ lockNames held →
      (cleanupSystem reuse).Grants held l m :=
    fun hl _ hmem => absurd (mem_lockNames_of_mem hmem) hl
  have hinterrupt : (interruptIfExists x).Ends (cleanupSystem reuse)
      (fun found held s' => found = true ∧ held = inCleanup ∧ Undisturbed (s, deleted) s')
      inCleanup (s, deleted) := by
    refine Ends.locked (hgrants (by decide)) ?_
    refine (computes_existsSocket overlooks).ends ?_
    rw [hfound, if_pos rfl]
    refine Ends.bind (ends_only (only_interrupt (h := [])) hx _) ?_
    rintro _ _ s' ⟨rfl, hs'⟩
    exact .pure ⟨rfl, rfl, rfl, hs'⟩
  refine hinterrupt.bind ?_
  rintro _ _ ⟨s', deleted'⟩ ⟨rfl, rfl, hs'⟩
  refine .lock (hgrants (by decide)) (.lock (hgrants (by simp [lockNames, inCleanup]))
    (.lock (hgrants (by simp [lockNames, inCleanup])) ?_))
  refine (ends_destroyLocked (hs'.sockets ▸ hregistered) ((hs'.adapters x).trans hx)).mono ?_
  rintro _ held s'' ⟨hheld, hregistry, hadapters, hheap, hdeleted, hhistory⟩
  refine ⟨hheld, ?_, fun y hy => (hadapters y hy).trans (hs'.adapters y), fun y => ?_, ?_, ?_⟩
  · rw [hregistry, hs'.registry]
  · rw [hheap, hs'.heap]
  · rw [hdeleted, hs'.deleted]
  · rw [hhistory, hs'.history]

/-! ## All of them -/

/-- A port that a config records is of the range, or none. -/
theorem localPort_of_accounts {link : SocketPtr → BratislavaLink} {r : BratislavaSocketRegistry}
    {t : DeviceTable} (h : Accounts link r t) {c : BratislavaSocketConfig}
    (hc : r.getConfigSocket x = some c) :
    c.localPort = -1 ∨ minPort ≤ c.localPort ∧ c.localPort ≤ maxPort := by
  by_cases hnone : c.localPort = -1
  · exact Or.inl hnone
  · obtain ⟨p, hp, -⟩ := h.consistent.wellFormed.getConfigSocket_eq_some.mp hc
    have hholds := h.holds_iff.mpr ⟨p, c, hp, rfl, rfl, hnone⟩
    exact Or.inr (mem_initializeLocalPorts.mp (h.within.held _ _ hholds))

/-- What `Remove` of a registered socket does to the others and to the pool. -/
structure Removed (x : SocketPtr) (r r' : BratislavaSocketRegistry) : Prop where
  sockets : r'.sockets = r.sockets.erase x
  pool : r.availableLocalPorts ⊆ r'.availableLocalPorts
  others : ∀ y c, y ≠ x → r.getConfigSocket y = some c → r'.getConfigSocket y = some c
  released : ∃ c, r.getConfigSocket x = some c ∧
    (minPort ≤ c.localPort ∧ c.localPort ≤ maxPort → c.localPort ∈ r'.availableLocalPorts)

theorem removed_of_wellFormed {r : BratislavaSocketRegistry} (h : WellFormed r)
    (hx : x ∈ r.sockets) : Removed x r (r.remove x).2 := by
  obtain ⟨c, hc⟩ := h.mem_sockets_iff.mp hx
  obtain ⟨p, hp, hsocket⟩ := h.getConfigSocket_eq_some.mp hc
  have hfiles := remove_files h hc
  have hpool : (r.remove x).2.availableLocalPorts = r.portsAfterRelease c := by
    rw [remove_eq h hp hsocket]
  refine ⟨by rw [remove_eq h hp hsocket], ?_, fun y c' hy hc' => ?_, c, hc, fun hrange => ?_⟩
  · rw [hpool, portsAfterRelease, releaseLocalPortOf, releaseLocalPort]
    split
    · exact subset_rfl
    · split
      · exact Finset.subset_insert _ _
      · exact subset_rfl
  · obtain ⟨hid, hsocket'⟩ := h.getConfigSocket_iff_getConfigId.mp hc'
    refine hfiles.wellFormed.getConfigSocket_iff_getConfigId.mpr ⟨?_, hsocket'⟩
    rw [hfiles.getConfigId, if_neg, hid]
    intro hdevice
    have hsame := (h.getConfigSocket_iff_getConfigId.mp hc).1
    rw [← hdevice, hid] at hsame
    cases hsame
    exact hy (Option.some.inj (hsocket'.symm.trans hsocket))
  · have hne : c.localPort ≠ -1 := by
      simp only [minPort] at hrange
      omega
    rw [hpool, portsAfterRelease, releaseLocalPortOf, if_neg hne, releaseLocalPort, if_pos hrange]
    exact Finset.mem_insert_self _ _

/-- The registry is as operations leave it, and each of its sockets has an adapter. -/
structure Ready (link : SocketPtr → BratislavaLink) (s : SharedState) : Prop where
  accounts : ∃ t, Accounts link s.registry t
  equipped : s.Equipped

variable {link : SocketPtr → BratislavaLink} {s' s'' : SharedState × List SocketPtr}

theorem Ready.wellFormed (h : Ready link s) : WellFormed s.registry := by
  obtain ⟨t, ht⟩ := h.accounts
  exact ht.consistent.wellFormed

theorem Ready.destroyed (h : Ready link s) (hx : x ∈ s.registry.sockets)
    (hs' : Destroyed x (s, deleted) s') : Ready link s'.1 where
  accounts := by
    obtain ⟨t, ht⟩ := h.accounts
    exact ⟨_, hs'.registry ▸ ht.step (show (Operation.remove x).Admissible link s.registry from trivial)⟩
  equipped y hy := by
    rw [hs'.registry, (removed_of_wellFormed h.wellFormed hx).sockets,
      h.wellFormed.nodup.mem_erase_iff] at hy
    exact (hs'.adapters y hy.1).trans (h.equipped y hy.2)

/-- A registry without sockets is cleaned up. -/
theorem Ready.cleanedUp (h : Ready link s) (hempty : s.registry.sockets = []) :
    CleanedUp (s, deleted) (s, deleted) where
  sockets := hempty
  sockToConfig := by
    refine Finmap.ext_lookup fun x => ?_
    rw [Finmap.lookup_empty, Finmap.lookup_eq_none, ← h.wellFormed.registered, hempty]
    exact List.not_mem_nil
  deleted x := by simp [hempty]
  adapters x := by simp [hempty]
  heap x := by simp [hempty]
  pool := subset_rfl
  ports x hx := by simp [hempty] at hx

/-- One socket, and then the rest. -/
theorem Destroyed.cleanedUp (h : Ready link s) (hx : x ∈ s.registry.sockets)
    (hs' : Destroyed x (s, deleted) s') (hs'' : CleanedUp s' s'') : CleanedUp (s, deleted) s'' := by
  have hremoved := removed_of_wellFormed h.wellFormed hx
  rw [← hs'.registry] at hremoved
  have hmem : ∀ y, y ∈ s'.1.registry.sockets ↔ y ≠ x ∧ y ∈ s.registry.sockets := by
    intro y
    rw [hremoved.sockets, h.wellFormed.nodup.mem_erase_iff]
  have hcount : ∀ (y : SocketPtr) (l : List SocketPtr), (x :: l).count y +
      (if y ∈ s'.1.registry.sockets then 1 else 0) =
        l.count y + if y ∈ s.registry.sockets then 1 else 0 := by
    intro y l
    by_cases hy : y = x
    · subst hy
      rw [if_neg fun hin => ((hmem y).mp hin).1 rfl, if_pos hx, List.count_cons_self, Nat.add_zero]
    · rw [List.count_cons_of_ne (Ne.symm hy)]
      simp only [hmem, ne_eq, hy, not_false_eq_true, true_and]
  refine ⟨hs''.sockets, hs''.sockToConfig, fun y => ?_, fun y => ?_, fun y => ?_,
    hremoved.pool.trans hs''.pool, fun y hy => ?_⟩
  · rw [hs''.deleted, hs'.deleted, hcount]
  · rw [hs''.adapters, hs'.history, hcount]
  · rw [hs''.heap, hs'.heap, hmem]
    constructor
    · rintro ⟨⟨hin, hne⟩, hnot⟩
      exact ⟨hin, fun hy => hnot ⟨hne, hy⟩⟩
    · rintro ⟨hin, hnot⟩
      exact ⟨⟨hin, fun heq => hnot (heq ▸ hx)⟩, fun hy => hnot hy.2⟩
  · by_cases hyx : y = x
    · obtain ⟨t, ht⟩ := h.accounts
      obtain ⟨c, hc, hreleased⟩ := hremoved.released
      rw [hyx]
      exact ⟨c, hc, (localPort_of_accounts ht hc).imp_right fun hrange =>
        hs''.pool (hreleased hrange)⟩
    · obtain ⟨c, hc⟩ := h.wellFormed.mem_sockets_iff.mp hy
      obtain ⟨c', hc', hport⟩ := hs''.ports y ((hmem y).mpr ⟨hyx, hy⟩)
      cases (hremoved.others y c hyx hc).symm.trans hc'
      exact ⟨c, hc, hport⟩

/-- The loop, by the number of the sockets that are left. -/
theorem ends_cleanupLoop (n : Nat) : ∀ (s : SharedState) (deleted : List SocketPtr), Ready link s →
    s.registry.sockets.length = n → cleanupLoop.Ends (cleanupSystem reuse)
      (fun _ held s' => held = inCleanup ∧ CleanedUp (s, deleted) s') inCleanup (s, deleted) := by
  induction n with
  | zero =>
    intro s deleted hs hlength
    have hempty := List.length_eq_zero_iff.mp hlength
    refine (computes_act overlooks .lastSocket trivial fun _ => rfl).ends ?_
    rw [hempty, List.getLast?_nil]
    exact .pure ⟨rfl, hs.cleanedUp hempty⟩
  | succ n ih =>
    intro s deleted hs hlength
    have hne : s.registry.sockets ≠ [] := List.ne_nil_of_length_eq_add_one hlength
    have hx := List.getLast_mem hne
    refine (computes_act overlooks .lastSocket trivial fun _ => rfl).ends ?_
    rw [List.getLast?_eq_some_getLast hne]
    refine Ends.bind (ends_bratislavaDestroy hx (hs.equipped _ hx)) ?_
    rintro _ _ ⟨s', deleted'⟩ ⟨rfl, hs'⟩
    have hsockets := (removed_of_wellFormed hs.wellFormed hx).sockets
    have hlength' : s'.registry.sockets.length = n := by
      rw [hs'.registry, hsockets, List.length_erase_of_mem hx, hlength, Nat.add_sub_cancel]
    refine .call ?_
    show Ends (cleanupSystem reuse) _ (cleanupLoop.bind .pure) _ _
    rw [bind_pure]
    refine (ih s' deleted' (hs.destroyed hx hs') hlength').mono ?_
    exact fun _ _ s'' h => ⟨h.1, hs'.cleanedUp hs hx h.2⟩

theorem ends_cleanup (hs : Ready link s) :
    cleanup.Ends (cleanupSystem reuse) (fun _ held s' => held = [] ∧ CleanedUp (s, deleted) s') []
      (s, deleted) := by
  refine Ends.locked grants_recursive (.call ?_)
  show Ends (cleanupSystem reuse) _ (cleanupLoop.bind .pure) _ _
  rw [bind_pure]
  exact (ends_cleanupLoop _ s deleted hs rfl).mono fun _ _ _ h => ⟨h.1, rfl, h.2⟩

end Cleanup

open Cleanup

/-- From every state that operations on the registry lead to, with an adapter behind each socket,
`Cleanup` returns whatever the system answers, and leaves no socket, no adapter and no port. -/
theorem cleanup_returns {link : SocketPtr → BratislavaLink} {ops : List Operation}
    (hlegal : (registryMachine link).Legal .empty ops) {s : SharedState}
    (hs : s.registry = (registryMachine link).run .empty ops) (hequipped : s.Equipped)
    (reuse : Bool) (t : Tid) :
    ((World.quiet (s, []) : World (cleanupSystem reuse)).next (.start t .cleanup)).Inevitable t
      fun w => ∃ s', w = World.quiet s' ∧ CleanedUp (s, []) s' := by
  have haccounts : ∃ table, Accounts link s.registry table := by
    rw [hs]
    refine Machine.Each.invariant (M := registryMachine link)
      (I := fun r => ∃ table, Accounts link r table) ?_ hlegal ⟨_, .empty⟩
    rintro r op ⟨table, htable⟩ hadmissible
    exact ⟨_, htable.step hadmissible⟩
  refine World.returns_of_ends ({} : Choice) ?_
  exact ends_cleanup ⟨haccounts, hequipped⟩

/-- Two sockets, the first of them with a local port. -/
def twoAdded : List Operation := [.add 1 8, .addLocalPort "aa", .add 2 9]

def SharedState.twoSockets : SharedState where
  registry := (registryMachine wifiPeers).run .empty twoAdded
  heap := ((∅ : UnorderedMap SocketPtr BratislavaSocket).insert 1
    { link := wifiPeers 1, adapter := .object { kind := .wifi .router, sockfd := 3 } }).insert 2
    { link := wifiPeers 2, adapter := .object { kind := .wifi .adapter, sockfd := 4 } }
  openFds := [3, 4]
  used := [2, 1]
  removed := []
  deleted := []

theorem cleanup_returns_two_sockets :
    ((World.quiet (.twoSockets, []) : World (cleanupSystem false)).next
        (.start 0 .cleanup)).Inevitable 0 fun w =>
      ∃ s', w = World.quiet s' ∧ CleanedUp (.twoSockets, []) s' := by
  have hlegal : (registryMachine wifiPeers).Legal .empty twoAdded := by decide +kernel
  have hequipped : SharedState.twoSockets.Equipped := by
    unfold SharedState.Equipped
    decide +kernel
  have hregistry : SharedState.twoSockets.registry =
      (registryMachine wifiPeers).run .empty twoAdded := by rw [SharedState.twoSockets]
  exact cleanup_returns hlegal hregistry hequipped false 0

end SensorLib
