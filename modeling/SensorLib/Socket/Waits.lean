import SensorLib.Socket.Pins
import SensorLib.Threads.Waiting

/-! # Threads of the API that wait for each other

Every function takes its locks in one order, but for `Cleanup`: it holds
`mutex_recursive_` when it comes to take the deletion lock. Where no other
thread has these two the other way round meanwhile, no wait closes a cycle.
-/

namespace SensorLib

open Threads Runs Handles

variable {reuse : Bool}

/-- While a socket is registered, no thread has `mutex_recursive_` and is yet to take the
deletion lock, as in `Cleanup`, when one that has the deletion lock comes to take
`mutex_recursive_`. -/
def CleanupApart (w : World (socketSystem reuse)) : Prop :=
  ∀ x ∈ w.holds, ∀ y ∈ w.holds, x.2.1 = .recursive →
    .bsockDeletion ∉ lockNames (w.heldBy x.1) → y.2.1 = .bsockDeletion →
    w.atLock y.1 .recursive = true → w.state.registry.sockets = []

instance (w : World (socketSystem reuse)) : Decidable (CleanupApart w) :=
  inferInstanceAs (Decidable (∀ x ∈ w.holds, ∀ y ∈ w.holds, x.2.1 = Mutex.recursive →
    Mutex.bsockDeletion ∉ lockNames (w.heldBy x.1) → y.2.1 = Mutex.bsockDeletion →
    w.atLock y.1 .recursive = true → w.state.registry.sockets = []))

section Waiting

variable {w : World (socketSystem reuse)} {G : Tid → Knowledge} {t u v : Tid} {l : Mutex}
  {m m' : Mode}

theorem heldBy_ne_nil_of_waitsFor (h : w.WaitsFor u t) : w.heldBy t ≠ [] := by
  obtain ⟨l, m, m', hblocked⟩ := h
  exact List.ne_nil_of_mem hblocked.holds

variable (hG : (handleDiscipline reuse false).Follows (Safe reuse) w G)

include hG

/-- A thread that waits keeps to the order of the locks. -/
theorem mayWait_of_blocked (h : w.Blocked t u l m m') : MayWait (w.heldBy t) (G t) l m := by
  obtain ⟨f, k, hthread⟩ := h.waits
  exact (hG.obeys hthread).1.1

/-- Only one thread has `mutex_recursive_`. -/
theorem recursive_unique (ht : .recursive ∈ lockNames (w.heldBy t))
    (hu : .recursive ∈ lockNames (w.heldBy u)) : u = t := by
  obtain ⟨m, hm⟩ := mem_lockNames.mp ht
  obtain rfl := (hG.invariant.thread t).exclusive m hm
  exact excludes_names (Discipline.excludes_of_exclusion hG.exclusion) hm hu

/-- A thread that others wait for and that waits for `mutex_recursive_` has the deletion lock. -/
theorem deletion_of_blocked (h : w.Blocked t u .recursive m m') (hwaited : ∃ s, w.WaitsFor s t) :
    .bsockDeletion ∈ lockNames (w.heldBy t) := by
  obtain ⟨s, hs⟩ := hwaited
  rcases (mayWait_of_blocked hG h).recursive rfl with hnil | hdel | hrec
  · exact absurd hnil (heldBy_ne_nil_of_waitsFor hs)
  · exact hdel
  · have hu := recursive_unique hG hrec (mem_lockNames_of_mem h.holds)
    exact absurd (Or.inr ⟨rfl, hu⟩) h.conflict

/-- Along a cycle the locks waited for rank higher and higher. -/
theorem rank_lt_of_blocked (hapart : CleanupApart w) (htu : w.Blocked t u l m m')
    (hwaited : ∃ s, w.WaitsFor s t) {l' : Mutex} {n n' : Mode} (huv : w.Blocked u v l' n n') :
    l.rank < l'.rank := by
  have hheld := mem_lockNames_of_mem htu.holds
  have hwait := mayWait_of_blocked hG huv
  rcases hwait.above l hheld with rfl | hlt
  · have hdel := deletion_of_blocked hG htu hwaited
    have hne : t ≠ u := fun heq => htu.conflict (Or.inr ⟨rfl, heq.symm⟩)
    rcases hwait.underRecursive hheld with rfl | hlt | hexclusive | ⟨rfl, hknown⟩
    · have hv := recursive_unique hG hheld (mem_lockNames_of_mem huv.holds)
      exact absurd (Or.inr ⟨rfl, hv⟩) huv.conflict
    · exact hlt
    · exact absurd (excludes_names (Discipline.excludes_of_exclusion hG.exclusion) hexclusive hdel)
        hne
    · -- The thread `u` runs `Cleanup`, and `t` has the deletion lock.
      obtain ⟨x, hx⟩ := Option.isSome_iff_exists.mp hknown
      have hregistered := ((hG.invariant.thread u).known x hx).1
      have hnot : Mutex.bsockDeletion ∉ lockNames (w.heldBy u) := by
        intro hmem
        rcases hwait.above _ hmem with heq | hlt
        · cases heq
        · exact absurd hlt (Nat.lt_irrefl _)
      obtain ⟨mode, hmode⟩ := mem_lockNames.mp hdel
      obtain ⟨f, k, hthread⟩ := htu.waits
      have hnil := hapart _ (World.mem_heldBy.mp htu.holds) _ (World.mem_heldBy.mp hmode) rfl hnot
        rfl ((World.atLock_iff _).mpr ⟨f, m, k, hthread⟩)
      rw [hnil] at hregistered
      exact absurd hregistered List.not_mem_nil
  · exact hlt

end Waiting

/-- Where `Cleanup` is apart from the others, no threads ever wait for each other in a cycle. -/
theorem no_deadlock {s : SharedState} (hs : s.Settled) {ops : List (Op (socketSystem reuse))}
    (hcalls : Calls Call.Api ops)
    (hlegal : (machine (socketSystem reuse)).Legal (World.quiet s) ops)
    (hapart : (machine (socketSystem reuse)).Always CleanupApart (World.quiet s) ops) :
    (machine (socketSystem reuse)).Always (fun w => ¬ w.Deadlock) (World.quiet s) ops := by
  have halways := Machine.Each.always (M := machine (socketSystem reuse))
    (I := Disciplined reuse false) (P := Disciplined reuse false)
    (fun w op hw hop => Discipline.Follows.step handles_sound handles_cover hw hop)
    (fun _ hw => hw) (Machine.Each.and hlegal (meets_loose hcalls _)) (hs.disciplined reuse false)
  refine Machine.Always.mono ?_ (Machine.Always.and halways hapart)
  rintro w ⟨⟨G, hG⟩, hw⟩
  refine World.not_deadlock_of_rank Mutex.rank ?_
  intro t u l m m' htu hwaited v l' n n' huv
  exact rank_lt_of_blocked hG hw htu hwaited huv

/-- `Cleanup` comes to wait for a thread that has pinned the socket, and goes on after it. -/
def sendThenCleanup (reuse : Bool) : List (Op (socketSystem reuse)) :=
  .start 1 (.bratislavaSend (some 1)) :: List.replicate 6 (.run 1 {}) ++
    .start 0 .cleanup :: List.replicate 18 (.run 0 {}) ++ List.replicate 16 (.run 1 {}) ++
    List.replicate 34 (.run 0 {})

theorem no_deadlock_send_then_cleanup : (machine (socketSystem false)).Always
    (fun w => ¬ w.Deadlock) (World.quiet .onePeer) (sendThenCleanup false) := by
  refine no_deadlock SharedState.onePeer_settled ?_ (by decide +kernel) (by decide +kernel)
  intro t f hmem
  simp [sendThenCleanup] at hmem
  rcases hmem with ⟨_, rfl⟩ | ⟨_, rfl⟩ <;> trivial

/-- A thread that is about to pin a socket has the deletion lock when `Cleanup` comes for it. -/
def cleanupDuringPin : List (Op (socketSystem false)) :=
  [.start 1 (.bratislavaSend (some 1)), .run 1 {}, .start 0 .cleanup] ++
    List.replicate 17 (.run 0 {})

/-- `Cleanup` and a pin wait for each other. -/
theorem cleanup_deadlocks : ¬ ∀ ops : List (Op (socketSystem false)), Calls Call.Api ops →
    (machine (socketSystem false)).Legal (World.quiet .onePeer) ops →
    (machine (socketSystem false)).Always (fun w => ¬ w.Deadlock) (World.quiet .onePeer) ops := by
  intro h
  have hcalls : Calls Call.Api cleanupDuringPin := by
    intro t f hmem
    simp [cleanupDuringPin] at hmem
    rcases hmem with ⟨_, rfl⟩ | ⟨_, rfl⟩ <;> trivial
  have hfree := (h cleanupDuringPin hcalls (by decide +kernel)).last
  have hstuck : ∀ w, w = (machine (socketSystem false)).run (World.quiet .onePeer)
        cleanupDuringPin →
      (w.atLock 0 .bsockDeletion = true ∧ w.enabled (.run 0 {}) = false ∧
        ∀ x ∈ w.holds, x.2.1 = Mutex.bsockDeletion → x.1 = 1) ∧
      w.atLock 1 .recursive = true ∧ w.enabled (.run 1 {}) = false ∧
        ∀ x ∈ w.holds, x.2.1 = Mutex.recursive → x.1 = 0 := by
    rintro _ rfl
    decide +kernel
  obtain ⟨⟨hat₀, hno₀, hone⟩, hat₁, hno₁, hzero⟩ := hstuck _ rfl
  obtain ⟨u, m, m', hu⟩ := World.exists_blocked hat₀ hno₀
  obtain ⟨v, n, n', hv⟩ := World.exists_blocked hat₁ hno₁
  obtain rfl : u = 1 := hone _ (World.mem_heldBy.mp hu.holds) rfl
  obtain rfl : v = 0 := hzero _ (World.mem_heldBy.mp hv.holds) rfl
  exact hfree ⟨0, .tail (.single ⟨_, _, _, hu⟩) ⟨_, _, _, hv⟩⟩

end SensorLib
