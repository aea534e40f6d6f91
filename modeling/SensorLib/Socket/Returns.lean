import Mathlib.Data.Fintype.EquivFin
import SensorLib.Socket.Nesting
import SensorLib.Socket.Waits
import SensorLib.Threads.Quiescence

/-! # The functions of the API return

Without `Cleanup` some thread can always move, and every thread comes to the end
of its call.
-/

namespace SensorLib

open Threads Runs Handles Nesting

variable {reuse : Bool}

/-! ## Every act has an outcome -/

instance : Inhabited (socketSystem reuse).Env := ⟨({} : Choice)⟩

/-- What a system call may always answer: that it failed. -/
def failing (address : Nat) : Choice := { address, attempt := .expired }

theorem Adapter.exec_failing (a : Adapter) (fds : List Int) (address : Nat) (act : AdapterAct) :
    (a.exec fds (failing address) act).isSome = true := by
  cases act <;> simp [Adapter.exec, failing, FreshFd]

namespace SharedState

variable {s : SharedState} {x : SocketPtr} {address : Nat}

theorem exists_fresh (s : SharedState) : ∃ address : Nat,
    address ∉ s.heap ∧ address ∉ s.used ∧ address ∉ s.registry.configs := by
  obtain ⟨address, hfresh⟩ := Infinite.exists_notMem_finset
    (s.heap.keys ∪ s.used.toFinset ∪ s.registry.configs.keys)
  simp only [Finset.mem_union, List.mem_toFinset, Finmap.mem_keys, not_or] at hfresh
  exact ⟨address, hfresh.1.1, hfresh.1.2, hfresh.2⟩

theorem exec_adapter_failing (hx : (s.adapterOf x).isSome) (act : AdapterAct) :
    (s.exec reuse (.adapter x act) (failing address)).isSome = true := by
  obtain ⟨a, ha⟩ := Option.isSome_iff_exists.mp hx
  obtain ⟨link, hlookup⟩ := adapterOf_eq_some.mp ha
  simp only [exec, hlookup, Option.isSome_map]
  exact a.exec_failing s.openFds address act

theorem exec_newSocket_failing (hheap : address ∉ s.heap) (hused : address ∉ s.used)
    (link : BratislavaLink) : (s.exec reuse (.newSocket link) (failing address)).isSome = true := by
  have hfresh : s.FreshAddress reuse (failing address).address := ⟨hheap, fun _ => hused⟩
  simp only [exec, newSocket, if_pos hfresh]
  split
  · rw [if_pos ⟨Or.inl rfl, Or.inl rfl, Or.inl rfl⟩]
    rfl
  · rfl

end SharedState

/-- A thread that keeps to the discipline is never without an outcome. -/
theorem exists_outcome {s : SharedState} {H : Tid → Locks} {G : Tid → Knowledge}
    (hsafe : Safe reuse s H G) {t : Tid} {f : Call} {a : SocketAct}
    (hmay : MayAct f (H t) (G t) a) : ∃ e, (s.exec reuse a e).isSome = true := by
  obtain ⟨address, hheap, hused, hconfigs⟩ := s.exists_fresh
  apply Exists.intro (failing address)
  have hlive {x : SocketPtr} (hx : (G t).known = some x) : (s.adapterOf x).isSome :=
    hsafe.live x ((hsafe.thread t).known x hx).1
  have hlookup {x : SocketPtr} (hx : (s.adapterOf x).isSome) : (s.heap.lookup x).isSome :=
    Finmap.lookup_isSome.mpr (SharedState.adapterOf_isSome_mem hx)
  cases a with
  | newSocket link => exact SharedState.exec_newSocket_failing hheap hused link
  | createConfigSocket | createConfigId =>
    have hnew : (failing address).address ∉ s.registry.configs := hconfigs
    simp only [SharedState.exec, if_neg hnew, Option.isSome_some]
  | readLink x =>
    simp only [SharedState.exec, Option.isSome_map]
    rcases hmay with hx | hx
    · exact hlookup (hlive hx)
    · exact hlookup ((hsafe.thread t).fresh x hx).2.1
  | hasAdapter x =>
    simp only [SharedState.exec, Option.isSome_map]
    exact hlookup (hlive hmay)
  | adapter x act => exact SharedState.exec_adapter_failing (hlive hmay.1) act
  | deleteAdapter x =>
    obtain ⟨a, ha⟩ := Option.isSome_iff_exists.mp (((hsafe.thread t).owned x _ hmay.1).2.2.1 rfl)
    obtain ⟨link, hx⟩ := SharedState.adapterOf_eq_some.mp ha
    simp only [SharedState.exec, SharedState.deleteAdapter, hx, Option.map_some, Option.isSome_some]
  | deleteSocket x =>
    have hx := ((hsafe.thread t).owned x _ hmay.1).2.1
    simp only [SharedState.exec, SharedState.deleteSocket, if_pos hx, Option.map_some,
      Option.isSome_some]
  | _ => rfl

/-! ## Some thread can move -/

section Waiting

variable {w : World (socketSystem reuse)} {G : Tid → Knowledge} {t u v : Tid} {l : Mutex}
  {m m' : Mode} (hG : (handleDiscipline reuse false).Follows (Safe reuse) w G)
  (hnested : Nested w.heldBy)

include hG

theorem heldBy_of_idle (hidle : w.thread t = none) : w.heldBy t = [] := by
  have ht := hG.threads t
  rwa [Discipline.ThreadObeys, hidle] at ht

theorem ready_of_act {f : Call} {a : SocketAct} {k : a.Answer → Program CallResult}
    (hthread : w.thread t = some (f, .act a k)) : w.Ready t := by
  obtain ⟨e, he⟩ := exists_outcome hG.invariant (hG.obeys hthread).1
  exact World.ready_act hthread he

include hnested

/-- Who has `mutex_recursive_` waits for a lock further up. -/
theorem rank_lt_of_nested (htu : w.Blocked t u l m m') (hwaited : ∃ s, w.WaitsFor s t) {l' : Mutex}
    {n n' : Mode} (huv : w.Blocked u v l' n n') : l.rank < l'.rank := by
  have hheld := mem_lockNames_of_mem htu.holds
  have hwait := mayWait_of_blocked hG huv
  rcases hwait.above l hheld with rfl | hlt
  · have hdel := deletion_of_blocked hG htu hwaited
    rcases hwait.underRecursive hheld with rfl | hlt | hexclusive | ⟨rfl, -⟩
    · have hv := recursive_unique hG hheld (mem_lockNames_of_mem huv.holds)
      exact absurd (Or.inr ⟨rfl, hv⟩) huv.conflict
    · exact hlt
    · have heq := excludes_names (Discipline.excludes_of_exclusion hG.exclusion) hexclusive hdel
      exact absurd (Or.inr ⟨rfl, heq.symm⟩) htu.conflict
    · rcases hwait.above _ (hnested u hheld) with heq | hlt
      · cases heq
      · exact absurd hlt (Nat.lt_irrefl _)
  · exact hlt

theorem ready_of_busy (hbusy : ∃ t, w.thread t ≠ none) : ∃ t, w.Ready t := by
  have hbound : ∀ l : Mutex, l.rank ≤ 5 := by
    intro l
    cases l <;> simp [Mutex.rank]
  apply World.exists_ready (Y := socketSystem reuse) Mutex.rank hbound
  · intro t ht hat
    obtain ⟨⟨f, p⟩, hthread⟩ := Option.ne_none_iff_exists'.mp ht
    cases p with
    | lock l m k =>
      have hl : w.atLock t l = true := (World.atLock_iff _).mpr ⟨f, m, k, hthread⟩
      rw [hat l] at hl
      cases hl
    | act a k => exact ready_of_act hG hthread
    | pure | unlock | call =>
      apply World.ready_of_head hthread
      · intro l m heq
        cases heq
      · intro a heq
        cases heq
  · intro t hidle
    exact heldBy_of_idle hG hidle
  · intro t u l m m' htu hwaited v l' n n' huv
    exact rank_lt_of_nested hG hnested htu hwaited huv
  · exact hbusy

end Waiting

/-! ## Executions -/

/-- Nobody runs a call, and no lock is held. -/
structure AtRest (w : World (socketSystem reuse)) : Prop where
  idle : ∀ t, w.thread t = none
  free : w.holds = []

/-- What holds in every world of an execution without `Cleanup`. -/
structure Orderly (w : World (socketSystem reuse)) : Prop where
  disciplined : Disciplined reuse false w
  nested : ∃ G, (nestingDiscipline reuse).Follows (fun _ H _ => Nested H) w G
  ordinary : w.Runs Call.Ordinary

theorem Orderly.next {w : World (socketSystem reuse)} (hw : Orderly w)
    {op : Op (socketSystem reuse)} (hop : w.enabled op = true)
    (hcalls : ∀ t f, op = .start t f → f.Ordinary) : Orderly (w.next op) where
  disciplined := by
    apply Discipline.Follows.step handles_sound handles_cover hw.disciplined
    constructor
    · exact hop
    · cases op with
      | start t f => exact (hcalls t f rfl).1
      | run t e =>
        intro f p _ hstrict
        cases hstrict
  nested := by
    apply Discipline.Follows.step nesting_sound nesting_cover hw.nested
    constructor
    · exact hop
    · cases op with
      | start t f => exact hcalls t f rfl
      | run t e => exact fun _ _ _ => trivial
  ordinary := hw.ordinary.next hop hcalls

theorem SharedState.Settled.orderly {s : SharedState} (hs : s.Settled) :
    Orderly (World.quiet s : World (socketSystem reuse)) where
  disciplined := hs.disciplined reuse false
  nested := ⟨fun _ => (), Discipline.follows_quiet (by simp [Nested])⟩
  ordinary t f p hthread := by cases hthread

/-- A destroyer comes for a socket that is being sent on, waits for the sender and goes on. -/
def destroyDuringSend : List (Op (socketSystem false)) :=
  .start 1 (.bratislavaSend (some 1)) :: List.replicate 6 (.run 1 {}) ++
    .start 2 (.bratislavaDestroy (some 1)) :: List.replicate 15 (.run 2 {}) ++
    List.replicate 16 (.run 1 {}) ++ List.replicate 31 (.run 2 {})

theorem legal_destroyDuringSend :
    (machine (socketSystem false)).Legal (World.quiet .onePeer) destroyDuringSend := by
  decide +kernel

theorem ordinary_destroyDuringSend {n : Nat} {t : Tid} {f : Call}
    (hop : destroyDuringSend[n]? = some (.start t f)) : f.Ordinary := by
  have hmem := List.mem_of_getElem? hop
  simp [destroyDuringSend] at hmem
  rcases hmem with ⟨_, rfl⟩ | ⟨_, rfl⟩ <;> exact ⟨trivial, by simp⟩

theorem lt_of_start_destroyDuringSend {n : Nat} {t : Tid} {f : Call}
    (hop : destroyDuringSend[n]? = some (.start t f)) : n < 8 := by
  by_contra hn
  have hdrop : (destroyDuringSend.drop 8)[n - 8]? = some (.start t f) := by
    rw [List.getElem?_drop, Nat.add_sub_cancel' (Nat.not_lt.mp hn), hop]
  have hmem := List.mem_of_getElem? hdrop
  simp [destroyDuringSend] at hmem

end SensorLib
