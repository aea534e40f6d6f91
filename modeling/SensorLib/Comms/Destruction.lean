import SensorLib.Comms.LifetimeRuns
import SensorLib.Threads.Paths

/-! # Runtimes that are used after they were destroyed

`get_runtime` gives out a pointer that nothing keeps alive. What `stop` waits
for are only the threads that the runtime itself has started.
-/

namespace SensorLib.Comms

open Threads Runs Lifetimes

variable {w : World commsSystem} {G : Tid → Duty} {t : Tid} {r : RuntimePtr}

/-- The runtime that a call goes on with once it has released the mutex. -/
def runtimeAhead {α : Type} : Program α → Option RuntimePtr
  | .act (.method r _) _ => some r
  | .unlock _ _ k => runtimeAhead k
  | _ => none

/-- The runtime that a call of the API got from `get_runtime` and has still to run on, and what for. -/
def holding (w : World commsSystem) (t : Tid) : Option (RuntimePtr × Purpose) :=
  match w.thread t with
  | some (f, p) => (runtimeAhead p).map fun r => (r, f.purpose)
  | none => none

/-- No method is about to run on a runtime that was destroyed, and no link about to be published
in one whose links were taken out. -/
structure UsesLive (w : World commsSystem) : Prop where
  alive : ∀ t r a, nextMethod w t = some (r, a) → (∀ worker, a ≠ .begin worker) →
    r ∈ w.state.runtimes
  unpublished : ∀ t r link, nextMethod w t = some (r, .publish link) → w.state.drainedOf r = none

/-- What a step takes from calls of the API: a runtime that is destroyed, and the links of one
for those that scan. -/
def takes (w : World commsSystem) : Op commsSystem → List (RuntimePtr × Purpose)
  | .start .. => []
  | .run t _ =>
    match w.thread t with
    | some (_, .act (.destroy r) _) => [(r, .use), (r, .scan)]
    | some (_, .act (.method r .drain) _) => [(r, .scan)]
    | _ => []

/-- No call of the API still has to run on a runtime that is destroyed, or to scan for one whose
links are taken out. -/
def LeavesFirst (w : World commsSystem) (op : Op commsSystem) : Prop :=
  ∀ x ∈ takes w op, ∀ u, holding w u ≠ some x

namespace Lifetimes

/-- A thread runs methods of the runtime it is concerned with. -/
theorem holds_of_mayAct {g : Duty} {a : RuntimeAct} (hmay : MayAct g r a)
    (hbegin : ∀ worker, a ≠ .begin worker) : g.role.Holds r := by
  have hholds : ∀ role, g.role = role → role.Holds r → g.role.Holds r := fun _ heq h => heq ▸ h
  have hcloses : g.role.Closes r → g.role.Holds r := by
    cases g.role with
    | starter | owner => exact id
    | _ => exact False.elim
  cases a with
  | begin worker => exact absurd rfl (hbegin worker)
  | finish | bind | spawn => exact hholds _ hmay.1 rfl
  | isRunning =>
    obtain ⟨worker, hrole⟩ := hmay
    exact hholds _ hrole rfl
  | claimRunning | registerCallback | readLinks | waitForStop | openServer | listen | serve
  | closeServer => exact hholds _ hmay rfl
  | stopRunning | joinable | join | dropCallback | linkDropped => exact hcloses hmay
  | drain => exact hcloses hmay.1
  | _ =>
    rcases hmay with ⟨hrole, -⟩ | hrole
    · exact hholds _ hrole rfl
    · exact hholds _ hrole rfl

/-- A thread that uses a runtime goes on with it. -/
theorem ahead_of_user {α : Type} {f : Call} {p : Program α} {h : Held commsSignature} {g : Duty}
    {Q : α → Held commsSignature → Duty → Prop} (hp : lifetimeDiscipline.Obeys f p h g Q)
    (hQ : ∀ a h' g', Q a h' g' → g'.role = .idle) (hg : g.role = .user r) :
    runtimeAhead p = some r := by
  induction p generalizing h g with
  | pure a =>
    rw [hQ a h g hp] at hg
    cases hg
  | lock l m k ih =>
    rw [hp.1.1] at hg
    cases hg
  | unlock l m k ih => exact ih hp.2.2 hg
  | call f' k ih =>
    obtain ⟨r', worker, -, hrole⟩ | ⟨r', -, hrole⟩ := hp.1 <;> rw [hrole] at hg <;> cases hg
  | act a k ih =>
    cases a with
    | method r' a =>
      have hbegin : ∀ worker, a ≠ .begin worker := by
        rintro worker rfl
        rw [show g.role = .idle from hp.1] at hg
        cases hg
      have hholds := holds_of_mayAct hp.1 hbegin
      rw [hg] at hholds
      exact congrArg some hholds.symm
    | currentRuntime | release =>
      rw [hp.1.2] at hg
      cases hg
    | newRuntime =>
      rw [show g.role = .vacant from hp.1] at hg
      cases hg
    | resetRuntime | destroy =>
      rw [hp.1.1] at hg
      cases hg
    | retain =>
      obtain ⟨-, hrole | ⟨-, r', hrole⟩⟩ := hp.1 <;> rw [hrole] at hg <;> cases hg

namespace Living

variable {apart : Bool}

/-- What a call has got from `get_runtime` can be seen. -/
theorem holding_of_user (h : Living apart w G) (ht : (G t).role = .user r) :
    holding w t = some (r, (G t).purpose) ∧ ((G t).purpose = .use ∨ (G t).purpose = .scan) := by
  rcases hthread : w.thread t with _ | ⟨f, p⟩
  · rw [h.follows.rest t hthread] at ht
    cases ht
  · obtain ⟨hpurpose, huser⟩ := h.meant t f p hthread
    refine ⟨?_, huser r ht⟩
    have hahead := ahead_of_user (h.follows.toFollows.obeys hthread) (fun _ _ _ hQ => hQ.2) ht
    unfold holding
    simp only [hthread, hahead, hpurpose]
    rfl

theorem usesLive (h : Living apart w G) : UsesLive w := by
  refine ⟨fun t r a hnext hbegin => ?_, fun t r link hnext => ?_⟩
  · obtain ⟨f, k, hthread⟩ := nextMethod_iff.mp hnext
    have hmay : MayAct (G t) r a := (h.follows.toFollows.obeys hthread).1
    exact h.follows.invariant.1.present_of_holds (holds_of_mayAct hmay hbegin)
  · obtain ⟨f, k, hthread⟩ := nextMethod_iff.mp hnext
    have hmay : MayAct (G t) r (.publish link) := (h.follows.toFollows.obeys hthread).1
    have hlives := h.follows.invariant.1
    by_contra hdrained
    rcases hmay with ⟨hrole, hscan⟩ | hrole
    · have hself := hlives.sits t
      unfold Sits at hself
      rw [hrole] at hself
      exact hself.2 hscan hdrained
    · exact hlives.ended r hdrained ((hlives.present_of_worker hrole).2 ▸ trivial)

/-- What the proofs about lifetimes assume of the steps holds where calls leave first. -/
theorem assumed (h : Living false w G) {e : Choice} (hleaves : LeavesFirst w (.run t e)) {f : Call}
    {p : Program CallResult} (hthread : w.thread t = some (f, p)) :
    Assumed false w.state G p.head where
  destroys r hhead u hu := by
    obtain ⟨hholding, hpurpose⟩ := h.holding_of_user hu
    cases p with
    | act a k =>
      cases hhead
      refine hleaves (r, (G u).purpose) ?_ u hholding
      simp only [takes, hthread, List.mem_cons, Prod.mk.injEq, true_and, List.not_mem_nil, or_false]
      exact hpurpose
    | _ => cases hhead
  drains r hhead u hu hscan := by
    obtain ⟨hholding, -⟩ := h.holding_of_user hu
    cases p with
    | act a k =>
      cases hhead
      refine hleaves (r, .scan) ?_ u (hscan ▸ hholding)
      simp only [takes, hthread, List.mem_singleton]
    | _ => cases hhead
  news hapart := by cases hapart

end Living

end Lifetimes

theorem used_while_alive {ops : List (Op commsSystem)} (hcalls : Calls Call.Api ops)
    (hlegal : (machine commsSystem).Legal (World.quiet .initial) ops)
    (hleaves : (machine commsSystem).Each LeavesFirst (World.quiet .initial) ops) :
    (machine commsSystem).Always UsesLive (World.quiet .initial) ops := by
  refine Machine.Each.always (M := machine commsSystem) (I := fun w => ∃ G, Living false w G) ?_
    (fun w ⟨G, hG⟩ => hG.usesLive)
    (Machine.Each.and (Machine.Each.and hlegal hleaves) (hcalls.each _)) ⟨_, living_start⟩
  rintro w op ⟨G, hG⟩ ⟨⟨hop, hleaves⟩, hcall⟩
  refine ⟨_, hG.next hop ?_⟩
  cases op with
  | start t f => exact hcall t f rfl
  | run t e => exact fun f p hthread => hG.assumed hleaves hthread

/-- Where only the threads below `n` run, only these need to be looked at. -/
theorem leavesFirst_of_lt {n : Nat} {s : CommsState} {ops : List (Op commsSystem)}
    (hlegal : (machine commsSystem).Legal (World.quiet s) ops) (hn : ∀ op ∈ ops, op.tid < n)
    (h : (machine commsSystem).Each (fun w op => ∀ x ∈ takes w op, ∀ u < n, holding w u ≠ some x)
      (World.quiet s) ops) :
    (machine commsSystem).Each LeavesFirst (World.quiet s) ops := by
  refine Machine.Each.mono ?_ (Machine.Each.and (each_idle hlegal hn) h)
  rintro w op ⟨hidle, hop⟩ x hx u
  by_cases hu : u < n
  · exact hop x hx u hu
  · simp [holding, hidle u (Nat.not_lt.mp hu)]

/-- The runtime is made by thread 0, with threads of its own that have not begun. -/
def makeRuntime : List (Op commsSystem) :=
  .start 0 (.commsRuntimeInitialize true) :: List.replicate 10 (.run 0 {})

/-- Thread 0 takes the runtime out, its three threads end, and it is drained and destroyed. -/
def shutRuntime : List (Op commsSystem) :=
  .start 0 .commsRuntimeShutdown :: List.replicate 4 (.run 0 {}) ++
    .start 1 (.udpServerLoop 0) :: List.replicate 4 (.run 1 { ok := false }) ++
    .start 2 (.bluetoothServerLoop 0) :: List.replicate 4 (.run 2 { ok := false }) ++
    .start 3 (.discoveryLoop 0) :: List.replicate 5 (.run 3 {}) ++ List.replicate 9 (.run 0 {})

/-- The links are discovered before the runtime is shut down. -/
def discoverThenShut : List (Op commsSystem) :=
  makeRuntime ++ .start 4 (.commsRuntimeDiscoverLinks .comms true) :: List.replicate 7 (.run 4 {}) ++
    shutRuntime

theorem used_while_alive_discover_first :
    (machine commsSystem).Always UsesLive (World.quiet .initial) discoverThenShut := by
  have hlegal : (machine commsSystem).Legal (World.quiet .initial) discoverThenShut := by
    decide +kernel
  refine used_while_alive ?_ hlegal
    (leavesFirst_of_lt (n := 5) hlegal (by decide +kernel) (by decide +kernel))
  intro t f hmem
  simp [discoverThenShut, makeRuntime, shutRuntime] at hmem
  rcases hmem with ⟨-, rfl⟩ | ⟨-, rfl⟩ | ⟨-, rfl⟩ | ⟨-, rfl⟩ | ⟨-, rfl⟩ | ⟨-, rfl⟩ <;> trivial

/-- Thread 4 has the pointer, and has not begun to scan when the runtime is destroyed. -/
def discoverAfterShut : List (Op commsSystem) :=
  makeRuntime ++ .start 4 (.commsRuntimeDiscoverLinks .comms true) :: List.replicate 3 (.run 4 {}) ++
    shutRuntime

/-- No run uses a runtime that was destroyed or drained. -/
def UsedWhileAlive : Prop :=
  ∀ ops : List (Op commsSystem), Calls Call.Api ops →
    (machine commsSystem).Legal (World.quiet .initial) ops →
    (machine commsSystem).Always UsesLive (World.quiet .initial) ops

theorem runtime_used_after_destroyed : ¬ UsedWhileAlive := by
  intro h
  have hcalls : Calls Call.Api discoverAfterShut := by
    intro t f hmem
    simp [discoverAfterShut, makeRuntime, shutRuntime] at hmem
    rcases hmem with ⟨-, rfl⟩ | ⟨-, rfl⟩ | ⟨-, rfl⟩ | ⟨-, rfl⟩ | ⟨-, rfl⟩ | ⟨-, rfl⟩ <;> trivial
  have hnext : nextMethod ((machine commsSystem).run (World.quiet .initial) discoverAfterShut) 4 =
      some (0, .discoverBluetooth) := by decide +kernel
  have hgone : 0 ∉ ((machine commsSystem).run (World.quiet .initial)
      discoverAfterShut).state.runtimes := by decide +kernel
  have huses := (h discoverAfterShut hcalls (by decide +kernel)).last
  generalize (machine commsSystem).run (World.quiet .initial) discoverAfterShut = w at *
  exact hgone (huses.alive 4 0 _ hnext (by simp))

end SensorLib.Comms
