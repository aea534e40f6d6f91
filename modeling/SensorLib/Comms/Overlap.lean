import SensorLib.Comms.Destruction

/-! # Runtimes that run at the same time

`comms_runtime_shutdown` takes the runtime out of `g_runtime` under the mutex
and stops it outside, so that a new one may start before the old one's threads
have ended.
-/

namespace SensorLib.Comms

open Threads Runs Lifetimes

variable {w : World commsSystem} {G : Tid → Duty} {t : Tid} {r : RuntimePtr}

/-- What `createInstrumentAPI` and `destroyInstrumentAPI` call, and the threads of the runtimes. -/
def Call.Creates : Call → Prop
  | .commsRuntimeInitialize _ | .commsRuntimeShutdown | .udpServerLoop _ | .bluetoothServerLoop _
  | .discoveryLoop _ => True
  | _ => False

/-- A thread of the runtime was created and has not ended. -/
def CommsState.Active (s : CommsState) (r : RuntimePtr) : Prop :=
  ∃ worker, (s.workerOf r worker).Live

/-- Only one runtime has threads, and a server that is about to bind its port finds it free. -/
structure OneActive (w : World commsSystem) : Prop where
  unique : ∀ r r', w.state.Active r → w.state.Active r' → r = r'
  unoccupied : ∀ t r worker, nextMethod w t = some (r, .bind worker) → ¬ w.state.Occupied worker

/-- The next step makes a runtime. -/
def makes (w : World commsSystem) : Op commsSystem → Bool
  | .start .. => false
  | .run t _ =>
    match w.thread t with
    | some (_, .act .newRuntime _) => true
    | _ => false

/-- A runtime is made only while no other has threads. -/
def MadeAlone (w : World commsSystem) (op : Op commsSystem) : Prop :=
  makes w op = true → ∀ r, ¬ w.state.Active r

theorem Call.api_of_creates {f : Call} (h : f.Creates) : f.Api := by
  cases f with
  | commsRuntimeInitialize | commsRuntimeShutdown | udpServerLoop | bluetoothServerLoop
  | discoveryLoop => trivial
  | _ => exact h.elim

/-- Calls that make and destroy runtimes never ask `get_runtime` for one to use. -/
theorem Call.purpose_of_creates {f : Call} (h : f.Creates) :
    f.purpose ≠ .use ∧ f.purpose ≠ .scan := by
  cases f with
  | commsRuntimeInitialize | commsRuntimeShutdown | udpServerLoop | bluetoothServerLoop
  | discoveryLoop => exact ⟨nofun, nofun⟩
  | _ => exact h.elim

namespace Lifetimes.Living

theorem not_user (h : Living true w G) (hruns : w.Runs Call.Creates) :
    (G t).role ≠ .user r := by
  intro hrole
  rcases hthread : w.thread t with _ | ⟨f, p⟩
  · rw [h.follows.rest t hthread] at hrole
    cases hrole
  · obtain ⟨hpurpose, huser⟩ := h.meant t f p hthread
    obtain ⟨huse, hscan⟩ := Call.purpose_of_creates (hruns t f p hthread)
    rw [hpurpose] at huser
    exact (huser r hrole).elim huse hscan

theorem oneActive (h : Living true w G) : OneActive w := by
  obtain ⟨hlives, hnewest⟩ := h.follows.invariant
  have hnewest := hnewest rfl
  refine ⟨fun r r' => ?_, fun t r worker hnext => ?_⟩
  · rintro ⟨worker, hlive⟩ ⟨worker', hlive'⟩
    exact Nat.succ.inj ((hnewest.newest r worker hlive).trans
      (hnewest.newest r' worker' hlive').symm)
  · obtain ⟨f, k, hthread⟩ := nextMethod_iff.mp hnext
    have hmay : MayAct (G t) r (.bind worker) := (h.follows.toFollows.obeys hthread).1
    rintro ⟨x, hx, hworker⟩
    exact hnewest.unoccupied hlives hmay.1 hmay.2 x hx hworker

/-- What the proofs about lifetimes assume of the steps holds where runtimes are made alone. -/
theorem assumed_alone (h : Living true w G) (hruns : w.Runs Call.Creates) {e : Choice}
    (halone : MadeAlone w (.run t e)) {f : Call} {p : Program CallResult}
    (hthread : w.thread t = some (f, p)) : Assumed true w.state G p.head where
  destroys r _ u := h.not_user hruns
  drains r _ u hu := absurd hu (h.not_user hruns)
  news _ hhead r worker hlive := by
    cases p with
    | act a k =>
      cases hhead
      exact halone (by simp only [makes, hthread]) r ⟨worker, hlive⟩
    | _ => cases hhead

end Lifetimes.Living

theorem one_runtime_active {ops : List (Op commsSystem)} (hcalls : Calls Call.Creates ops)
    (hlegal : (machine commsSystem).Legal (World.quiet .initial) ops)
    (halone : (machine commsSystem).Each MadeAlone (World.quiet .initial) ops) :
    (machine commsSystem).Always OneActive (World.quiet .initial) ops := by
  refine Machine.Each.always (M := machine commsSystem)
    (I := fun w => w.Runs Call.Creates ∧ ∃ G, Living true w G) ?_
    (fun w ⟨_, G, hG⟩ => hG.oneActive)
    (Machine.Each.and (Machine.Each.and hlegal halone) (hcalls.each _))
    ⟨fun t f p hthread => (by cases hthread), _, living_start⟩
  rintro w op ⟨hruns, G, hG⟩ ⟨⟨hop, halone⟩, hcall⟩
  refine ⟨hruns.next hop hcall, _, hG.next hop ?_⟩
  cases op with
  | start t f => exact Call.api_of_creates (hcall t f rfl)
  | run t e => exact fun f p hthread => hG.assumed_alone hruns halone hthread

/-- Only runtimes that exist need to be looked at. -/
theorem madeAlone_of_keys {op : Op commsSystem} (h : makes w op = true →
    ∀ r ∈ w.state.runtimes.keys, ∀ worker ∈ [Worker.udpServer, .bluetoothServer, .discovery],
      ¬ (w.state.workerOf r worker).Live) : MadeAlone w op := by
  rintro hmakes r ⟨worker, hlive⟩
  by_cases hr : r ∈ w.state.runtimes
  · exact h hmakes r (Finmap.mem_keys.mpr hr) worker (by cases worker <;> decide) hlive
  · rw [CommsState.workerOf, Finmap.lookup_eq_none.mpr hr] at hlive
    exact hlive

/-- The API is created, destroyed and created again. -/
def createAgain : List (Op commsSystem) :=
  makeRuntime ++ shutRuntime ++ .run 0 {} :: .start 0 (.commsRuntimeInitialize true) ::
    List.replicate 10 (.run 0 {})

theorem one_runtime_active_again :
    (machine commsSystem).Always OneActive (World.quiet .initial) createAgain := by
  refine one_runtime_active ?_ (by decide +kernel) ?_
  · intro t f hmem
    simp [createAgain, makeRuntime, shutRuntime] at hmem
    rcases hmem with ⟨-, rfl⟩ | ⟨-, rfl⟩ | ⟨-, rfl⟩ | ⟨-, rfl⟩ | ⟨-, rfl⟩ | ⟨-, rfl⟩ <;> trivial
  · have hkeys : (machine commsSystem).Each (fun w op => makes w op = true →
        ∀ r ∈ w.state.runtimes.keys, ∀ worker ∈ [Worker.udpServer, .bluetoothServer, .discovery],
          ¬ (w.state.workerOf r worker).Live) (World.quiet .initial) createAgain := by
      decide +kernel
    exact hkeys.mono fun _ _ => madeAlone_of_keys

/-- The Bluetooth server of the first runtime has its port when the runtime is taken out. Thread 4
makes the second runtime, whose server comes to bind the same port. -/
def createBeforeJoin : List (Op commsSystem) :=
  makeRuntime ++ .start 2 (.bluetoothServerLoop 0) :: List.replicate 4 (.run 2 {}) ++
    .start 0 .commsRuntimeShutdown :: List.replicate 3 (.run 0 {}) ++
    .start 4 (.commsRuntimeInitialize true) :: List.replicate 10 (.run 4 {}) ++
    .start 5 (.bluetoothServerLoop 1) :: List.replicate 2 (.run 5 {})

/-- In no run are two runtimes active. -/
def OneRuntimeActive : Prop :=
  ∀ ops : List (Op commsSystem), Calls Call.Creates ops →
    (machine commsSystem).Legal (World.quiet .initial) ops →
    (machine commsSystem).Always OneActive (World.quiet .initial) ops

theorem two_runtimes_active : ¬ OneRuntimeActive := by
  intro h
  have hcalls : Calls Call.Creates createBeforeJoin := by
    intro t f hmem
    simp [createBeforeJoin, makeRuntime] at hmem
    rcases hmem with ⟨-, rfl⟩ | ⟨-, rfl⟩ | ⟨-, rfl⟩ | ⟨-, rfl⟩ | ⟨-, rfl⟩ <;> trivial
  have hfirst : (((machine commsSystem).run (World.quiet .initial) createBeforeJoin).state.workerOf 0
      .bluetoothServer).Live := by decide +kernel
  have hsecond : (((machine commsSystem).run (World.quiet .initial) createBeforeJoin).state.workerOf 1
      .bluetoothServer).Live := by decide +kernel
  have hone := (h createBeforeJoin hcalls (by decide +kernel)).last
  generalize (machine commsSystem).run (World.quiet .initial) createBeforeJoin = w at *
  exact absurd (hone.unique 0 1 ⟨_, hfirst⟩ ⟨_, hsecond⟩) (by decide)

/-- The port is taken there, and the new server gives up. -/
example : nextMethod ((machine commsSystem).run (World.quiet .initial) createBeforeJoin) 5 =
      some (1, .bind .bluetoothServer) ∧
    ((machine commsSystem).run (World.quiet .initial) createBeforeJoin).state.Occupied
      .bluetoothServer := by decide +kernel

end SensorLib.Comms
