import SensorLib.Comms.ClosingPrograms
import SensorLib.Comms.Destruction
import SensorLib.Threads.Fair

/-! # Calls that return

Threads of the API wait for the mutex and for the threads of a runtime that is
stopped. In a fair execution they do not wait for ever.
-/

namespace SensorLib.Comms

open Threads Runs Lifetimes

instance : Inhabited Choice := ⟨{}⟩

/-- The function of a thread of a runtime. -/
def loopOf (r : RuntimePtr) : Worker → Call
  | .udpServer => .udpServerLoop r
  | .bluetoothServer => .bluetoothServerLoop r
  | .discovery => .discoveryLoop r

/-- The API is used from the start of the process on. The threads that are created start to run,
every thread gets its turns, and no runtime is taken away from a call that has it. -/
structure Scheduled (E : Execution commsSystem) : Prop where
  start : E.world 0 = World.quiet CommsState.initial
  calls : ∀ n t f, E.op n = some (.start t f) → f.Api
  fair : ∀ t, E.Fair t
  starts : ∀ n r worker, (E.world n).state.workerOf r worker = .created →
    ∃ m, n ≤ m ∧ ∃ t, (E.world m).thread t = some (loopOf r worker, (loopOf r worker).body)
  leaves : ∀ n o, E.op n = some o → LeavesFirst (E.world n) o

namespace Lifetimes

variable {w : World commsSystem} {G : Tid → Duty} {G' : Tid → Closing} {t : Tid} {f : Call}
  {r : RuntimePtr} {worker : Worker}

/-- What is known of the threads on both sides. -/
structure Proceeds (w : World commsSystem) (G : Tid → Duty) (G' : Tid → Closing) : Prop where
  living : Living false w G
  closing : closingDiscipline.Follows (fun _ _ _ => True) w G'
  stops : Stops w.state w.heldBy G G'
  kinds : ∀ t f p, w.thread t = some (f, p) → (G' t).client = decide f.Client

theorem client_acted {h : Held commsSignature} {g : Closing} {a : CommsAct} {x : a.Answer} :
    (closingDiscipline.acted h g a x).client = g.client := by
  cases a with
  | method r a =>
    cases a with
    | joinable worker => cases x <;> rfl
    | _ => rfl
  | _ => rfl

theorem proceeds_start : Proceeds (World.quiet .initial) (fun _ => {}) fun _ => { client := false } where
  living := living_start
  closing := Discipline.follows_quiet trivial
  stops :=
    { stopped := fun t r hr => hr.elim
      joins := fun t r worker hr => hr.elim
      served := fun r worker hrun => by cases hrun
      held := fun t => Or.inl rfl }
  kinds t f p hthread := by cases hthread

theorem Proceeds.next (h : Proceeds w G G') {op : Op commsSystem} (hop : w.enabled op = true)
    (hcall : ∀ t f, op = .start t f → f.Api) (hleaves : LeavesFirst w op) :
    Proceeds (w.next op) (lifetimeDiscipline.track w G op) (closingDiscipline.track w G' op) := by
  constructor
  · apply h.living.next hop
    cases op with
    | start t f => exact hcall t f rfl
    | run t e => exact fun f p hthread => h.living.assumed hleaves hthread
  · apply h.closing.next closing_sound.sound closing_cover hop
    cases op with
    | start t f => exact hcall t f rfl
    | run t e => exact fun f p hthread => trivial
  · exact closing_sound.next h.living.follows h.closing h.stops hop
  · exact Discipline.track_labelled (D := closingDiscipline)
      (R := fun (f : Call) (g : Closing) => g.client = decide f.Client) (fun _ _ => rfl) (fun _ _ _ _ _ _ hg => hg) (fun _ _ _ _ _ hg => hg)
      (fun _ _ _ _ _ hg => client_acted.trans hg) h.kinds hop

/-! ## Where the programs lead -/

/-- The flag of the runtime is found cleared. -/
def Cleared (r : RuntimePtr) : (a : CommsAct) → a.Answer → Prop
  | .method r' .isRunning, x => r' = r → x = false
  | _, _ => True

/-- An instruction at which nobody waits for another thread. -/
structure Unhindered (i : Instr commsSignature) : Prop where
  lock : ∀ l m, i ≠ .lock l m
  begin : ∀ r worker, i ≠ .act (.method r (.begin worker))
  join : ∀ r worker, i ≠ .act (.method r (.join worker))

/-- A thread of a runtime comes to its end once the flag is cleared. -/
theorem arrives_finish {p : Program CallResult} {h : Held commsSignature} {g : Duty}
    {Q : CallResult → Held commsSignature → Duty → Prop} (hp : lifetimeDiscipline.Obeys f p h g Q)
    (hQ : ∀ x h' g', Q x h' g' → g'.role = .idle) (hg : g.role = .worker r worker) :
    Arrives commsSystem (Cleared r) Unhindered
      (fun q => ∃ k, q = .act (.method r (.finish worker)) k) p := by
  induction p generalizing h g with
  | pure a =>
    rw [hQ a h g hp] at hg
    cases hg
  | lock l m k ih =>
    rw [hp.1.1] at hg
    cases hg
  | unlock l m k ih =>
    exact .unlock ⟨by simp, by simp, by simp⟩ (ih hp.2.2 hg)
  | act a k ih =>
    cases a with
    | method r' a =>
      have hrole : ∀ role, g.role = role → role = .worker r worker := fun role heq => heq ▸ hg
      have hmay : MayAct g r' a := hp.1
      cases a with
      | finish worker' =>
        have heq := hrole _ hmay.1
        injection heq with hr' hworker
        subst hr' hworker
        exact .here ⟨k, rfl⟩
      | isRunning =>
        refine .act ⟨by simp, by simp, by simp⟩ fun x hx => ih x (hp.2 x trivial) hg
      | begin | claimRunning | registerCallback | readLinks => cases hrole _ hmay
      | spawn => cases hrole _ hmay.1
      | stopRunning | joinable | join | dropCallback | linkDropped =>
        have hcloses : g.role.Closes r' := hmay
        rw [hg] at hcloses
        exact hcloses.elim
      | drain =>
        have hcloses : g.role.Closes r' := hmay.1
        rw [hg] at hcloses
        exact hcloses.elim
      | bind worker' =>
        refine .act ⟨by simp, by simp, by simp⟩ fun x _ => ?_
        cases x <;> exact ih _ (hp.2 _ trivial) hg
      | _ => exact .act ⟨by simp, by simp, by simp⟩ fun x _ => ih x (hp.2 x trivial) hg
    | currentRuntime | release =>
      rw [hp.1.2] at hg
      cases hg
    | newRuntime =>
      rw [show g.role = .vacant from hp.1] at hg
      cases hg
    | resetRuntime | destroy =>
      rw [hp.1.1] at hg
      cases hg
    | retain =>
      obtain ⟨-, hrole | ⟨-, r', hrole⟩⟩ := hp.1 <;> rw [hrole] at hg <;> cases hg
  | call f' k ih =>
    -- The loops test the flag first.
    have hrest : ∀ r', g.role = .worker r' worker → ∀ body : Bool → Program CallResult,
        body false = .pure .done →
        Arrives commsSystem (Cleared r) Unhindered
          (fun q => ∃ k, q = .act (.method r (.finish worker)) k)
          ((Prog.act (S := commsSignature) (.method r' .isRunning) body).bind k) := by
      intro r' hr' body hbody
      refine .act ⟨by simp, by simp, by simp⟩ fun x hx => ?_
      rw [hg] at hr'
      cases hr'
      rw [show x = false from hx rfl, hbody]
      exact ih _ (hp.2 _ h g ⟨rfl, rfl⟩) hg
    refine .call ⟨by simp, by simp, by simp⟩ ?_
    obtain ⟨r', worker', rfl, hrole⟩ | ⟨r', rfl, hrole⟩ := hp.1
    · rw [hg] at hrole
      cases hrole
      exact hrest r hg _ rfl
    · rw [hg] at hrole
      cases hrole
      exact hrest r hg _ rfl

/-- A call that holds the mutex comes to where it releases it. -/
theorem arrives_unlock {p : Program CallResult} {h : Held commsSignature} {g : Duty} {g' : Closing}
    {Q : CallResult → Held commsSignature → Duty → Prop}
    {Q' : CallResult → Held commsSignature → Closing → Prop}
    (hp : lifetimeDiscipline.Obeys f p h g Q) (hp' : closingDiscipline.Obeys f p h g' Q')
    (hQ : ∀ x h' g', Q x h' g' → h' = []) (hclient : g'.client = true)
    (hheld : h = [(.gRuntime, .exclusive)]) :
    Arrives commsSystem (fun _ _ => True) (fun i => ∀ l m, i ≠ .lock l m)
      (fun q => ∃ k, q = .unlock .gRuntime .exclusive k) p := by
  induction p generalizing g g' with
  | pure a =>
    rw [hQ a h g hp] at hheld
    cases hheld
  | lock l m k ih =>
    rw [hp.1.2.1] at hheld
    cases hheld
  | unlock l m k ih =>
    have hmem := hp.1
    rw [hheld, List.mem_singleton] at hmem
    cases hmem
    exact .here ⟨k, rfl⟩
  | act a k ih =>
    refine .act (by simp) fun x _ => ?_
    exact ih x (hp.2 x trivial) (hp'.2 x trivial) (client_acted.trans hclient)
  | call f' k ih =>
    have hnot : g'.client = false := hp'.1.2
    rw [hclient] at hnot
    cases hnot

/-- A call of the API makes no calls, and comes to its end. -/
theorem arrives_end {p : Program CallResult} {h : Held commsSignature} {g' : Closing}
    {Q' : CallResult → Held commsSignature → Closing → Prop}
    (hp' : closingDiscipline.Obeys f p h g' Q') (hclient : g'.client = true) :
    Arrives commsSystem (fun _ _ => True) (fun _ => True) (fun q => ∃ x, q = .pure x) p := by
  induction p generalizing h g' with
  | pure a => exact .here ⟨a, rfl⟩
  | lock l m k ih => exact .lock trivial (ih hp'.2 hclient)
  | unlock l m k ih => exact .unlock trivial (ih hp'.2.2 hclient)
  | act a k ih => exact .act trivial fun x _ => ih x (hp'.2 x trivial) (client_acted.trans hclient)
  | call f' k ih =>
    have hnot : g'.client = false := hp'.1.2
    rw [hclient] at hnot
    cases hnot

/-! ## Who can move -/

/-- Where nobody waits for another thread, the environment can let the thread move. -/
theorem Proceeds.ready (h : Proceeds w G G') {p : Program CallResult}
    (hthread : w.thread t = some (f, p)) (hp : Unhindered p.head) : w.Ready t := by
  have hlives := h.living.follows.invariant.1
  have hobeys := h.living.follows.toFollows.obeys hthread
  cases p with
  | pure | unlock | call => exact World.ready_of_head hthread (by simp [Prog.head]) (by simp [Prog.head])
  | lock l m k => exact absurd rfl (hp.lock l m)
  | act a k =>
    apply World.ready_act (e := ({ ok := false } : Choice)) hthread
    show (w.state.exec { ok := false } a).isSome = true
    cases a with
    | currentRuntime | newRuntime | retain => rfl
    | resetRuntime r =>
      have hrole : (G t).role = .starter r := hobeys.1.1
      have hmem : r ∈ w.state.runtimes := hlives.present_of_holds (t := t) (by rw [hrole]; rfl)
      simp [CommsState.exec, hmem]
    | destroy r =>
      have hrole : (G t).role = .owner r := hobeys.1.1
      have hmem : r ∈ w.state.runtimes := hlives.present_of_holds (t := t) (by rw [hrole]; rfl)
      simp [CommsState.exec, hmem]
    | release =>
      simp only [CommsState.exec]
      split
      · rfl
      · split <;> rfl
    | method r a =>
      have hmay : MayAct (G t) r a := hobeys.1
      have hbegin : ∀ worker, a ≠ .begin worker := by
        rintro worker rfl
        exact hp.begin r worker rfl
      have hmem : r ∈ w.state.runtimes := hlives.present_of_holds (holds_of_mayAct hmay hbegin)
      obtain ⟨c, hc⟩ := Option.isSome_iff_exists.mp (Finmap.lookup_isSome.mpr hmem)
      simp only [CommsState.exec, hc]
      cases a with
      | begin worker => exact absurd rfl (hbegin worker)
      | join worker => exact absurd rfl (hp.join r worker)
      | finish worker =>
        have hrunning : w.state.workerOf r worker = .running :=
          (hlives.present_of_worker hmay.1).2
        rw [CommsState.workerOf_of_lookup hc] at hrunning
        simp [CommsState.execMethod, hrunning]
      | publish link =>
        simp only [CommsState.execMethod]
        split <;> rfl
      | _ => rfl

end Lifetimes

open Lifetimes

variable {E : Execution commsSystem} {t : Tid} {f : Call} {n : Nat} {r : RuntimePtr}
  {worker : Worker}

theorem Scheduled.proceeds (h : Scheduled E) (n : Nat) : ∃ G G', Proceeds (E.world n) G G' := by
  apply Execution.invariant (I := fun w => ∃ G G', Proceeds w G G')
  · exact h.start ▸ ⟨_, _, proceeds_start⟩
  · rintro n o hop ⟨G, G', hG⟩
    refine ⟨_, _, hG.next (E.enabled n o hop) ?_ (h.leaves n o hop)⟩
    rintro t f rfl
    exact h.calls n t f hop

/-- A thread that was created does not stay so. -/
theorem Scheduled.begins (h : Scheduled E)
    (hcreated : ∀ m, n ≤ m → (E.world m).state.workerOf r worker = .created) : False := by
  obtain ⟨m, hm, t, hthread⟩ := h.starts n r worker (hcreated n (Nat.le_refl n))
  obtain ⟨k, hbody⟩ : ∃ k : Unit → Program CallResult,
      (loopOf r worker).body = .act (S := commsSignature) (.method r (.begin worker)) k := by
    cases worker <;> exact ⟨_, rfl⟩
  rw [hbody] at hthread
  have hlookup : ∀ m', n ≤ m' → ∃ c, (E.world m').state.runtimes.lookup r = some c ∧
      c.workers worker = .created := by
    intro m' hm'
    have hold := hcreated m' hm'
    rcases hc : (E.world m').state.runtimes.lookup r with _ | c
    · simp [CommsState.workerOf, hc] at hold
    · rw [CommsState.workerOf_of_lookup hc] at hold
      exact ⟨c, rfl, hold⟩
  obtain ⟨m', hm', hstands, e, hop⟩ := Execution.exists_move (h.fair t) hthread fun m' hm' hstands => by
    obtain ⟨c, hc, hold⟩ := hlookup m' (by omega)
    refine ⟨m', Nat.le_refl m', World.ready_act (e := ({} : Choice)) hstands ?_⟩
    show ((E.world m').state.exec {} (.method r (.begin worker))).isSome = true
    simp [CommsState.exec, hc, CommsState.execMethod, hold]
  obtain ⟨x, hexec, -⟩ := Execution.act_of_op hstands hop
  obtain ⟨c, hc, hold⟩ := hlookup m' (by omega)
  have hrun : (E.world m').state.exec e (.method r (.begin worker)) = some (x, _) := hexec
  simp only [CommsState.exec, hc, CommsState.execMethod, hold, if_true, Option.some.injEq,
    Prod.mk.injEq] at hrun
  have hnext := hcreated (m' + 1) (by omega)
  rw [← hrun.2, CommsState.workerOf_set, Function.update_self, CommsRuntime.setWorker_self] at hnext
  cases hnext

/-- A thread of a runtime whose flag stays cleared comes to its end. -/
theorem Scheduled.ends (h : Scheduled E) {G : Tid → Duty} {G' : Tid → Closing}
    (hG : Proceeds (E.world n) G G') (ht : (G t).role = .worker r worker)
    (hcleared : ∀ m, n ≤ m → (E.world m).state.runningOf r = false) :
    ∃ m, n ≤ m ∧ (E.world m).state.workerOf r worker = .ended := by
  obtain ⟨⟨f, p⟩, hthread⟩ : ∃ x, (E.world n).thread t = some x := by
    rcases hthread : (E.world n).thread t with _ | x
    · rw [hG.living.follows.rest t hthread] at ht
      cases ht
    · exact ⟨x, rfl⟩
  have hready : ∀ m, n ≤ m → ∀ p, (E.world m).thread t = some (f, p) → Unhindered p.head →
      ∃ k, m ≤ k ∧ (E.world k).Ready t := by
    intro m _ p hthread hp
    obtain ⟨G, G', hG⟩ := h.proceeds m
    exact ⟨m, Nat.le_refl m, hG.ready hthread hp⟩
  have hanswers : ∀ m, n ≤ m → ∀ (a : CommsAct) (k : a.Answer → Program CallResult) (e : Choice)
      (x : a.Answer) (s : CommsState), (E.world m).thread t = some (f, .act (S := commsSignature) a k) →
      (E.world m).state.exec e a = some (x, s) → Cleared r a x := by
    intro m hm a k e x s _ hexec
    cases a with
    | method r' a =>
      cases a with
      | isRunning =>
        rintro rfl
        simp only [CommsState.exec] at hexec
        split at hexec
        · rename_i c hc
          cases hexec
          rw [← CommsState.runningOf_of_lookup hc]
          exact hcleared m hm
        · cases hexec
      | _ => trivial
    | _ => trivial
  have hobeys := hG.living.follows.toFollows.obeys hthread
  obtain ⟨m, hm, q, hends, k, rfl⟩ := Execution.arrives (h.fair t) hthread
    (arrives_finish hobeys (fun _ _ _ hQ => hQ.2) ht) hanswers hready
  obtain ⟨m', hm', hstands, e, hop⟩ := Execution.exists_move (h.fair t) hends fun m' hm' hstands =>
    hready m' (by omega) _ hstands ⟨by simp [Prog.head], by simp [Prog.head], by simp [Prog.head]⟩
  obtain ⟨x, hexec, -⟩ := Execution.act_of_op hstands hop
  have hrun : (E.world m').state.exec e (.method r (.finish worker)) = some (x, _) := hexec
  apply Exists.intro (m' + 1)
  constructor
  · omega
  · simp only [CommsState.exec] at hrun
    split at hrun
    · simp only [CommsState.execMethod] at hrun
      split at hrun
      · simp only [Option.some.injEq, Prod.mk.injEq] at hrun
        rw [← hrun.2, CommsState.workerOf_set, Function.update_self, CommsRuntime.setWorker_self]
      · cases hrun
    · cases hrun

/-- A call does not wait for ever for a thread of the runtime. -/
theorem Scheduled.join_ready (h : Scheduled E) {k : Unit → Program CallResult}
    (hthread : (E.world n).thread t = some (f, .act (.method r (.join worker)) k)) :
    ∃ m, n ≤ m ∧ (E.world m).Ready t := by
  by_contra hnone
  have hwaits : ∀ m, n ≤ m → ¬ (E.world m).Ready t := fun m hm hready => hnone ⟨m, hm, hready⟩
  have hstate : ∀ m, n ≤ m → (E.world m).state.runningOf r = false ∧
      ((E.world m).state.workerOf r worker = .created ∨
        (E.world m).state.workerOf r worker = .running) := by
    intro m hm
    have hstands := Execution.thread_waits hthread hwaits hm
    obtain ⟨G, G', hG⟩ := h.proceeds m
    have hcloses : (G t).role.Closes r := (hG.living.follows.toFollows.obeys hstands).1
    obtain ⟨hstopped, hjoins⟩ := (hG.closing.obeys hstands).1
    constructor
    · exact hG.stops.stopped t r hcloses hstopped
    · obtain ⟨hnone, hjoined⟩ := hG.stops.joins t r worker hcloses hjoins
      cases hworker : (E.world m).state.workerOf r worker with
      | none => exact absurd hworker hnone
      | joined => exact absurd hworker hjoined
      | created => exact Or.inl rfl
      | running => exact Or.inr rfl
      | ended =>
        refine absurd (World.ready_act (e := ({} : Choice)) hstands ?_) (hwaits m hm)
        show ((E.world m).state.exec {} (.method r (.join worker))).isSome = true
        rcases hc : (E.world m).state.runtimes.lookup r with _ | c
        · simp [CommsState.workerOf, hc] at hworker
        · rw [CommsState.workerOf_of_lookup hc] at hworker
          simp [CommsState.exec, hc, CommsState.execMethod, hworker]
  by_cases hruns : ∃ m, n ≤ m ∧ (E.world m).state.workerOf r worker = .running
  · obtain ⟨m, hm, hrunning⟩ := hruns
    obtain ⟨G, G', hG⟩ := h.proceeds m
    obtain ⟨u, hu⟩ := hG.stops.served r worker hrunning
    obtain ⟨m', hm', hended⟩ := h.ends hG hu fun m' hm' => (hstate m' (by omega)).1
    rcases (hstate m' (by omega)).2 with hcreated | hrunning
    · rw [hcreated] at hended
      cases hended
    · rw [hrunning] at hended
      cases hended
  · refine h.begins (n := n) fun m hm => (?_ : (E.world m).state.workerOf r worker = .created)
    rcases (hstate m hm).2 with hcreated | hrunning
    · exact hcreated
    · exact absurd ⟨m, hm, hrunning⟩ hruns

/-- Only the mutex can keep a call of the API waiting for ever. -/
theorem Scheduled.ready_of_client (h : Scheduled E) (hf : f.Client) {p : Program CallResult}
    (hthread : (E.world n).thread t = some (f, p)) (hlock : ∀ l m, p.head ≠ .lock l m) :
    ∃ m, n ≤ m ∧ (E.world m).Ready t := by
  obtain ⟨G, G', hG⟩ := h.proceeds n
  have hclient : (G' t).client = true := (hG.kinds t f p hthread).trans (decide_eq_true hf)
  by_cases hjoin : ∃ r worker, p.head = .act (.method r (.join worker))
  · obtain ⟨r, worker, hhead⟩ := hjoin
    cases p with
    | act a k =>
      cases hhead
      exact h.join_ready hthread
    | _ => cases hhead
  · refine ⟨n, Nat.le_refl n, hG.ready hthread ⟨hlock, ?_, ?_⟩⟩
    · intro r worker hhead
      cases p with
      | act a k =>
        cases hhead
        have hmay : (G' t).client = false := (hG.closing.obeys hthread).1
        rw [hclient] at hmay
        cases hmay
      | _ => cases hhead
    · intro r worker hhead
      exact hjoin ⟨r, worker, hhead⟩

/-- The mutex does not stay locked. -/
theorem Scheduled.lock_ready (h : Scheduled E) {l : Mutex} {m : Mode} {k : Program CallResult}
    (hthread : (E.world n).thread t = some (f, .lock l m k)) :
    ∃ m, n ≤ m ∧ (E.world m).Ready t := by
  by_contra hnone
  have hwaits : ∀ m, n ≤ m → ¬ (E.world m).Ready t := fun m hm hready => hnone ⟨m, hm, hready⟩
  obtain ⟨G, G', hG⟩ := h.proceeds n
  -- Some thread has the mutex.
  obtain ⟨u, m', hu⟩ : ∃ u m', (l, m') ∈ (E.world n).heldBy u := by
    by_contra hfree
    apply hwaits n (Nat.le_refl n)
    apply World.ready_lock hthread
    rintro ⟨u, l', m'⟩ hx rfl
    exact absurd ⟨u, m', World.mem_heldBy.mpr hx⟩ hfree
  rcases hG.stops.held u with hempty | ⟨hheld, hclient⟩
  · rw [hempty] at hu
    cases hu
  obtain ⟨⟨f', p⟩, hholder⟩ : ∃ x, (E.world n).thread u = some x := by
    rcases hholder : (E.world n).thread u with _ | x
    · have hrest := hG.living.follows.threads u
      rw [Discipline.ThreadObeys, hholder] at hrest
      rw [show (E.world n).heldBy u = [] from hrest] at hu
      cases hu
    · exact ⟨x, rfl⟩
  have hf' : f'.Client := by
    have hkind := hG.kinds u f' p hholder
    rw [hclient] at hkind
    exact of_decide_eq_true hkind.symm
  have hready : ∀ m, n ≤ m → ∀ p, (E.world m).thread u = some (f', p) →
      (∀ l m, p.head ≠ .lock l m) → ∃ k, m ≤ k ∧ (E.world k).Ready u :=
    fun m _ p hthread hlock => h.ready_of_client hf' hthread hlock
  obtain ⟨i, hi, q, hunlocks, k', rfl⟩ := Execution.arrives (h.fair u) hholder
    (arrives_unlock (hG.living.follows.toFollows.obeys hholder) (hG.closing.obeys hholder)
      (fun _ _ _ hQ => hQ.1) hclient hheld) (fun _ _ _ _ _ _ _ _ _ => trivial) hready
  obtain ⟨j, hj, hstands, e, hop⟩ := Execution.exists_move (h.fair u) hunlocks
    fun m hm hstands => hready m (by omega) _ hstands (by simp [Prog.head])
  -- Once it is released, nobody has it.
  obtain ⟨F, F', hF⟩ := h.proceeds j
  have hlocked : (Mutex.gRuntime, Mode.exclusive) ∈ (E.world j).heldBy u :=
    (hF.living.follows.toFollows.obeys hstands).1
  have hheldj : (E.world j).heldBy u = [(.gRuntime, .exclusive)] := by
    rcases hF.stops.held u with hempty | ⟨hone, -⟩
    · rw [hempty] at hlocked
      cases hlocked
    · exact hone
  have hnext : (E.world (j + 1)).heldBy = Function.update (E.world j).heldBy u
      (((E.world j).heldBy u).erase (.gRuntime, .exclusive)) := by
    apply World.heldBy_erase
    rw [E.next j _ hop]
    simp [World.next, hstands]
  apply hwaits (j + 1) (by omega)
  apply World.ready_lock (Execution.thread_waits hthread hwaits (by omega))
  rintro ⟨v, l', m'⟩ hx -
  have hv : (l', m') ∈ (E.world (j + 1)).heldBy v := World.mem_heldBy.mpr hx
  rw [hnext] at hv
  by_cases hvu : v = u
  · subst hvu
    rw [Function.update_self, hheldj, List.erase_cons_head] at hv
    cases hv
  · rw [Function.update_of_ne hvu] at hv
    cases l'
    exact absurd (hF.living.follows.exclusion u _ (World.mem_heldBy.mp hlocked) _
      (World.mem_heldBy.mp hv) rfl) hvu

/-- A call of the API returns. -/
theorem calls_return (h : Scheduled E) (hf : f.Client) {p : Program CallResult}
    (hthread : (E.world n).thread t = some (f, p)) :
    ∃ m, n ≤ m ∧ (E.world m).thread t = none := by
  obtain ⟨G, G', hG⟩ := h.proceeds n
  have hclient : (G' t).client = true := (hG.kinds t f p hthread).trans (decide_eq_true hf)
  apply Execution.returns (h.fair t) hthread (arrives_end (hG.closing.obeys hthread) hclient)
  · exact fun _ _ _ _ _ _ _ _ _ => trivial
  · intro m _ p hp
    cases p with
    | lock l m k => exact h.lock_ready hp
    | _ => exact h.ready_of_client hf hp (by simp [Prog.head])

/-- Thread 0 makes the runtime and shuts it down, which takes the threads 1 to 3 to end. -/
def makeThenShut : List (Op commsSystem) := makeRuntime ++ shutRuntime ++ [.run 0 {}]

theorem legal_makeThenShut : (machine commsSystem).Legal (World.quiet .initial) makeThenShut := by
  decide +kernel

/-- When the function of a thread of the runtime starts, and on which thread. -/
def startOf : Worker → Nat × Tid
  | .udpServer => (17, 1)
  | .bluetoothServer => (22, 2)
  | .discovery => (27, 3)

theorem starts_makeThenShut {worker : Worker} (hn : n ≤ 42)
    (hcreated : ((machine commsSystem).run (World.quiet .initial)
      (makeThenShut.take n)).state.workerOf r worker = .created) :
    r = 0 ∧ n ≤ (startOf worker).1 := by
  have hkeys : ∀ n ≤ 42, ((machine commsSystem).run (World.quiet .initial)
      (makeThenShut.take n)).state.runtimes.keys ⊆ {0} := by decide +kernel
  have hlast : ∀ n ≤ 42, ((machine commsSystem).run (World.quiet .initial)
      (makeThenShut.take n)).state.workerOf 0 worker = .created → n ≤ (startOf worker).1 := by
    cases worker <;> decide +kernel
  have hmem : r ∈ ((machine commsSystem).run (World.quiet .initial)
      (makeThenShut.take n)).state.runtimes := by
    rw [← Finmap.lookup_isSome]
    unfold CommsState.workerOf at hcreated
    revert hcreated
    cases Finmap.lookup r _ <;> simp
  obtain rfl := Finset.mem_singleton.mp (hkeys n hn (Finmap.mem_keys.mpr hmem))
  exact ⟨rfl, hlast n hn hcreated⟩

theorem scheduled_makeThenShut :
    Scheduled (Execution.ofRun (World.quiet .initial) makeThenShut legal_makeThenShut) where
  start := rfl
  calls n t f hop := by
    have hmem : Op.start t f ∈ makeThenShut := List.mem_of_getElem? hop
    simp [makeThenShut, makeRuntime, shutRuntime] at hmem
    rcases hmem with ⟨-, rfl⟩ | ⟨-, rfl⟩ | ⟨-, rfl⟩ | ⟨-, rfl⟩ | ⟨-, rfl⟩ <;> trivial
  fair t := by
    apply Execution.ofRun_fair
    by_cases ht : t < 4
    · revert t
      decide +kernel
    · exact run_idle (n := 4) legal_makeThenShut (by decide +kernel) t (Nat.not_lt.mp ht)
  starts n r worker hcreated := by
    have htake : makeThenShut.take n = makeThenShut.take (min n 42) := by
      rw [List.take_eq_take_iff]
      simp [makeThenShut, makeRuntime, shutRuntime]
    have hmin : ((machine commsSystem).run (World.quiet .initial)
        (makeThenShut.take (min n 42))).state.workerOf r worker = .created := htake ▸ hcreated
    obtain ⟨rfl, hn⟩ := starts_makeThenShut (Nat.min_le_right n 42) hmin
    refine ⟨(startOf worker).1, ?_, (startOf worker).2, ?_⟩
    · cases worker <;> simp only [startOf] at hn ⊢ <;> omega
    · cases worker <;> rfl
  leaves n o hop :=
    Execution.ofRun_each (leavesFirst_of_lt (n := 4) legal_makeThenShut (by decide +kernel)
      (by decide +kernel)) hop

theorem calls_return_shutdown : ∃ m, 12 ≤ m ∧
    ((Execution.ofRun (World.quiet CommsState.initial) makeThenShut
      legal_makeThenShut).world m).thread 0 = none :=
  calls_return (n := 12) scheduled_makeThenShut (f := .commsRuntimeShutdown) trivial rfl

end SensorLib.Comms
