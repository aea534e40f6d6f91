import SensorLib.Comms.LifetimeRuns
import SensorLib.Threads.Beside

/-! # How a runtime is stopped

A thread waits for a thread of its runtime only once the flag `running_` is
cleared, and only for one that was started. No other thread sets the flag again.
-/

namespace SensorLib.Comms

open Threads CommsRuntime

/-- The functions of the API. -/
def Call.Client : Call → Prop
  | .commsRuntimeInitialize _ | .commsRuntimeShutdown | .commsRuntimeRegisterCallback ..
  | .commsRuntimeUnregisterCallback .. | .commsRuntimeDiscoverLinks .. => True
  | _ => False

instance : DecidablePred Call.Client := fun f => by
  cases f <;> first | exact .isTrue trivial | exact .isFalse id

/-- The loops of the threads. -/
def Call.Rounds : Call → Prop
  | .serverRounds .. | .discoveryRounds _ => True
  | _ => False

namespace CommsState

variable {s s' : CommsState} {r : RuntimePtr} {c c' : CommsRuntime}

/-- The flag of a runtime. -/
def runningOf (s : CommsState) (r : RuntimePtr) : Bool :=
  ((s.runtimes.lookup r).map fun c => c.running).getD false

theorem runningOf_of_lookup (hc : s.runtimes.lookup r = some c) : s.runningOf r = c.running := by
  simp [runningOf, hc]

theorem runningOf_set (r' : RuntimePtr) :
    (s.set r c').runningOf r' = if r' = r then c'.running else s.runningOf r' := by
  by_cases hr : r' = r
  · subst hr
    simp [runningOf, set]
  · simp [runningOf, set, hr]

theorem runningOf_set_same (hc : s.runtimes.lookup r = some c) (hrunning : c'.running = c.running) :
    (s.set r c').runningOf = s.runningOf := by
  funext r'
  rw [runningOf_set]
  split
  · rename_i hr
    rw [hr, hrunning, runningOf_of_lookup hc]
  · rfl

/-- Only `start` and `stop` write the flag. -/
theorem runningOf_execMethod {e : Choice} {a : RuntimeAct} {x : a.Answer}
    (hc : s.runtimes.lookup r = some c) (h : s.execMethod r c e a = some (x, s'))
    (hclaim : a ≠ .claimRunning) (hstop : a ≠ .stopRunning) : s'.runningOf = s.runningOf := by
  cases a with
  | claimRunning => exact absurd rfl hclaim
  | stopRunning => exact absurd rfl hstop
  | begin | finish | join =>
    simp only [execMethod] at h
    split at h <;> cases h
    exact runningOf_set_same hc rfl
  | spawn worker =>
    simp only [execMethod] at h
    split at h <;> cases h
    · exact runningOf_set_same hc rfl
    · rfl
  | see peer =>
    cases h
    cases peer <;> exact runningOf_set_same hc rfl
  | publish link =>
    simp only [execMethod] at h
    split at h <;> cases h
    · rfl
    · exact runningOf_set_same hc rfl
  | drain =>
    cases h
    exact runningOf_set_same hc rfl
  | registerCallback instrumentType callbackType callback =>
    cases h
    cases instrumentType <;> cases callbackType <;> exact runningOf_set_same hc rfl
  | socket =>
    simp only [execMethod] at h
    split at h <;> cases h
    rfl
  | bind worker =>
    simp only [execMethod] at h
    split at h
    · split at h <;> cases h
      rfl
    · cases h
      rfl
  | _ =>
    cases h
    rfl

end CommsState

namespace Lifetimes

/-- What a thread has done to stop its runtime. -/
structure Closing where
  client : Bool
  stopped : Bool := false
  /-- The thread that was found joinable. -/
  joins : Option Worker := none

namespace Closing

def MayAct (g : Closing) : RuntimeAct → Prop
  | .begin _ => g.client = false
  | .claimRunning => g.stopped = false
  | .joinable _ => g.stopped = true
  | .join worker => g.stopped = true ∧ g.joins = some worker
  | _ => True

def acted (g : Closing) : (a : RuntimeAct) → a.Answer → Closing
  | .stopRunning, _ => { g with stopped := true, joins := none }
  | .joinable worker, true => { g with joins := some worker }
  | _, _ => { g with joins := none }

end Closing

end Lifetimes

open Lifetimes

@[reducible] def closingDiscipline : Discipline commsSystem where
  Ghost := Closing
  initial f _ := { client := decide f.Client }
  mayLock _ _ g _ _ := g.client = true
  locked _ _ g _ _ := g
  mayUnlock _ _ _ _ := True
  unlocked _ g _ _ := g
  mayAct _ _ g
    | .method _ a => g.MayAct a
    | _ => True
  answers _ _ _ _ := True
  acted _ g
    | .newRuntime, _ | .release, _ => { client := g.client }
    | .method _ a, x => g.acted a x
    | _, _ => { g with joins := none }
  mayCall _ p _ g := p.Rounds ∧ g.client = false
  returns _ h g _ h' g' := h' = h ∧ g'.client = g.client
  finished _ _ _ := True

namespace Lifetimes

variable {s s' : CommsState} {H : Tid → Held commsSignature} {G : Tid → Duty} {G' : Tid → Closing}
  {t : Tid} {r : RuntimePtr} {c : CommsRuntime} {e : Choice}

/-- A thread of the runtime that can be waited for. -/
def Joinable (s : CommsState) (r : RuntimePtr) (worker : Worker) : Prop :=
  s.workerOf r worker ≠ .none ∧ s.workerOf r worker ≠ .joined

/-- What is true of the runtimes that are being stopped, and of the threads that run. -/
structure Stops (s : CommsState) (H : Tid → Held commsSignature) (G : Tid → Duty)
    (G' : Tid → Closing) : Prop where
  stopped : ∀ t r, (G t).role.Closes r → (G' t).stopped = true → s.runningOf r = false
  joins : ∀ t r worker, (G t).role.Closes r → (G' t).joins = some worker → Joinable s r worker
  served : ∀ r worker, s.workerOf r worker = .running → ∃ t, (G t).role = .worker r worker
  held : ∀ t, H t = [] ∨ H t = [(.gRuntime, .exclusive)] ∧ (G' t).client = true

namespace Stops

theorem step (h : Stops s H G G') {g : Duty} {g' : Closing}
    (hrunning : ∀ u, u ≠ t → ∀ r, (G u).role.Closes r → s.runningOf r = false →
      s'.runningOf r = false)
    (hworkers : ∀ u, u ≠ t → ∀ r worker, (G u).role.Closes r → Joinable s r worker →
      Joinable s' r worker)
    (hstopped : ∀ r, g.role.Closes r → g'.stopped = true → s'.runningOf r = false)
    (hjoins : ∀ r worker, g.role.Closes r → g'.joins = some worker → Joinable s' r worker)
    (hserved : ∀ r worker, s'.workerOf r worker = .running →
      g.role = .worker r worker ∨ ∃ u, u ≠ t ∧ (G u).role = .worker r worker)
    (hclient : H t ≠ [] → g'.client = (G' t).client) :
    Stops s' H (Function.update G t g) (Function.update G' t g') := by
  constructor
  · intro u r hu hstop
    by_cases hut : u = t
    · subst hut
      rw [Function.update_self] at hu hstop
      exact hstopped r hu hstop
    · rw [Function.update_of_ne hut] at hu hstop
      exact hrunning u hut r hu (h.stopped u r hu hstop)
  · intro u r worker hu hjoin
    by_cases hut : u = t
    · subst hut
      rw [Function.update_self] at hu hjoin
      exact hjoins r worker hu hjoin
    · rw [Function.update_of_ne hut] at hu hjoin
      exact hworkers u hut r worker hu (h.joins u r worker hu hjoin)
  · intro r worker hrun
    rcases hserved r worker hrun with hg | ⟨u, hut, hu⟩
    · exact ⟨t, by rw [Function.update_self, hg]⟩
    · exact ⟨u, by rw [Function.update_of_ne hut, hu]⟩
  · intro u
    by_cases hut : u = t
    · subst hut
      rw [Function.update_self]
      rcases h.held u with hnone | ⟨hone, hclosing⟩
      · exact Or.inl hnone
      · exact Or.inr ⟨hone, (hclient (by simp [hone])).trans hclosing⟩
    · rw [Function.update_of_ne hut]
      exact h.held u

/-- Neither the flags nor the threads of the runtimes change. -/
theorem keep (h : Stops s H G G') {g : Duty} {g' : Closing} (hrunning : s'.runningOf = s.runningOf)
    (hworkers : s'.workerOf = s.workerOf) (hcloses : ∀ r, g.role.Closes r → (G t).role.Closes r)
    (hworker : ∀ r worker, (G t).role = .worker r worker → g.role = .worker r worker)
    (hstopped : g'.stopped = true → (G' t).stopped = true) (hjoins : g'.joins = none)
    (hclient : g'.client = (G' t).client) :
    Stops s' H (Function.update G t g) (Function.update G' t g') := by
  apply h.step
  · intro u _ r _ hr
    rwa [hrunning]
  · intro u _ r worker _ hr
    rwa [Joinable, hworkers]
  · intro r hr hstop
    rw [hrunning]
    exact h.stopped t r (hcloses r hr) (hstopped hstop)
  · intro r worker _ hjoin
    rw [hjoins] at hjoin
    cases hjoin
  · intro r worker hrun
    rw [hworkers] at hrun
    obtain ⟨u, hu⟩ := h.served r worker hrun
    by_cases hut : u = t
    · subst hut
      exact Or.inl (hworker r worker hu)
    · exact Or.inr ⟨u, hut, hu⟩
  · exact fun _ => hclient

/-- A thread of a runtime starts, ends or is joined. -/
theorem setWorker (h : Stops s H G G') {worker : Worker} {state : WorkerState} {g : Duty}
    {g' : Closing} (hc : s.runtimes.lookup r = some c)
    (hothers : ∀ u, u ≠ t → (G u).role.Closes r → state ≠ .none ∧ state ≠ .joined)
    (hcloses : ∀ r, g.role.Closes r → (G t).role.Closes r)
    (hworker : ∀ r' worker', (G t).role = .worker r' worker' →
      g.role = .worker r' worker' ∨ r' = r ∧ worker' = worker ∧ state ≠ .running)
    (hrun : state = .running → g.role = .worker r worker)
    (hstopped : g'.stopped = true → (G' t).stopped = true) (hjoins : g'.joins = none)
    (hclient : g'.client = (G' t).client) :
    Stops (s.set r (c.setWorker worker state)) H (Function.update G t g)
      (Function.update G' t g') := by
  have hrunning : (s.set r (c.setWorker worker state)).runningOf = s.runningOf :=
    CommsState.runningOf_set_same hc rfl
  have hworkerOf : ∀ r' worker', (s.set r (c.setWorker worker state)).workerOf r' worker' =
      if r' = r ∧ worker' = worker then state else s.workerOf r' worker' := by
    intro r' worker'
    have hview := congrArg View.worker (CommsState.view_setWorker hc worker state)
    rw [show (s.set r (c.setWorker worker state)).workerOf = _ from hview]
    exact View.setWorker_worker worker state r' worker'
  apply h.step
  · intro u _ r' _ hr
    rwa [hrunning]
  · intro u hu r' worker' hcl hr
    rw [Joinable, hworkerOf]
    split
    · rename_i heq
      exact hothers u hu (heq.1 ▸ hcl)
    · exact hr
  · intro r' hr hstop
    rw [hrunning]
    exact h.stopped t r' (hcloses r' hr) (hstopped hstop)
  · intro r' worker' _ hjoin
    rw [hjoins] at hjoin
    cases hjoin
  · intro r' worker' hrun'
    rw [hworkerOf] at hrun'
    split at hrun'
    · rename_i heq
      obtain ⟨rfl, rfl⟩ := heq
      exact Or.inl (hrun hrun')
    · rename_i hne
      obtain ⟨u, hu⟩ := h.served r' worker' hrun'
      by_cases hut : u = t
      · subst hut
        rcases hworker r' worker' hu with hg | ⟨hr', hw', -⟩
        · exact Or.inl hg
        · exact absurd ⟨hr', hw'⟩ hne
      · exact Or.inr ⟨u, hut, hu⟩
  · exact fun _ => hclient

end Stops

/-- One thread at most closes a runtime. -/
theorem Lives.one_closer (hlives : Lives s.view H G) (hexcludes : Discipline.Excludes H)
    (ht : (G t).role.Closes r) {u : Tid} (hu : (G u).role.Closes r) : u = t := by
  by_contra hne
  cases hrole : (G u).role with
  | starter r' =>
    rw [hrole] at hu
    obtain rfl : r' = r := hu
    exact hne (hlives.eq_of_closes hexcludes ht hrole)
  | owner r' =>
    rw [hrole] at hu
    obtain rfl : r' = r := hu
    exact hlives.owner_ne ht hne hrole
  | _ =>
    rw [hrole] at hu
    exact hu.elim

theorem stops_method (hexcludes : Discipline.Excludes H) (hlives : Lives s.view H G)
    (h : Stops s H G G') {a : RuntimeAct} {x : a.Answer} (hmay : MayAct (G t) r a)
    (hmay' : (G' t).MayAct a) (hc : s.runtimes.lookup r = some c)
    (hexec : s.execMethod r c e a = some (x, s')) :
    Stops s' H (Function.update G t (acted (G t) r a x))
      (Function.update G' t ((G' t).acted a x)) := by
  have hworkerOf : ∀ worker, s.workerOf r worker = c.workers worker :=
    CommsState.workerOf_of_lookup hc
  cases a with
  | begin worker =>
    simp only [CommsState.execMethod] at hexec
    split at hexec <;> cases hexec
    have hrole : (G t).role = .idle := hmay
    apply h.setWorker hc
    · exact fun _ _ _ => by simp
    · exact fun r' hr' => hr'.elim
    · intro r' worker' hr'
      rw [hrole] at hr'
      cases hr'
    · exact fun _ => rfl
    · exact id
    · rfl
    · rfl
  | finish worker =>
    simp only [CommsState.execMethod] at hexec
    split at hexec <;> cases hexec
    have hrole : (G t).role = .worker r worker := hmay.1
    apply h.setWorker hc
    · exact fun _ _ _ => by simp
    · exact fun r' hr' => hr'.elim
    · intro r' worker' hr'
      rw [hrole] at hr'
      cases hr'
      exact Or.inr ⟨rfl, rfl, by simp⟩
    · intro hstate
      cases hstate
    · exact id
    · rfl
    · rfl
  | join worker =>
    simp only [CommsState.execMethod] at hexec
    split at hexec <;> cases hexec
    apply h.setWorker hc
    · exact fun u hu hcloses => absurd (hlives.one_closer hexcludes hmay hcloses) hu
    · exact fun _ hr' => hr'
    · exact fun _ _ hr' => Or.inl hr'
    · intro hstate
      cases hstate
    · exact id
    · rfl
    · rfl
  | spawn worker =>
    simp only [CommsState.execMethod] at hexec
    split at hexec <;> cases hexec
    · apply h.setWorker hc
      · exact fun _ _ _ => by simp
      · exact fun _ hr' => hr'
      · exact fun _ _ hr' => Or.inl hr'
      · intro hstate
        cases hstate
      · exact id
      · rfl
      · rfl
    · exact h.keep rfl rfl (fun _ hr' => hr') (fun _ _ hr' => hr') id rfl rfl
  | claimRunning =>
    cases hexec
    have hrole : (G t).role = .starter r := hmay
    have hworkers : (s.set r { c with running := true }).workerOf = s.workerOf :=
      CommsState.workerOf_set_same hc rfl
    apply h.step
    · intro u hu r' hcloses hr'
      rw [CommsState.runningOf_set]
      split
      · rename_i heq
        have ht : (G t).role.Closes r' := by
          rw [hrole]
          exact heq.symm
        exact absurd (hlives.one_closer hexcludes ht hcloses) hu
      · exact hr'
    · intro u _ r' worker _ hr'
      rwa [Joinable, hworkers]
    · intro r' _ hstop
      have hfree : (G' t).stopped = false := hmay'
      have hset : (G' t).stopped = true := hstop
      rw [hfree] at hset
      cases hset
    · intro r' worker _ hjoin
      cases hjoin
    · intro r' worker hrun
      rw [hworkers] at hrun
      obtain ⟨u, hu⟩ := h.served r' worker hrun
      refine Or.inr ⟨u, ?_, hu⟩
      rintro rfl
      rw [hrole] at hu
      cases hu
    · exact fun _ => rfl
  | stopRunning =>
    cases hexec
    have hworkers : (s.set r { c with running := false }).workerOf = s.workerOf :=
      CommsState.workerOf_set_same hc rfl
    have hrunning : ∀ r', s.runningOf r' = false →
        (s.set r { c with running := false }).runningOf r' = false := by
      intro r' hr'
      rw [CommsState.runningOf_set]
      split
      · rfl
      · exact hr'
    apply h.step
    · exact fun u _ r' _ hr' => hrunning r' hr'
    · intro u _ r' worker _ hr'
      rwa [Joinable, hworkers]
    · intro r' hr' _
      obtain rfl : r' = r := closes_unique hr' hmay
      rw [CommsState.runningOf_set, if_pos rfl]
    · intro r' worker _ hjoin
      cases hjoin
    · intro r' worker hrun
      rw [hworkers] at hrun
      obtain ⟨u, hu⟩ := h.served r' worker hrun
      refine Or.inr ⟨u, ?_, hu⟩
      rintro rfl
      have hcloses : (G u).role.Closes r := hmay
      rw [hu] at hcloses
      exact hcloses
    · exact fun _ => rfl
  | joinable worker =>
    cases hexec
    by_cases hjoinable : c.workers worker ≠ .none ∧ c.workers worker ≠ .joined
    · rw [decide_eq_true hjoinable]
      apply h.step
      · exact fun _ _ _ _ hr' => hr'
      · exact fun _ _ _ _ _ hr' => hr'
      · exact fun r' hr' hstop => h.stopped t r' hr' hstop
      · intro r' worker' hr' hjoin
        obtain rfl : r' = r := closes_unique hr' hmay
        cases hjoin
        rwa [Joinable, hworkerOf]
      · intro r' worker' hrun
        obtain ⟨u, hu⟩ := h.served r' worker' hrun
        by_cases hut : u = t
        · subst hut
          exact Or.inl hu
        · exact Or.inr ⟨u, hut, hu⟩
      · exact fun _ => rfl
    · rw [decide_eq_false hjoinable]
      exact h.keep rfl rfl (fun _ hr' => hr') (fun _ _ hr' => hr') id rfl rfl
  | drain =>
    cases hexec
    exact h.keep (CommsState.runningOf_set_same hc rfl) (CommsState.workerOf_set_same hc rfl)
      (fun _ hr' => hr') (fun _ _ hr' => hr') id rfl rfl
  | registerCallback | readLinks =>
    have hrunning := CommsState.runningOf_execMethod hc hexec (by simp) (by simp)
    have hview := CommsState.view_execMethod hc hexec (by simp) (by simp) (by simp) (by simp)
      (by simp)
    have hrole : (G t).role = .user r := hmay
    refine h.keep hrunning (congrArg View.worker hview) (fun _ hr' => hr'.elim) ?_ id rfl rfl
    intro r' worker hr'
    rw [hrole] at hr'
    cases hr'
  | bind worker =>
    have hrunning := CommsState.runningOf_execMethod hc hexec (by simp) (by simp)
    have hview := CommsState.view_execMethod hc hexec (by simp) (by simp) (by simp) (by simp)
      (by simp)
    refine h.keep hrunning (congrArg View.worker hview) ?_ ?_ id rfl rfl
    · cases x <;> exact fun _ hr' => hr'
    · cases x <;> exact fun _ _ hr' => hr'
  | _ =>
    have hrunning := CommsState.runningOf_execMethod hc hexec (by simp) (by simp)
    have hview := CommsState.view_execMethod hc hexec (by simp) (by simp) (by simp) (by simp)
      (by simp)
    exact h.keep hrunning (congrArg View.worker hview) (fun _ hr' => hr') (fun _ _ hr' => hr') id
      rfl rfl

/-- A thread has done with a runtime, which may be gone. -/
theorem Stops.leave (h : Stops s H G G') {g : Duty} {g' : Closing}
    (hrunning : ∀ r, s.runningOf r = false → s'.runningOf r = false)
    (hworkers : ∀ u, u ≠ t → ∀ r worker, (G u).role.Closes r → Joinable s r worker →
      Joinable s' r worker)
    (hserved : ∀ r worker, s'.workerOf r worker = .running → s.workerOf r worker = .running)
    (hg : ∀ r, ¬ g.role.Closes r) (hworker : ∀ r worker, (G t).role ≠ .worker r worker)
    (hclient : H t ≠ [] → g'.client = (G' t).client) :
    Stops s' H (Function.update G t g) (Function.update G' t g') := by
  apply h.step
  · exact fun u _ r _ hr => hrunning r hr
  · exact hworkers
  · exact fun r hr _ => absurd hr (hg r)
  · exact fun r worker hr _ => absurd hr (hg r)
  · intro r worker hrun
    obtain ⟨u, hu⟩ := h.served r worker (hserved r worker hrun)
    refine Or.inr ⟨u, ?_, hu⟩
    rintro rfl
    exact hworker r worker hu
  · exact hclient

theorem stops_erase (hexcludes : Discipline.Excludes H) (hlives : Lives s.view H G)
    (h : Stops s H G G') (hcloses : (G t).role.Closes r)
    (hruntimes : s'.runtimes = s.runtimes.erase r) {g : Duty} (hg : g.role = .idle) {g' : Closing}
    (hclient : g'.client = (G' t).client) :
    Stops s' H (Function.update G t g) (Function.update G' t g') := by
  have hlookup : ∀ r', r' ≠ r → s'.runtimes.lookup r' = s.runtimes.lookup r' := by
    intro r' hr'
    rw [hruntimes, Finmap.lookup_erase_ne hr']
  have hgone : s'.runtimes.lookup r = none := by rw [hruntimes, Finmap.lookup_erase]
  apply h.leave
  · intro r' hr'
    by_cases hne : r' = r
    · subst hne
      simp [CommsState.runningOf, hgone]
    · rwa [CommsState.runningOf, hlookup r' hne]
  · intro u hu r' worker hu' hjoinable
    have hne : r' ≠ r := by
      rintro rfl
      exact hu (hlives.one_closer hexcludes hcloses hu')
    rwa [Joinable, CommsState.workerOf, hlookup r' hne]
  · intro r' worker hrun
    by_cases hne : r' = r
    · subst hne
      simp [CommsState.workerOf, hgone] at hrun
    · rwa [CommsState.workerOf, hlookup r' hne] at hrun
  · intro r' hr'
    rw [hg] at hr'
    exact hr'
  · intro r' worker hr'
    rw [hr'] at hcloses
    exact hcloses
  · exact fun _ => hclient

theorem stops_newRuntime (hlives : Lives s.view H G) (h : Stops s H G G')
    (ht : (G t).role = .vacant) (hruntimes : s'.runtimes = s.runtimes.insert s.created {})
    {g : Duty} {g' : Closing} (hg' : g' = { client := (G' t).client }) :
    Stops s' H (Function.update G t g) (Function.update G' t g') := by
  have hlookup : ∀ r', r' ≠ s.created → s'.runtimes.lookup r' = s.runtimes.lookup r' := by
    intro r' hr'
    rw [hruntimes, Finmap.lookup_insert_of_ne _ hr']
  have hnew : s'.runtimes.lookup s.created = some {} := by rw [hruntimes, Finmap.lookup_insert]
  apply h.step
  · intro u _ r' _ hr'
    by_cases hne : r' = s.created
    · subst hne
      simp [CommsState.runningOf, hnew]
    · rwa [CommsState.runningOf, hlookup r' hne]
  · intro u _ r' worker hu' hjoinable
    have hne : r' ≠ s.created := by
      rintro rfl
      have hholds : (G u).role.Holds s.created := by
        cases hrole : (G u).role <;> rw [hrole] at hu' <;> first | exact hu' | exact hu'.elim
      exact Nat.lt_irrefl _ (hlives.known _ (hlives.present_of_holds hholds))
    rwa [Joinable, CommsState.workerOf, hlookup r' hne]
  · intro r' _ hstop
    rw [hg'] at hstop
    cases hstop
  · intro r' worker _ hjoin
    rw [hg'] at hjoin
    cases hjoin
  · intro r' worker hrun
    have hne : r' ≠ s.created := by
      rintro rfl
      simp [CommsState.workerOf, hnew] at hrun
    rw [CommsState.workerOf, hlookup r' hne] at hrun
    obtain ⟨u, hu⟩ := h.served r' worker hrun
    refine Or.inr ⟨u, ?_, hu⟩
    rintro rfl
    rw [ht] at hu
    cases hu
  · intro _
    rw [hg']

theorem closes_of_found {g : Duty} {x : Option RuntimePtr} {r : RuntimePtr} :
    ¬ (found g x).Closes r := by
  intro hcloses
  rcases Lives.found_cases g x with heq | heq | ⟨r', heq⟩ <;> rw [heq] at hcloses <;> exact hcloses

end Lifetimes

end SensorLib.Comms
