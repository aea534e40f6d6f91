import SensorLib.Comms.LifetimePrograms

/-! # What the threads know of the runtimes that there are -/

namespace SensorLib.Comms

open Threads

/-- What the lifetime of runtimes depends on. -/
@[ext]
structure View where
  present : Set RuntimePtr
  current : Option RuntimePtr
  created : Nat
  worker : RuntimePtr → Worker → WorkerState
  drained : Set RuntimePtr

def CommsState.view (s : CommsState) : View where
  present := {r | r ∈ s.runtimes}
  current := s.gRuntime
  created := s.created
  worker := s.workerOf
  drained := {r | s.drainedOf r ≠ none}

/-! ## What the acts do to it -/

namespace View

variable (v : View) (r : RuntimePtr)

def setWorker (worker : Worker) (state : WorkerState) : View :=
  { v with worker := Function.update v.worker r (Function.update (v.worker r) worker state) }

def drain : View := { v with drained := insert r v.drained }

def erase : View :=
  { v with
    present := v.present \ {r}
    worker := Function.update v.worker r fun _ => .none
    drained := v.drained \ {r} }

def create : View where
  present := insert v.created v.present
  current := some v.created
  created := v.created + 1
  worker := Function.update v.worker v.created fun _ => .none
  drained := v.drained \ {v.created}

variable {v r}

theorem setWorker_worker (worker : Worker) (state : WorkerState) (r' : RuntimePtr)
    (worker' : Worker) : (v.setWorker r worker state).worker r' worker' =
      if r' = r ∧ worker' = worker then state else v.worker r' worker' := by
  by_cases hr : r' = r
  · subst hr
    by_cases hworker : worker' = worker <;> simp [setWorker, hworker]
  · simp [setWorker, hr]

end View

namespace CommsState

variable {s s' : CommsState} {r : RuntimePtr} {c c' : CommsRuntime}

theorem workerOf_of_lookup (hc : s.runtimes.lookup r = some c) (worker : Worker) :
    s.workerOf r worker = c.workers worker := by
  simp [workerOf, hc]

theorem drainedOf_of_lookup (hc : s.runtimes.lookup r = some c) : s.drainedOf r = c.drained := by
  simp [drainedOf, hc]

theorem workerOf_set : (s.set r c').workerOf = Function.update s.workerOf r c'.workers := by
  funext r' worker
  by_cases hr : r' = r
  · subst hr
    simp [workerOf, set]
  · simp [workerOf, set, hr]

theorem workerOf_set_same (hc : s.runtimes.lookup r = some c) (hworkers : c'.workers = c.workers) :
    (s.set r c').workerOf = s.workerOf := by
  have hself : s.workerOf r = c.workers := funext (workerOf_of_lookup hc)
  rw [workerOf_set, hworkers, ← hself]
  exact Function.update_eq_self r s.workerOf

theorem present_set (hc : s.runtimes.lookup r = some c) :
    {x | x ∈ (s.set r c').runtimes} = {x | x ∈ s.runtimes} := by
  have hr : r ∈ s.runtimes := Finmap.mem_of_lookup_eq_some hc
  ext x
  simp only [Set.mem_ofPred_eq, set, Finmap.mem_insert]
  constructor
  · rintro (rfl | hx)
    · exact hr
    · exact hx
  · exact Or.inr

theorem drainedOf_set (r' : RuntimePtr) :
    (s.set r c').drainedOf r' = if r' = r then c'.drained else s.drainedOf r' := by
  by_cases hr : r' = r
  · subst hr
    simp [drainedOf, set]
  · simp [drainedOf, set, hr]

theorem drained_set (hdrained : c'.drained = none ↔ s.drainedOf r = none) :
    {x | (s.set r c').drainedOf x ≠ none} = {x | s.drainedOf x ≠ none} := by
  ext x
  simp only [Set.mem_ofPred_eq, drainedOf_set]
  by_cases hx : x = r
  · subst hx
    rw [if_pos rfl]
    exact not_congr hdrained
  · rw [if_neg hx]

/-- A change of the other fields of a runtime. -/
theorem view_set (hc : s.runtimes.lookup r = some c) (hworkers : c'.workers = c.workers)
    (hdrained : c'.drained = c.drained) : (s.set r c').view = s.view := by
  simp only [view, present_set hc, workerOf_set_same hc hworkers,
    drained_set (r := r) (by rw [hdrained, drainedOf_of_lookup hc])]
  rfl

theorem view_setWorker (hc : s.runtimes.lookup r = some c) (worker : Worker) (state : WorkerState) :
    (s.set r (c.setWorker worker state)).view = s.view.setWorker r worker state := by
  have hworkers : s.workerOf r = c.workers := funext (workerOf_of_lookup hc)
  have hdrained : (c.setWorker worker state).drained = none ↔ s.drainedOf r = none := by
    rw [drainedOf_of_lookup hc]
    exact Iff.rfl
  simp only [view, View.setWorker, present_set hc, workerOf_set, hworkers, drained_set hdrained]
  rfl

theorem view_drain (hc : s.runtimes.lookup r = some c) (hworkers : c'.workers = c.workers)
    (hdrained : c'.drained ≠ none) : (s.set r c').view = s.view.drain r := by
  have hinsert : {x | (s.set r c').drainedOf x ≠ none} = insert r {x | s.drainedOf x ≠ none} := by
    ext x
    simp only [Set.mem_ofPred_eq, Set.mem_insert_iff, drainedOf_set]
    by_cases hx : x = r <;> simp [hx, hdrained]
  simp only [view, View.drain, present_set hc, workerOf_set_same hc hworkers, hinsert]
  rfl

theorem view_new (hruntimes : s'.runtimes = s.runtimes.insert s.created {})
    (hcurrent : s'.gRuntime = some s.created) (hcreated : s'.created = s.created + 1) :
    s'.view = s.view.create := by
  refine View.ext ?_ hcurrent hcreated ?_ ?_
  · ext x
    simp [view, View.create, hruntimes]
  · funext x worker
    by_cases hx : x = s.created <;> simp [view, View.create, workerOf, hruntimes, hx]
  · ext x
    by_cases hx : x = s.created <;> simp [view, View.create, drainedOf, hruntimes, hx]

theorem view_erase (hruntimes : s'.runtimes = s.runtimes.erase r) (hcreated : s'.created = s.created) :
    s'.view = { s.view.erase r with current := s'.gRuntime } := by
  refine View.ext ?_ rfl hcreated ?_ ?_
  · ext x
    simp [view, View.erase, hruntimes, and_comm]
  · funext x worker
    by_cases hx : x = r <;> simp [view, View.erase, workerOf, hruntimes, hx]
  · ext x
    by_cases hx : x = r <;> simp [view, View.erase, drainedOf, hruntimes, hx]

/-- The other acts of the methods do not matter. -/
theorem view_execMethod {e : Choice} {a : RuntimeAct} {x : a.Answer}
    (hc : s.runtimes.lookup r = some c) (h : s.execMethod r c e a = some (x, s'))
    (hbegin : ∀ worker, a ≠ .begin worker) (hfinish : ∀ worker, a ≠ .finish worker)
    (hjoin : ∀ worker, a ≠ .join worker) (hspawn : ∀ worker, a ≠ .spawn worker)
    (hdrain : a ≠ .drain) : s'.view = s.view := by
  cases a with
  | begin worker => exact absurd rfl (hbegin worker)
  | finish worker => exact absurd rfl (hfinish worker)
  | join worker => exact absurd rfl (hjoin worker)
  | spawn worker => exact absurd rfl (hspawn worker)
  | drain => exact absurd rfl hdrain
  | see peer =>
    cases h
    cases peer <;> exact view_set hc rfl rfl
  | publish link =>
    simp only [execMethod] at h
    split at h <;> cases h
    · rfl
    · exact view_set hc rfl rfl
  | claimRunning | stopRunning =>
    cases h
    exact view_set hc rfl rfl
  | registerCallback instrumentType callbackType callback =>
    cases h
    cases instrumentType <;> cases callbackType <;> exact view_set hc rfl rfl
  | socket =>
    simp only [execMethod] at h
    split at h <;> cases h
    rfl
  | bind worker =>
    simp only [execMethod] at h
    split at h
    · split at h <;> cases h
      rfl
    · cases h
      rfl
  | _ =>
    cases h
    rfl

end CommsState

namespace Lifetimes

/-- What a thread knows of the runtime it is concerned with. -/
def Sits (v : View) (h : Held commsSignature) (g : Duty) : Prop :=
  match g.role with
  | .idle => True
  | .vacant => Guarded h ∧ v.current = none
  | .user r => r ∈ v.present ∧ (g.purpose = .scan → r ∉ v.drained)
  | .starter r => Guarded h ∧ r ∈ v.present ∧ v.current = some r ∧
    (∀ worker ∈ g.fresh, v.worker r worker = .none) ∧ (∀ worker ∈ g.gone, ¬ (v.worker r worker).Live) ∧
    (r ∈ v.drained → g.emptied = true)
  | .owner r => r ∈ v.present ∧ v.current ≠ some r ∧ ∀ worker ∈ g.gone, ¬ (v.worker r worker).Live
  | .worker r worker => r ∈ v.present ∧ v.worker r worker = .running

/-- A runtime has one owner, and one thread of each kind. Nobody uses it before it is started. -/
def Apart (g g' : Duty) : Prop :=
  match g.role, g'.role with
  | .owner r, .owner r' => r ≠ r'
  | .worker r worker, .worker r' worker' => ¬ (r = r' ∧ worker = worker')
  | .user r, .starter r' | .starter r, .user r' => r ≠ r'
  | _, _ => True

theorem Apart.symm {g g' : Duty} (h : Apart g g') : Apart g' g := by
  unfold Apart at h ⊢
  cases hg : g.role <;> cases hg' : g'.role <;> simp only [hg, hg'] at h ⊢ <;>
    first
      | exact fun heq => h heq.symm
      | exact fun heq => h ⟨heq.1.symm, heq.2.symm⟩

/-- A runtime whose links were taken out has no discovery thread, and cannot be found. -/
structure Lives (v : View) (H : Tid → Held commsSignature) (G : Tid → Duty) : Prop where
  known : ∀ r ∈ v.present, r < v.created
  current : ∀ r, v.current = some r → r ∈ v.present
  sits : ∀ t, Sits v (H t) (G t)
  apart : ∀ t u, t ≠ u → Apart (G t) (G u)
  ended : ∀ r ∈ v.drained, ¬ (v.worker r .discovery).Live
  closed : ∀ r ∈ v.drained, v.current = some r → ∃ t, (G t).role = .starter r

namespace Lives

variable {v v' : View} {H : Tid → Held commsSignature} {G : Tid → Duty} {t : Tid} {g : Duty}
  {h : Held commsSignature} {r : RuntimePtr} {worker : Worker}

/-- A thread moves, and the others stay where they are. -/
theorem step (hlives : Lives v H G) (hknown : ∀ r ∈ v'.present, r < v'.created)
    (hcurrent : ∀ r, v'.current = some r → r ∈ v'.present) (hself : Sits v' (H t) g)
    (hothers : ∀ u, u ≠ t → Sits v' (H u) (G u)) (hapart : ∀ u, u ≠ t → Apart g (G u))
    (hended : ∀ r ∈ v'.drained, ¬ (v'.worker r .discovery).Live)
    (hclosed : ∀ r ∈ v'.drained, v'.current = some r → g.role = .starter r ∨
      ∃ u, u ≠ t ∧ (G u).role = .starter r) : Lives v' H (Function.update G t g) := by
  refine ⟨hknown, hcurrent, fun u => ?_, fun u u' hne => ?_, hended, fun r hr hcur => ?_⟩
  · by_cases hu : u = t
    · subst hu
      rw [Function.update_self]
      exact hself
    · rw [Function.update_of_ne hu]
      exact hothers u hu
  · by_cases hu : u = t
    · subst hu
      rw [Function.update_self, Function.update_of_ne (Ne.symm hne)]
      exact hapart u' (Ne.symm hne)
    · rw [Function.update_of_ne hu]
      by_cases hu' : u' = t
      · subst hu'
        rw [Function.update_self]
        exact (hapart u hu).symm
      · rw [Function.update_of_ne hu']
        exact hlives.apart u u' hne
  · rcases hclosed r hr hcur with hg | ⟨u, hu, hrole⟩
    · exact ⟨t, by rw [Function.update_self, hg]⟩
    · exact ⟨u, by rw [Function.update_of_ne hu, hrole]⟩

/-- A thread takes another part, and nothing else changes. -/
theorem move (hlives : Lives v H G) (hself : Sits v (H t) g) (hapart : ∀ u, u ≠ t → Apart g (G u))
    (hclosed : ∀ r ∈ v.drained, v.current = some r → (G t).role = .starter r →
      g.role = .starter r) : Lives v H (Function.update G t g) := by
  refine hlives.step hlives.known hlives.current hself (fun u _ => hlives.sits u) hapart hlives.ended
    fun r hr hcur => ?_
  obtain ⟨u, hu⟩ := hlives.closed r hr hcur
  by_cases hut : u = t
  · subst hut
    exact Or.inl (hclosed r hr hcur hu)
  · exact Or.inr ⟨u, hut, hu⟩

theorem relock (hlives : Lives v H G) (hself : Sits v h (G t)) :
    Lives v (Function.update H t h) G := by
  refine ⟨hlives.known, hlives.current, fun u => ?_, hlives.apart, hlives.ended, hlives.closed⟩
  by_cases hu : u = t
  · subst hu
    rw [Function.update_self]
    exact hself
  · rw [Function.update_of_ne hu]
    exact hlives.sits u

theorem apart_of_idle {g' : Duty} (hg : g.role = .idle) : Apart g g' := by
  unfold Apart
  rw [hg]
  trivial

/-- A thread has done with a runtime. It was not starting one whose links were taken out. -/
theorem leave (hlives : Lives v H G) (hg : g.role = .idle)
    (hstarter : ∀ r ∈ v.drained, (G t).role ≠ .starter r) : Lives v H (Function.update G t g) := by
  refine hlives.move ?_ (fun u _ => apart_of_idle hg) fun r hr _ ht => absurd ht (hstarter r hr)
  unfold Sits
  rw [hg]
  trivial

/-- What a thread knows of threads that do not run may grow. -/
theorem note (hlives : Lives v H G) {gone : Set Worker} {emptied bound : Bool}
    (hgone : ∀ r, (G t).role.Closes r → ∀ worker ∈ gone, ¬ (v.worker r worker).Live)
    (hemptied : (G t).emptied = true → emptied = true) :
    Lives v H (Function.update G t { G t with gone, emptied, bound }) := by
  refine hlives.move ?_ (fun u hu => ?_) fun _ _ _ ht => ht
  · have hself := hlives.sits t
    unfold Sits at hself ⊢
    cases hrole : (G t).role with
    | idle => trivial
    | vacant | user | worker =>
      simp only [hrole] at hself ⊢
      exact hself
    | starter r =>
      simp only [hrole] at hself ⊢
      obtain ⟨hguarded, hpresent, hcurrent, hfresh, -, hdrained⟩ := hself
      exact ⟨hguarded, hpresent, hcurrent, hfresh, hgone r (hrole ▸ rfl), fun hr => hemptied (hdrained hr)⟩
    | owner r =>
      simp only [hrole] at hself ⊢
      exact ⟨hself.1, hself.2.1, hgone r (hrole ▸ rfl)⟩
  · exact hlives.apart t u (Ne.symm hu)

end Lives

/-! ## The threads of a runtime change their state -/

section Workers

variable {v : View} {H : Tid → Held commsSignature} {G : Tid → Duty} {t : Tid} {g : Duty}
  {h : Held commsSignature} {r : RuntimePtr} {worker : Worker} {state : WorkerState}

theorem Sits.setWorker (hsits : Sits v h g)
    (hfresh : g.role = .starter r → worker ∉ g.fresh)
    (hgone : g.role.Closes r → worker ∈ g.gone → ¬ state.Live)
    (hworker : g.role = .worker r worker → state = .running) :
    Sits (v.setWorker r worker state) h g := by
  have hdead : ∀ r', g.role.Closes r' → (∀ x ∈ g.gone, ¬ (v.worker r' x).Live) →
      ∀ x ∈ g.gone, ¬ ((v.setWorker r worker state).worker r' x).Live := by
    intro r' hcloses hold x hx
    rw [View.setWorker_worker]
    split
    · rename_i heq
      obtain ⟨rfl, rfl⟩ := heq
      exact hgone hcloses hx
    · exact hold x hx
  unfold Sits at hsits ⊢
  cases hrole : g.role with
  | idle => trivial
  | vacant | user =>
    simp only [hrole] at hsits ⊢
    exact hsits
  | starter r' =>
    simp only [hrole] at hsits ⊢
    obtain ⟨hguarded, hpresent, hcurrent, hnone, hnotLive, hdrained⟩ := hsits
    refine ⟨hguarded, hpresent, hcurrent, fun x hx => ?_, hdead r' (hrole ▸ rfl) hnotLive, hdrained⟩
    rw [View.setWorker_worker, if_neg]
    · exact hnone x hx
    · rintro ⟨rfl, rfl⟩
      exact hfresh hrole hx
  | owner r' =>
    simp only [hrole] at hsits ⊢
    exact ⟨hsits.1, hsits.2.1, hdead r' (hrole ▸ rfl) hsits.2.2⟩
  | worker r' worker' =>
    simp only [hrole] at hsits ⊢
    refine ⟨hsits.1, ?_⟩
    rw [View.setWorker_worker]
    split
    · rename_i heq
      obtain ⟨rfl, rfl⟩ := heq
      exact hworker hrole
    · exact hsits.2

/-- A thread of a runtime starts, ends or is joined, and what the thread at which this happens
knows of others stays true. -/
theorem Lives.setWorker (hlives : Lives v H G) (hself : Sits (v.setWorker r worker state) (H t) g)
    (hothers : ∀ u, u ≠ t → ((G u).role = .starter r → worker ∉ (G u).fresh) ∧
      ((G u).role.Closes r → worker ∈ (G u).gone → ¬ state.Live) ∧
      ((G u).role = .worker r worker → state = .running))
    (hapart : ∀ u, u ≠ t → Apart g (G u))
    (hended : r ∈ v.drained → worker = .discovery → ¬ state.Live)
    (hstarter : ∀ r', (G t).role = .starter r' → g.role = .starter r') :
    Lives (v.setWorker r worker state) H (Function.update G t g) := by
  refine hlives.step hlives.known hlives.current hself (fun u hu => ?_) hapart (fun r' hr' => ?_)
    fun r' hr' hcur => ?_
  · obtain ⟨hfresh, hgone, hworker⟩ := hothers u hu
    exact (hlives.sits u).setWorker hfresh hgone hworker
  · rw [View.setWorker_worker]
    split
    · rename_i heq
      exact hended (heq.1 ▸ hr') heq.2.symm
    · exact hlives.ended r' hr'
  · obtain ⟨u, hu⟩ := hlives.closed r' hr' hcur
    by_cases hut : u = t
    · subst hut
      exact Or.inl (hstarter r' hu)
    · exact Or.inr ⟨u, hut, hu⟩

theorem Lives.present_of_worker (hlives : Lives v H G) (ht : (G t).role = .worker r worker) :
    r ∈ v.present ∧ v.worker r worker = .running := by
  have hself := hlives.sits t
  unfold Sits at hself
  rwa [ht] at hself

theorem Lives.present_of_holds (hlives : Lives v H G) (ht : (G t).role.Holds r) :
    r ∈ v.present := by
  have hself := hlives.sits t
  unfold Sits at hself
  cases hrole : (G t).role with
  | idle | vacant =>
    rw [hrole] at ht
    exact ht.elim
  | user | owner | worker =>
    rw [hrole] at hself ht
    cases ht
    exact hself.1
  | starter =>
    rw [hrole] at hself ht
    cases ht
    exact hself.2.1

theorem Lives.fresh (hlives : Lives v H G) (ht : (G t).role = .starter r)
    (hfresh : worker ∈ (G t).fresh) : v.worker r worker = .none := by
  have hself := hlives.sits t
  unfold Sits at hself
  rw [ht] at hself
  exact hself.2.2.2.1 worker hfresh

theorem Lives.gone (hlives : Lives v H G) (ht : (G t).role.Closes r) (hgone : worker ∈ (G t).gone) :
    ¬ (v.worker r worker).Live := by
  have hself := hlives.sits t
  unfold Sits at hself
  cases hrole : (G t).role with
  | starter r' =>
    rw [hrole] at hself ht
    cases ht
    exact hself.2.2.2.2.1 worker hgone
  | owner r' =>
    rw [hrole] at hself ht
    cases ht
    exact hself.2.2 worker hgone
  | _ =>
    rw [hrole] at ht
    exact ht.elim

theorem Lives.begin (hlives : Lives v H G) (hpresent : r ∈ v.present)
    (hcreated : v.worker r worker = .created) (ht : (G t).role = .idle)
    (hg : g.role = .worker r worker) :
    Lives (v.setWorker r worker .running) H (Function.update G t g) := by
  have hlive : (v.worker r worker).Live := hcreated ▸ trivial
  refine hlives.setWorker ?_ (fun u _ => ⟨fun hu hfresh => ?_, fun hu hgone => ?_, fun _ => rfl⟩)
    (fun u _ => ?_) (fun hr heq => ?_) fun r' heq => ?_
  · unfold Sits
    rw [hg]
    exact ⟨hpresent, by rw [View.setWorker_worker, if_pos ⟨rfl, rfl⟩]⟩
  · rw [hlives.fresh hu hfresh] at hcreated
    cases hcreated
  · exact absurd hlive (hlives.gone hu hgone)
  · unfold Apart
    rw [hg]
    cases hu : (G u).role with
    | worker r' worker' =>
      rintro ⟨rfl, rfl⟩
      rw [(hlives.present_of_worker hu).2] at hcreated
      cases hcreated
    | _ => trivial
  · subst heq
    exact absurd hlive (hlives.ended r hr)
  · rw [ht] at heq
    cases heq

theorem Lives.finish (hlives : Lives v H G) (ht : (G t).role = .worker r worker)
    (hg : g.role = .idle) :
    Lives (v.setWorker r worker .ended) H (Function.update G t g) := by
  obtain ⟨-, hrunning⟩ := hlives.present_of_worker ht
  refine hlives.setWorker ?_ (fun u hu => ⟨fun hrole hfresh => ?_, fun _ _ => id, fun hrole => ?_⟩)
    (fun u _ => apart_of_idle hg) (fun _ _ => id) fun r' heq => ?_
  · unfold Sits
    rw [hg]
    trivial
  · rw [hlives.fresh hrole hfresh] at hrunning
    cases hrunning
  · have hapart := hlives.apart t u (Ne.symm hu)
    unfold Apart at hapart
    rw [ht, hrole] at hapart
    exact absurd ⟨rfl, rfl⟩ hapart
  · rw [ht] at heq
    cases heq

theorem Lives.join (hlives : Lives v H G) (hended : v.worker r worker = .ended) :
    Lives (v.setWorker r worker .joined) H (Function.update G t (G t)) := by
  have hothers : ∀ u, ((G u).role = .starter r → worker ∉ (G u).fresh) ∧
      ((G u).role.Closes r → worker ∈ (G u).gone → ¬ WorkerState.joined.Live) ∧
      ((G u).role = .worker r worker → WorkerState.joined = .running) := by
    refine fun u => ⟨fun hrole hfresh => ?_, fun _ _ => id, fun hrole => ?_⟩
    · rw [hlives.fresh hrole hfresh] at hended
      cases hended
    · rw [(hlives.present_of_worker hrole).2] at hended
      cases hended
  refine hlives.setWorker ?_ (fun u _ => hothers u) (fun u hu => hlives.apart t u (Ne.symm hu))
    (fun _ _ => id) fun r' heq => heq
  obtain ⟨hfresh, hgone, hworker⟩ := hothers t
  exact (hlives.sits t).setWorker hfresh hgone hworker

/-- What a thread that starts a runtime knows. -/
theorem Lives.starter (hlives : Lives v H G) (ht : (G t).role = .starter r) :
    Guarded (H t) ∧ r ∈ v.present ∧ v.current = some r ∧ (r ∈ v.drained → (G t).emptied = true) := by
  have hself := hlives.sits t
  unfold Sits at hself
  rw [ht] at hself
  exact ⟨hself.1, hself.2.1, hself.2.2.1, hself.2.2.2.2.2⟩

theorem Lives.spawn (hlives : Lives v H G) (hexcludes : Discipline.Excludes H)
    (ht : (G t).role = .starter r) (hfresh : worker ∈ (G t).fresh) (hgone : (G t).gone = ∅)
    (hemptied : (G t).emptied = false) :
    Lives (v.setWorker r worker .created) H
      (Function.update G t { G t with fresh := (G t).fresh \ {worker} }) := by
  have hnone := hlives.fresh ht hfresh
  obtain ⟨hguarded, hpresent, hcurrent, hdrained⟩ := hlives.starter ht
  have hopen : r ∉ v.drained := fun hr => by
    rw [hdrained hr] at hemptied
    cases hemptied
  refine hlives.setWorker ?_ (fun u hu => ⟨fun hrole => ?_, fun hrole => ?_, fun hrole => ?_⟩)
    (fun u hu => hlives.apart t u (Ne.symm hu)) (fun hr => absurd hr hopen) fun r' heq => heq
  · have hself := hlives.sits t
    unfold Sits at hself ⊢
    simp only [ht] at hself ⊢
    refine ⟨hguarded, hpresent, hcurrent, fun x hx => ?_, fun x hx => ?_, hdrained⟩
    · rw [View.setWorker_worker, if_neg fun heq => hx.2 heq.2]
      exact hlives.fresh ht hx.1
    · rw [hgone] at hx
      exact absurd hx (Set.notMem_empty x)
  · exact absurd (hexcludes t u _ _ hguarded (hlives.starter hrole).1) hu
  · cases hrole' : (G u).role with
    | starter r' => exact absurd (hexcludes t u _ _ hguarded (hlives.starter hrole').1) hu
    | owner r' =>
      have hother := hlives.sits u
      unfold Sits at hother
      rw [hrole'] at hrole hother
      cases hrole
      exact absurd hcurrent hother.2.1
    | _ =>
      rw [hrole'] at hrole
      exact hrole.elim
  · rw [(hlives.present_of_worker hrole).2] at hnone
    cases hnone

end Workers

/-! ## Runtimes come and go -/

namespace Lives

variable {v : View} {H : Tid → Held commsSignature} {G : Tid → Duty} {t : Tid} {g : Duty}
  {r : RuntimePtr}

theorem owner (hlives : Lives v H G) (ht : (G t).role = .owner r) :
    r ∈ v.present ∧ v.current ≠ some r := by
  have hself := hlives.sits t
  unfold Sits at hself
  rw [ht] at hself
  exact ⟨hself.1, hself.2.1⟩

/-- Under the mutex, nobody else starts a runtime or has found none. -/
theorem not_locked (hlives : Lives v H G) (hexcludes : Discipline.Excludes H)
    (hguarded : Guarded (H t)) {u : Tid} (hu : u ≠ t) :
    (G u).role ≠ .vacant ∧ ∀ r, (G u).role ≠ .starter r := by
  have hother := hlives.sits u
  unfold Sits at hother
  refine ⟨fun hrole => ?_, fun r hrole => ?_⟩
  · rw [hrole] at hother
    exact hu (hexcludes t u _ _ hguarded hother.1)
  · exact hu (hexcludes t u _ _ hguarded (hlives.starter hrole).1)

/-- A starter of the runtime that a thread closes is that thread. -/
theorem eq_of_closes (hlives : Lives v H G) (hexcludes : Discipline.Excludes H)
    (hcloses : (G t).role.Closes r) {u : Tid} (hu : (G u).role = .starter r) : u = t := by
  obtain ⟨hguarded, -, hcurrent, -⟩ := hlives.starter hu
  cases hrole : (G t).role with
  | starter r' => exact hexcludes t u _ _ (hlives.starter hrole).1 hguarded
  | owner r' =>
    rw [hrole] at hcloses
    cases hcloses
    exact absurd hcurrent (hlives.owner hrole).2
  | _ =>
    rw [hrole] at hcloses
    exact hcloses.elim

/-- The links are taken out by a thread that has noted it, while nobody scans. -/
theorem drain (hlives : Lives v H G) (hexcludes : Discipline.Excludes H)
    (hcloses : (G t).role.Closes r) (hgone : (G t).gone = Set.univ) (hemptied : (G t).emptied = true)
    (hscans : ∀ u, (G u).role = .user r → (G u).purpose ≠ .scan) : Lives (v.drain r) H G := by
  refine ⟨hlives.known, hlives.current, fun u => ?_, hlives.apart, ?_, ?_⟩
  · have hother := hlives.sits u
    unfold Sits at hother ⊢
    cases hrole : (G u).role with
    | user r' =>
      simp only [hrole] at hother ⊢
      refine ⟨hother.1, fun hscan => ?_⟩
      rintro (rfl | hdrained)
      · exact hscans u hrole hscan
      · exact hother.2 hscan hdrained
    | starter r' =>
      simp only [hrole] at hother ⊢
      obtain ⟨hguarded, hpresent, hcurrent, hfresh, hdead, hdrained⟩ := hother
      refine ⟨hguarded, hpresent, hcurrent, hfresh, hdead, ?_⟩
      rintro (rfl | hr)
      · exact hlives.eq_of_closes hexcludes hcloses hrole ▸ hemptied
      · exact hdrained hr
    | idle => simp only
    | vacant | owner | worker =>
      simp only [hrole] at hother ⊢
      exact hother
  · rintro r' (rfl | hr')
    · exact hlives.gone hcloses (hgone ▸ Set.mem_univ _)
    · exact hlives.ended r' hr'
  · rintro r' (rfl | hr') hcurrent
    · cases hrole : (G t).role with
      | starter r =>
        rw [hrole] at hcloses
        cases hcloses
        exact ⟨t, hrole⟩
      | owner r =>
        rw [hrole] at hcloses
        cases hcloses
        exact absurd hcurrent (hlives.owner hrole).2
      | _ =>
        rw [hrole] at hcloses
        exact hcloses.elim
    · exact hlives.closed r' hr' hcurrent

/-- A runtime is made where there was none. -/
theorem create (hlives : Lives v H G) (hexcludes : Discipline.Excludes H)
    (ht : (G t).role = .vacant) (hg : g.role = .starter v.created) (hgone : g.gone = ∅) :
    Lives v.create H (Function.update G t g) := by
  have hself := hlives.sits t
  unfold Sits at hself
  rw [ht] at hself
  obtain ⟨hguarded, hnone⟩ := hself
  have hnew : v.created ∉ v.present := fun hin => Nat.lt_irrefl _ (hlives.known _ hin)
  have hworker : ∀ r ∈ v.present, v.create.worker r = v.worker r := fun r hr => by
    have hne : r ≠ v.created := fun heq => hnew (heq ▸ hr)
    exact Function.update_of_ne hne _ _
  refine hlives.step ?_ ?_ ?_ (fun u hu => ?_) (fun u hu => ?_) ?_ ?_
  · rintro r (rfl | hr)
    · exact Nat.lt_succ_self _
    · exact Nat.lt_succ_of_lt (hlives.known r hr)
  · intro r hr
    cases hr
    exact Or.inl rfl
  · unfold Sits
    simp only [hg, hgone]
    refine ⟨hguarded, Or.inl rfl, rfl, fun worker _ => ?_, fun worker hw => absurd hw
      (Set.notMem_empty worker), fun hr => absurd rfl hr.2⟩
    simp [View.create]
  · obtain ⟨hvacant, hstarter⟩ := hlives.not_locked hexcludes hguarded hu
    have hother := hlives.sits u
    unfold Sits at hother ⊢
    cases hrole : (G u).role with
    | idle => simp only
    | vacant => exact absurd hrole hvacant
    | starter r => exact absurd hrole (hstarter r)
    | user r =>
      simp only [hrole] at hother ⊢
      exact ⟨Or.inr hother.1, fun hscan hr => hother.2 hscan hr.1⟩
    | owner r =>
      simp only [hrole] at hother ⊢
      refine ⟨Or.inr hother.1, fun heq => ?_, ?_⟩
      · cases heq
        exact hnew hother.1
      · rw [hworker r hother.1]
        exact hother.2.2
    | worker r worker =>
      simp only [hrole] at hother ⊢
      rw [hworker r hother.1]
      exact ⟨Or.inr hother.1, hother.2⟩
  · unfold Apart
    rw [hg]
    cases hrole : (G u).role with
    | user r =>
      rintro rfl
      have hother := hlives.sits u
      unfold Sits at hother
      rw [hrole] at hother
      exact hnew hother.1
    | _ => trivial
  · rintro r ⟨hr, hne⟩
    have hsame : v.create.worker r = v.worker r := Function.update_of_ne hne _ _
    rw [hsame]
    exact hlives.ended r hr
  · rintro r ⟨hr, hne⟩ heq
    cases heq
    exact absurd rfl hne

/-- One thread at most closes a runtime. -/
theorem owner_ne (hlives : Lives v H G) (hcloses : (G t).role.Closes r) {u : Tid} (hu : u ≠ t) :
    (G u).role ≠ .owner r := by
  intro hrole
  cases ht : (G t).role with
  | starter r' =>
    rw [ht] at hcloses
    cases hcloses
    exact (hlives.owner hrole).2 (hlives.starter ht).2.2.1
  | owner r' =>
    rw [ht] at hcloses
    cases hcloses
    have hapart := hlives.apart t u (Ne.symm hu)
    unfold Apart at hapart
    rw [ht, hrole] at hapart
    exact hapart rfl
  | _ =>
    rw [ht] at hcloses
    exact hcloses.elim

/-- A runtime that nobody else holds is destroyed, and is not in `g_runtime` any more. -/
theorem erase (hlives : Lives v H G) (hcloses : (G t).role.Closes r)
    (hgone : (G t).gone = Set.univ) (husers : ∀ u, (G u).role ≠ .user r)
    (hstarters : ∀ u, u ≠ t → (G u).role ≠ .starter r) (hg : g.role = .idle)
    {current : Option RuntimePtr} (hne : current ≠ some r)
    (hcurrent : current = v.current ∨ current = none ∧ v.current = some r) :
    Lives { v.erase r with current } H (Function.update G t g) := by
  have hworker : ∀ r', r' ≠ r → (v.erase r).worker r' = v.worker r' := fun r' hr' =>
    Function.update_of_ne hr' _ _
  have hkept : ∀ r', current = some r' → v.current = some r' := by
    rintro r' heq
    rcases hcurrent with h | ⟨h, -⟩
    · exact h ▸ heq
    · rw [h] at heq
      cases heq
  refine hlives.step (fun r' hr' => hlives.known r' hr'.1) (fun r' hr' => ?_) ?_ (fun u hu => ?_)
    (fun u _ => apart_of_idle hg) (fun r' hr' => ?_) fun r' hr' heq => ?_
  · refine ⟨hlives.current r' (hkept r' hr'), ?_⟩
    rintro rfl
    exact hne hr'
  · unfold Sits
    simp only [hg]
  · have hother := hlives.sits u
    unfold Sits at hother ⊢
    cases hrole : (G u).role with
    | idle => simp only
    | vacant =>
      simp only [hrole] at hother ⊢
      refine ⟨hother.1, ?_⟩
      rcases hcurrent with h | ⟨h, -⟩
      · exact h.trans hother.2
      · exact h
    | user r' =>
      simp only [hrole] at hother ⊢
      have hr' : r' ≠ r := fun heq => husers u (heq ▸ hrole)
      exact ⟨⟨hother.1, hr'⟩, fun hscan hdrained => hother.2 hscan hdrained.1⟩
    | starter r' =>
      have hr' : r' ≠ r := fun heq => hstarters u hu (heq ▸ hrole)
      simp only [hrole] at hother ⊢
      obtain ⟨hguarded, hpresent, hcur, hfresh, hdead, hdrained⟩ := hother
      refine ⟨hguarded, ⟨hpresent, hr'⟩, ?_, ?_, ?_, fun hd => hdrained hd.1⟩
      · rcases hcurrent with h | ⟨-, h⟩
        · exact h.trans hcur
        · rw [hcur] at h
          exact absurd (Option.some.inj h) hr'
      · rw [hworker r' hr']
        exact hfresh
      · rw [hworker r' hr']
        exact hdead
    | owner r' =>
      have hr' : r' ≠ r := fun heq => hlives.owner_ne hcloses hu (heq ▸ hrole)
      simp only [hrole] at hother ⊢
      refine ⟨⟨hother.1, hr'⟩, fun heq => hother.2.1 (hkept r' heq), ?_⟩
      rw [hworker r' hr']
      exact hother.2.2
    | worker r' worker =>
      have hr' : r' ≠ r := by
        rintro rfl
        have hlive := (hlives.present_of_worker hrole).2 ▸ hlives.gone hcloses (hgone ▸ Set.mem_univ worker)
        exact hlive trivial
      simp only [hrole] at hother ⊢
      rw [hworker r' hr']
      exact ⟨⟨hother.1, hr'⟩, hother.2⟩
  · show ¬ ((v.erase r).worker r' .discovery).Live
    rw [hworker r' hr'.2]
    exact hlives.ended r' hr'.1
  · obtain ⟨u, hu⟩ := hlives.closed r' hr'.1 (hkept r' heq)
    refine Or.inr ⟨u, ?_, hu⟩
    rintro rfl
    rw [hu] at hcloses
    cases hcloses
    exact hne heq

/-- The runtime is taken out of `g_runtime`. -/
theorem release (hlives : Lives v H G) (hexcludes : Discipline.Excludes H)
    (hguarded : Guarded (H t)) (hcurrent : v.current = some r) (hg : g.role = .owner r)
    (hgone : g.gone = ∅) : Lives { v with current := none } H (Function.update G t g) := by
  refine hlives.step hlives.known (fun _ h => by cases h) ?_ (fun u hu => ?_) (fun u hu => ?_)
    hlives.ended fun _ _ h => by cases h
  · unfold Sits
    simp only [hg, hgone]
    exact ⟨hlives.current r hcurrent, by simp, fun worker hw => absurd hw (Set.notMem_empty worker)⟩
  · obtain ⟨hvacant, hstarter⟩ := hlives.not_locked hexcludes hguarded hu
    have hother := hlives.sits u
    unfold Sits at hother ⊢
    cases hrole : (G u).role with
    | idle => simp only
    | vacant => exact absurd hrole hvacant
    | starter r => exact absurd hrole (hstarter r)
    | owner r' =>
      simp only [hrole] at hother ⊢
      exact ⟨hother.1, by simp, hother.2.2⟩
    | user | worker =>
      simp only [hrole] at hother ⊢
      exact hother
  · unfold Apart
    rw [hg]
    cases hrole : (G u).role with
    | owner r' =>
      rintro rfl
      exact (hlives.owner hrole).2 hcurrent
    | _ => trivial

theorem found_cases (g : Duty) (x : Option RuntimePtr) :
    found g x = .idle ∨ found g x = .vacant ∨ ∃ r, found g x = .user r := by
  cases x with
  | none =>
    simp only [found]
    split
    · exact Or.inr (Or.inl rfl)
    · exact Or.inl rfl
  | some r =>
    simp only [found]
    split
    · exact Or.inr (Or.inr ⟨r, rfl⟩)
    · exact Or.inl rfl

/-- What `get_runtime` gives to a thread is there, and its links were not taken out. -/
theorem find (hlives : Lives v H G) (hexcludes : Discipline.Excludes H) (hguarded : Guarded (H t))
    (ht : (G t).role = .idle) :
    Lives v H (Function.update G t { G t with role := found (G t) v.current }) := by
  have hnobody : ∀ u r, (G u).role ≠ .starter r := by
    intro u r hrole
    by_cases hu : u = t
    · subst hu
      rw [ht] at hrole
      cases hrole
    · exact (hlives.not_locked hexcludes hguarded hu).2 r hrole
  refine hlives.move ?_ (fun u _ => ?_) fun r hr hcur _ => ?_
  · unfold Sits
    cases hcurrent : v.current with
    | none =>
      by_cases hpurpose : (G t).purpose = .start
      · simp only [found, hpurpose, if_true]
        exact ⟨hguarded, trivial⟩
      · simp only [found, hpurpose, if_false]
    | some r =>
      by_cases hpurpose : (G t).purpose = .use ∨ (G t).purpose = .scan
      · simp only [found, hpurpose, if_true]
        refine ⟨hlives.current r hcurrent, fun _ hdrained => ?_⟩
        obtain ⟨u, hu⟩ := hlives.closed r hdrained hcurrent
        exact hnobody u r hu
      · simp only [found, hpurpose, if_false]
  · unfold Apart
    rcases found_cases (G t) v.current with hfound | hfound | ⟨r, hfound⟩ <;> simp only [hfound]
    cases hrole : (G u).role with
    | starter r => exact absurd hrole (hnobody u r)
    | _ => trivial
  · obtain ⟨u, hu⟩ := hlives.closed r hr hcur
    exact absurd hu (hnobody u r)

end Lives

end Lifetimes

end SensorLib.Comms
