import SensorLib.Comms.LifetimeSafety

/-! # Runs of calls that make, use and destroy runtimes -/

namespace SensorLib.Comms

open Threads

/-- The process when it starts. -/
def CommsState.initial : CommsState where
  runtimes := ∅
  gRuntime := none
  gRuntimeRefcount := 0
  sockets := []
  ports := []
  log := []
  created := 0

namespace Lifetimes

/-- Only the newest runtime has threads that run. Each port is held by one of them. -/
structure Newest (v : View) (ports : List (Worker × RuntimePtr)) (G : Tid → Duty) : Prop where
  newest : ∀ r worker, (v.worker r worker).Live → r + 1 = v.created
  starter : ∀ t r, (G t).role = .starter r → r + 1 = v.created
  holder : ∀ x ∈ ports, ∃ t, (G t).role = .worker x.2 x.1 ∧ (G t).bound = true
  nodup : ports.Nodup

namespace Newest

variable {v v' : View} {ports : List (Worker × RuntimePtr)} {G : Tid → Duty} {t : Tid} {g : Duty}
  {r : RuntimePtr} {worker : Worker}

theorem step (h : Newest v ports G)
    (hlive : ∀ r worker, (v'.worker r worker).Live → r + 1 = v'.created)
    (hself : ∀ r, g.role = .starter r → r + 1 = v'.created)
    (hothers : ∀ u, u ≠ t → ∀ r, (G u).role = .starter r → r + 1 = v'.created)
    (hholder : ∀ r worker, (G t).role = .worker r worker → (G t).bound = true →
      g.role = .worker r worker ∧ g.bound = true) : Newest v' ports (Function.update G t g) := by
  refine ⟨hlive, fun u r hu => ?_, fun x hx => ?_, h.nodup⟩
  · by_cases hut : u = t
    · subst hut
      rw [Function.update_self] at hu
      exact hself r hu
    · rw [Function.update_of_ne hut] at hu
      exact hothers u hut r hu
  · obtain ⟨u, hrole, hbound⟩ := h.holder x hx
    by_cases hut : u = t
    · subst hut
      exact ⟨u, by rw [Function.update_self]; exact hholder _ _ hrole hbound⟩
    · exact ⟨u, by rw [Function.update_of_ne hut]; exact ⟨hrole, hbound⟩⟩

/-- Neither the runtimes nor their threads change. -/
theorem move (h : Newest v ports G) (hworker : v'.worker = v.worker) (hcreated : v'.created = v.created)
    (hself : ∀ r, g.role = .starter r → (G t).role = .starter r)
    (hholder : ∀ r worker, (G t).role = .worker r worker → (G t).bound = true →
      g.role = .worker r worker ∧ g.bound = true) : Newest v' ports (Function.update G t g) := by
  refine h.step (fun r worker hl => ?_) (fun r hr => ?_) (fun u _ r hr => ?_) hholder
  · rw [hcreated]
    exact h.newest r worker (hworker ▸ hl)
  · rw [hcreated]
    exact h.starter t r (hself r hr)
  · rw [hcreated]
    exact h.starter u r hr

theorem setWorker (h : Newest v ports G) {state : WorkerState}
    (hstate : state.Live → r + 1 = v.created)
    (hself : ∀ r, g.role = .starter r → (G t).role = .starter r)
    (hholder : ∀ r worker, (G t).role = .worker r worker → (G t).bound = true →
      g.role = .worker r worker ∧ g.bound = true) :
    Newest (v.setWorker r worker state) ports (Function.update G t g) := by
  refine h.step (fun r' worker' hl => ?_) (fun r hr => h.starter t r (hself r hr))
    (fun u _ r hr => h.starter u r hr) hholder
  rw [View.setWorker_worker] at hl
  split at hl
  · rename_i heq
    exact heq.1 ▸ hstate hl
  · exact h.newest r' worker' hl

theorem create (h : Newest v ports G) (hnews : ∀ r worker, ¬ (v.worker r worker).Live)
    (hg : g.role = .starter v.created) (hothers : ∀ u, u ≠ t → ∀ r, (G u).role ≠ .starter r)
    (hholder : ∀ r worker, (G t).role ≠ .worker r worker) :
    Newest v.create ports (Function.update G t g) := by
  refine h.step (fun r worker hl => ?_) (fun r hr => ?_) (fun u hu r hr => absurd hr (hothers u hu r))
    fun r worker hr => absurd hr (hholder r worker)
  · by_cases hr : r = v.created
    · subst hr
      simp [View.create, WorkerState.Live] at hl
    · rw [show v.create.worker r = v.worker r from Function.update_of_ne hr _ _] at hl
      exact absurd hl (hnews r worker)
  · rw [hg] at hr
    cases hr
    rfl

theorem erase (h : Newest v ports G) {current : Option RuntimePtr} (hg : g.role = .idle)
    (hholder : ∀ r worker, (G t).role ≠ .worker r worker) :
    Newest { v.erase r with current } ports (Function.update G t g) := by
  refine h.step (fun r' worker hl => ?_) (fun r' hr' => ?_) (fun u _ r' hr' => h.starter u r' hr')
    fun r' worker hr' => absurd hr' (hholder r' worker)
  · by_cases hr' : r' = r
    · subst hr'
      simp [View.erase, WorkerState.Live] at hl
    · refine h.newest r' worker ?_
      rwa [show ({ v.erase r with current } : View).worker r' = v.worker r' from
        Function.update_of_ne hr' _ _] at hl
  · rw [hg] at hr'
    cases hr'

/-- Nobody else has the port of a server that is about to bind. -/
theorem unoccupied {H : Tid → Held commsSignature} (h : Newest v ports G) (hlives : Lives v H G)
    (ht : (G t).role = .worker r worker) (hbound : (G t).bound = false) :
    ∀ x ∈ ports, x.1 ≠ worker := by
  rintro ⟨worker', r'⟩ hx rfl
  obtain ⟨u, hrole, hbound'⟩ := h.holder _ hx
  have hnew := h.newest r worker' ((hlives.present_of_worker ht).2 ▸ trivial)
  have hnew' := h.newest r' worker' ((hlives.present_of_worker hrole).2 ▸ trivial)
  obtain rfl : r' = r := Nat.succ.inj (hnew'.trans hnew.symm)
  by_cases hut : u = t
  · subst hut
    rw [hbound] at hbound'
    cases hbound'
  · have hapart := hlives.apart u t hut
    unfold Apart at hapart
    rw [hrole, ht] at hapart
    exact hapart ⟨rfl, rfl⟩

theorem bind {H : Tid → Held commsSignature} (h : Newest v ports G) (hlives : Lives v H G)
    (ht : (G t).role = .worker r worker) (hbound : (G t).bound = false) :
    Newest v ((worker, r) :: ports) (Function.update G t { G t with bound := true }) := by
  have hmove : Newest v ports (Function.update G t { G t with bound := true }) :=
    h.move rfl rfl (fun _ hr => hr) fun _ _ hr _ => ⟨hr, rfl⟩
  refine ⟨hmove.newest, hmove.starter, fun x hx => ?_, List.nodup_cons.mpr ⟨fun hin => ?_, h.nodup⟩⟩
  · rcases List.mem_cons.mp hx with rfl | hx
    · exact ⟨t, by rw [Function.update_self]; exact ⟨ht, rfl⟩⟩
    · exact hmove.holder x hx
  · exact h.unoccupied hlives ht hbound _ hin rfl

theorem closeServer (h : Newest v ports G) (ht : (G t).role = .worker r worker) :
    Newest v (ports.erase (worker, r)) (Function.update G t { G t with bound := false }) := by
  refine ⟨h.newest, fun u r' hu => ?_, fun x hx => ?_, h.nodup.erase _⟩
  · by_cases hut : u = t
    · subst hut
      rw [Function.update_self] at hu
      exact h.starter u r' hu
    · rw [Function.update_of_ne hut] at hu
      exact h.starter u r' hu
  · obtain ⟨hne, hx⟩ := h.nodup.mem_erase_iff.mp hx
    obtain ⟨u, hrole, hbound⟩ := h.holder x hx
    have hut : u ≠ t := by
      rintro rfl
      rw [ht] at hrole
      cases hrole
      exact hne rfl
    exact ⟨u, by rw [Function.update_of_ne hut]; exact ⟨hrole, hbound⟩⟩

end Newest

/-- A runtime is destroyed while no call uses it, and its links are taken out while no call scans
for it. With `apart` one is made while no other has a thread that runs. -/
structure Assumed (apart : Bool) (s : CommsState) (G : Tid → Duty) (i : Instr commsSignature) :
    Prop where
  destroys : ∀ r, i = .act (.destroy r) → ∀ u, (G u).role ≠ .user r
  drains : ∀ r, i = .act (.method r .drain) → ∀ u, (G u).role = .user r → (G u).purpose ≠ .scan
  news : apart = true → i = .act .newRuntime → ∀ r worker, ¬ (s.workerOf r worker).Live

def Sound (apart : Bool) (s : CommsState) (H : Tid → Held commsSignature) (G : Tid → Duty) : Prop :=
  Lives s.view H G ∧ (apart = true → Newest s.view s.ports G)

theorem ports_execMethod {s s' : CommsState} {r : RuntimePtr} {c : CommsRuntime} {e : Choice}
    {a : RuntimeAct} {x : a.Answer} (h : s.execMethod r c e a = some (x, s'))
    (hbind : ∀ worker, a ≠ .bind worker) (hclose : ∀ worker, a ≠ .closeServer worker) :
    s'.ports = s.ports := by
  cases a with
  | bind worker => exact absurd rfl (hbind worker)
  | closeServer worker => exact absurd rfl (hclose worker)
  | begin | finish | join | spawn | publish | socket =>
    simp only [CommsState.execMethod] at h
    split at h <;> cases h <;> rfl
  | _ =>
    cases h
    rfl

variable {apart : Bool} {s s' : CommsState} {H : Tid → Held commsSignature} {G : Tid → Duty} {t : Tid}
  {r : RuntimePtr} {c : CommsRuntime} {e : Choice}

theorem closes_unique {r r' : RuntimePtr} {role : Role} (h : role.Closes r') (h' : role.Closes r) :
    r' = r := by
  cases role with
  | starter r'' | owner r'' =>
    cases h
    exact h'
  | _ => exact h.elim

/-- An act that leaves the runtimes and the ports as they were, and the thread in its part. -/
theorem Sound.keep (h : Sound apart s H G) (hview : s'.view = s.view) (hports : s'.ports = s.ports) :
    Sound apart s' H (Function.update G t (G t)) := by
  rw [Function.update_eq_self, Sound, hview, hports]
  exact h

theorem Sound.leave (h : Sound apart s H G) (hview : s'.view = s.view) (hports : s'.ports = s.ports)
    {g : Duty} (hg : g.role = .idle) (hstarter : ∀ r ∈ s.view.drained, (G t).role ≠ .starter r)
    (hworker : ∀ r worker, (G t).role ≠ .worker r worker) :
    Sound apart s' H (Function.update G t g) := by
  rw [Sound, hview, hports]
  refine ⟨h.1.leave hg hstarter, fun hapart => (h.2 hapart).move rfl rfl (fun r hr => ?_)
    fun r worker hr => absurd hr (hworker r worker)⟩
  rw [hg] at hr
  cases hr

theorem sound_method (hexcludes : Discipline.Excludes H) (h : Sound apart s H G) {a : RuntimeAct}
    {x : a.Answer} (hassumed : Assumed apart s G (.act (.method r a))) (hmay : MayAct (G t) r a)
    (hc : s.runtimes.lookup r = some c) (hexec : s.execMethod r c e a = some (x, s')) :
    Sound apart s' H (Function.update G t (acted (G t) r a x)) := by
  have hworkerOf : ∀ worker, s.view.worker r worker = c.workers worker :=
    CommsState.workerOf_of_lookup hc
  have hpresent : r ∈ s.view.present := Finmap.mem_of_lookup_eq_some hc
  cases a with
  | begin worker =>
    have hports := ports_execMethod hexec (by simp) (by simp)
    simp only [CommsState.execMethod] at hexec
    split at hexec
    · rename_i hcreated
      cases hexec
      have hview := CommsState.view_setWorker hc worker .running
      have hold : s.view.worker r worker = .created := (hworkerOf worker).trans hcreated
      rw [Sound, hview, hports]
      refine ⟨h.1.begin hpresent hold hmay rfl, fun hapart => ?_⟩
      refine (h.2 hapart).setWorker (fun _ => (h.2 hapart).newest r worker (hold ▸ trivial))
        (fun r' hr' => by cases hr') fun r' worker' hr' => ?_
      rw [show (G t).role = .idle from hmay] at hr'
      cases hr'
    · cases hexec
  | finish worker =>
    have hports := ports_execMethod hexec (by simp) (by simp)
    simp only [CommsState.execMethod] at hexec
    split at hexec
    · cases hexec
      have hview := CommsState.view_setWorker hc worker .ended
      rw [Sound, hview, hports]
      refine ⟨h.1.finish hmay.1 rfl, fun hapart => ?_⟩
      refine (h.2 hapart).setWorker (fun hl => hl.elim) (fun r' hr' => by cases hr') ?_
      intro r' worker' _ hbound
      rw [hmay.2] at hbound
      cases hbound
    · cases hexec
  | join worker =>
    have hports := ports_execMethod hexec (by simp) (by simp)
    simp only [CommsState.execMethod] at hexec
    split at hexec
    · rename_i hended
      cases hexec
      have hview := CommsState.view_setWorker hc worker .joined
      have hjoined := h.1.join ((hworkerOf worker).trans hended) (t := t)
      rw [Function.update_eq_self] at hjoined
      rw [Sound, hview, hports]
      refine ⟨hjoined.note (fun r' hcloses worker' hw => ?_) id, fun hapart => ?_⟩
      · rcases hw with rfl | hw
        · rw [closes_unique hcloses hmay, View.setWorker_worker, if_pos ⟨rfl, rfl⟩]
          exact id
        · exact hjoined.gone hcloses hw
      · exact (h.2 hapart).setWorker (fun hl => hl.elim) (fun r' hr' => hr') fun _ _ hr' hb => ⟨hr', hb⟩
    · cases hexec
  | joinable worker =>
    cases hexec
    by_cases hjoinable : c.workers worker ≠ .none ∧ c.workers worker ≠ .joined
    · rw [decide_eq_true hjoinable]
      exact h.keep rfl rfl
    · rw [decide_eq_false hjoinable]
      have hdead : ¬ (s.view.worker r worker).Live := by
        rw [hworkerOf]
        intro hlive
        refine hjoinable ⟨fun heq => ?_, fun heq => ?_⟩ <;> rw [heq] at hlive <;> exact hlive
      refine ⟨h.1.note (fun r' hcloses worker' hw => ?_) id, fun hapart => ?_⟩
      · rcases hw with rfl | hw
        · exact closes_unique hcloses hmay ▸ hdead
        · exact h.1.gone hcloses hw
      · exact (h.2 hapart).move rfl rfl (fun r' hr' => hr') fun _ _ hr' hb => ⟨hr', hb⟩
  | spawn worker =>
    have hports := ports_execMethod hexec (by simp) (by simp)
    obtain ⟨hrole, hemptied, hfresh, hgone⟩ := hmay
    simp only [CommsState.execMethod] at hexec
    split at hexec
    · cases hexec
      have hview := CommsState.view_setWorker hc worker .created
      rw [Sound, hview, hports]
      refine ⟨h.1.spawn hexcludes hrole hfresh hgone hemptied, fun hapart => ?_⟩
      exact (h.2 hapart).setWorker (fun _ => (h.2 hapart).starter t r hrole) (fun r' hr' => hr')
        fun _ _ hr' hb => ⟨hr', hb⟩
    · cases hexec
      exact h.keep rfl rfl
  | drain =>
    cases hexec
    let c' : CommsRuntime :=
      { c with
        activeLinks := []
        activeLinkKeys := ∅
        drained := some c.activeLinks }
    have hview : (s.set r c').view = s.view.drain r := CommsState.view_drain hc rfl (by simp [c'])
    have hnoted : Lives s.view H (Function.update G t { G t with emptied := true }) :=
      h.1.note (fun r' hcloses worker hw => h.1.gone hcloses hw) fun _ => rfl
    have hrole : ∀ u, (Function.update G t { G t with emptied := true } u).role = (G u).role ∧
        (Function.update G t { G t with emptied := true } u).purpose = (G u).purpose := by
      intro u
      by_cases hu : u = t
      · subst hu
        simp
      · simp [hu]
    have hself : Function.update G t { G t with emptied := true } t = { G t with emptied := true } :=
      Function.update_self _ _ _
    refine ⟨?_, fun hapart => ?_⟩
    · show Lives (s.set r c').view H (Function.update G t { G t with emptied := true })
      rw [hview]
      refine hnoted.drain hexcludes (t := t) ?_ ?_ ?_ fun u hu => ?_
      · rw [hself]
        exact hmay.1
      · rw [hself]
        exact hmay.2
      · rw [hself]
      · rw [(hrole u).2]
        exact hassumed.drains r rfl u ((hrole u).1 ▸ hu)
    · show Newest (s.set r c').view s.ports (Function.update G t { G t with emptied := true })
      rw [hview]
      exact (h.2 hapart).move rfl rfl (fun r' hr' => hr') fun _ _ hr' hb => ⟨hr', hb⟩
  | registerCallback instrumentType callbackType callback =>
    have hview := CommsState.view_execMethod hc hexec (by simp) (by simp) (by simp) (by simp) (by simp)
    have hports := ports_execMethod hexec (by simp) (by simp)
    have hrole : (G t).role = .user r := hmay
    exact h.leave hview hports rfl (fun _ _ => by simp [hrole]) fun _ _ => by simp [hrole]
  | readLinks instrumentType =>
    cases hexec
    have hrole : (G t).role = .user r := hmay
    exact h.leave rfl rfl rfl (fun _ _ => by simp [hrole]) fun _ _ => by simp [hrole]
  | bind worker =>
    simp only [CommsState.execMethod] at hexec
    split at hexec
    · split at hexec <;> cases hexec
      refine ⟨?_, fun hapart => (h.2 hapart).bind h.1 hmay.1 hmay.2⟩
      exact h.1.note (fun r' hcloses worker hw => h.1.gone hcloses hw) id
    · cases hexec
      exact h.keep rfl rfl
  | closeServer worker =>
    cases hexec
    refine ⟨?_, fun hapart => (h.2 hapart).closeServer hmay⟩
    exact h.1.note (fun r' hcloses worker hw => h.1.gone hcloses hw) id
  | _ =>
    have hview := CommsState.view_execMethod hc hexec (by simp) (by simp) (by simp) (by simp) (by simp)
    have hports := ports_execMethod hexec (by simp) (by simp)
    exact h.keep hview hports

theorem sound_newRuntime (hexcludes : Discipline.Excludes H) (h : Sound apart s H G)
    (hassumed : Assumed apart s G (.act .newRuntime)) (ht : (G t).role = .vacant) {g : Duty}
    (hg : g.role = .starter s.created) (hgone : g.gone = ∅)
    (hruntimes : s'.runtimes = s.runtimes.insert s.created {})
    (hcurrent : s'.gRuntime = some s.created) (hcreated : s'.created = s.created + 1)
    (hports : s'.ports = s.ports) : Sound apart s' H (Function.update G t g) := by
  have hself := h.1.sits t
  unfold Sits at hself
  rw [ht] at hself
  rw [Sound, CommsState.view_new hruntimes hcurrent hcreated, hports]
  refine ⟨h.1.create hexcludes ht hg hgone, fun hapart => (h.2 hapart).create ?_ hg ?_ ?_⟩
  · exact hassumed.news hapart rfl
  · exact fun u hu => (h.1.not_locked hexcludes hself.1 hu).2
  · simp [ht]

theorem sound_erase (h : Sound apart s H G) (hcloses : (G t).role.Closes r)
    (hgone : (G t).gone = Set.univ) (husers : ∀ u, (G u).role ≠ .user r)
    (hstarters : ∀ u, u ≠ t → (G u).role ≠ .starter r) {g : Duty} (hg : g.role = .idle)
    (hruntimes : s'.runtimes = s.runtimes.erase r) (hcreated : s'.created = s.created)
    (hports : s'.ports = s.ports) (hne : s'.gRuntime ≠ some r)
    (hcurrent : s'.gRuntime = s.gRuntime ∨ s'.gRuntime = none ∧ s.gRuntime = some r) :
    Sound apart s' H (Function.update G t g) := by
  rw [Sound, CommsState.view_erase hruntimes hcreated, hports]
  refine ⟨h.1.erase hcloses hgone husers hstarters hg hne hcurrent, fun hapart =>
    (h.2 hapart).erase hg fun r' worker hr' => ?_⟩
  rw [hr'] at hcloses
  exact hcloses

theorem lifetimes_sound : lifetimeDiscipline.SoundAtRest (fun g => g.role = .idle) (Sound apart)
    fun s G _ _ i => Assumed apart s G i where
  rest f r g h := h
  start s H G t f h _ hidle :=
    h.leave rfl rfl rfl (fun _ _ => by simp [hidle]) fun _ _ => by simp [hidle]
  lock s H G t f l m hexcludes h _ hmay _ := by
    obtain ⟨hidle, -, -⟩ := hmay
    have hlives := h.1.relock (t := t) (h := (l, m) :: H t) (by
      unfold Sits
      rw [hidle]
      trivial)
    exact ⟨by rwa [Function.update_eq_self], fun hapart => by
      rw [Function.update_eq_self]
      exact h.2 hapart⟩
  unlock s H G t l m hexcludes h hheld hmay := by
    have hself : Sits s.view ((H t).erase (l, m)) (G t) := by
      have hold := h.1.sits t
      unfold Sits at hold ⊢
      cases hrole : (G t).role with
      | vacant => exact absurd hrole hmay.1
      | starter r => exact absurd hrole (hmay.2 r)
      | idle => simp only
      | user | owner | worker =>
        simp only [hrole] at hold ⊢
        exact hold
    rw [Function.update_eq_self]
    exact ⟨h.1.relock hself, h.2⟩
  call f p h g := by
    rintro (⟨r, worker, rfl, hg⟩ | ⟨r, rfl, hg⟩)
    · exact obeys_serverRounds hg
    · exact obeys_discoveryRounds hg
  act s H G t f a e x s' hexcludes h hassumed hmay hexec := by
    refine ⟨trivial, ?_⟩
    cases a with
    | currentRuntime =>
      cases hexec
      refine ⟨h.1.find hexcludes hmay.1 hmay.2, fun hapart => (h.2 hapart).move rfl rfl ?_ ?_⟩
      · intro r hr
        have hfound : found (G t) s.gRuntime = .starter r := hr
        rcases Lives.found_cases (G t) s.gRuntime with heq | heq | ⟨r', heq⟩ <;> rw [heq] at hfound <;>
          cases hfound
      · intro r worker hr
        rw [hmay.2] at hr
        cases hr
    | newRuntime =>
      cases hexec
      exact sound_newRuntime hexcludes h hassumed hmay rfl rfl rfl rfl rfl rfl
    | resetRuntime r =>
      obtain ⟨hrole, hgone⟩ := hmay
      obtain ⟨hguarded, -, hcurrent, -⟩ := h.1.starter hrole
      have hrun : s.exec e (.resetRuntime r) = some (x, s') := hexec
      simp only [CommsState.exec] at hrun
      split at hrun <;> cases hrun
      refine sound_erase h (hrole ▸ rfl) hgone (fun u hu => ?_) (fun u hu => ?_) rfl rfl rfl rfl
        (by simp) (Or.inr ⟨rfl, hcurrent⟩)
      · have hut : u ≠ t := by
          rintro rfl
          rw [hrole] at hu
          cases hu
        have hapart := h.1.apart u t hut
        unfold Apart at hapart
        rw [hu, hrole] at hapart
        exact hapart rfl
      · exact (h.1.not_locked hexcludes hguarded hu).2 r
    | retain =>
      cases hexec
      refine h.leave rfl rfl rfl (fun r hr hrole => ?_) fun r worker hrole => ?_
      · rcases hmay.2 with hidle | ⟨hemptied, -⟩
        · rw [hrole] at hidle
          cases hidle
        · rw [(h.1.starter hrole).2.2.2 hr] at hemptied
          cases hemptied
      · rcases hmay.2 with hidle | ⟨-, r', hstarter⟩
        · rw [hrole] at hidle
          cases hidle
        · rw [hrole] at hstarter
          cases hstarter
    | release =>
      have hrun : s.exec e .release = some (x, s') := hexec
      have hnone : ∀ s'' : CommsState, s''.view = s.view → s''.ports = s.ports →
          Sound apart s'' H (Function.update G t { G t with role := .idle, gone := ∅ }) :=
        fun s'' hview hports => h.leave hview hports rfl (fun _ _ => by simp [hmay.2])
          fun _ _ => by simp [hmay.2]
      simp only [CommsState.exec] at hrun
      split at hrun
      · cases hrun
        exact hnone _ rfl rfl
      · split at hrun
        · cases hrun
          rcases hcurrent : s.gRuntime with _ | r
          · refine hnone _ ?_ rfl
            rw [CommsState.view, CommsState.view, hcurrent]
            rfl
          · refine ⟨h.1.release hexcludes hmay.1 hcurrent rfl rfl, fun hapart =>
              (h.2 hapart).move rfl rfl (fun r' hr' => by cases hr') fun r' worker hr' => ?_⟩
            rw [hmay.2] at hr'
            cases hr'
        · cases hrun
          exact hnone _ rfl rfl
    | destroy r =>
      obtain ⟨hrole, hgone⟩ := hmay
      have hcurrent := (h.1.owner hrole).2
      have hrun : s.exec e (.destroy r) = some (x, s') := hexec
      simp only [CommsState.exec] at hrun
      split at hrun <;> cases hrun
      refine sound_erase h (hrole ▸ rfl) hgone (hassumed.destroys r rfl) (fun u _ hu => ?_) rfl rfl rfl
        rfl hcurrent (Or.inl rfl)
      exact hcurrent (h.1.starter hu).2.2.1
    | method r a =>
      have hrun : s.exec e (.method r a) = some (x, s') := hexec
      simp only [CommsState.exec] at hrun
      split at hrun
      · rename_i c hc
        exact sound_method hexcludes h hassumed hmay hc hrun
      · cases hrun

/-! ## Runs -/

/-- A runtime is given to a call for the purpose of the call. -/
def Meant (f : Call) (g : Duty) : Prop :=
  g.purpose = f.purpose ∧ ∀ r, g.role = .user r → g.purpose = .use ∨ g.purpose = .scan

theorem meant_acted {f : Call} {h : Held commsSignature} {g : Duty} {a : CommsAct} {x : a.Answer}
    (hg : Meant f g) : Meant f (lifetimeDiscipline.acted h g a x) := by
  have hsame : ∀ g' : Duty, g'.purpose = g.purpose → (∀ r, g'.role ≠ .user r) → Meant f g' :=
    fun g' hpurpose hrole => ⟨hpurpose.trans hg.1, fun r hr => absurd hr (hrole r)⟩
  cases a with
  | currentRuntime =>
    refine ⟨hg.1, fun r hr => ?_⟩
    cases x with
    | none =>
      have hfound : found g none = .user r := hr
      simp only [found] at hfound
      split at hfound <;> cases hfound
    | some r' =>
      have hfound : found g (some r') = .user r := hr
      simp only [found] at hfound
      split at hfound
      · assumption
      · cases hfound
  | newRuntime => exact hsame _ rfl (by simp)
  | resetRuntime | retain | destroy => exact hsame _ rfl (by simp)
  | release =>
    refine hsame _ rfl fun r => ?_
    cases x <;> simp
  | method r a =>
    cases a with
    | begin | finish | registerCallback | readLinks => exact hsame _ rfl (by simp [acted])
    | spawn worker => cases x <;> exact hg
    | joinable worker => cases x <;> exact hg
    | bind worker => cases x <;> exact hg
    | _ => exact hg

/-- What is known of every thread in every run: the discipline, and what the calls are for. -/
structure Living (apart : Bool) (w : World commsSystem) (G : Tid → Duty) : Prop where
  follows : lifetimeDiscipline.FollowsAtRest (fun g => g.role = .idle) (Sound apart) w G
  meant : ∀ t f p, w.thread t = some (f, p) → Meant f (G t)

variable {w : World commsSystem}

theorem Living.next (h : Living apart w G) {op : Op commsSystem} (hop : w.enabled op = true)
    (hmeets : Discipline.MeetsKnowing (D := lifetimeDiscipline) Call.Api
      (fun s G _ _ i => Assumed apart s G i) w G op) :
    Living apart (w.next op) (lifetimeDiscipline.track w G op) :=
  ⟨h.follows.next lifetimes_sound lifetimes_cover hop hmeets,
    Discipline.track_labelled (fun f s => ⟨rfl, fun r hr => by cases hr⟩)
      (fun _ _ _ _ _ _ hg => hg) (fun _ _ _ _ _ hg => hg) (fun _ _ _ _ _ hg => meant_acted hg)
      h.meant hop⟩

theorem living_start : Living apart (World.quiet .initial) (fun _ => {}) := by
  refine ⟨⟨Discipline.follows_quiet ⟨⟨?_, ?_, fun t => trivial, fun t u _ => trivial, ?_, ?_⟩, ?_⟩,
    fun _ _ => rfl⟩, fun t f p hthread => (by cases hthread)⟩
  · exact fun r hr => absurd hr (Finmap.notMem_empty (a := r))
  · exact fun r hr => by cases hr
  · exact fun r hr => absurd rfl hr
  · exact fun r hr => absurd rfl hr
  · exact fun _ => ⟨fun r worker hl => hl.elim, fun t r hr => (by cases hr),
      fun x hx => absurd hx List.not_mem_nil, List.nodup_nil⟩

end Lifetimes

end SensorLib.Comms
