import SensorLib.Comms.Closing

/-! # The programs keep to the order in which a runtime is stopped -/

namespace SensorLib.Comms

open Threads CommsRuntime

namespace Lifetimes

/-- The acts that do not depend on how far a thread is. -/
def Plain : CommsAct → Prop
  | .method _ a =>
    match a with
    | .begin _ | .claimRunning | .joinable _ | .join _ => False
    | _ => True
  | _ => True

/-- The thread runs a call of the API, or one of a runtime's threads. -/
def OfKind (client : Bool) (g : Closing) : Prop := g.client = client

theorem plain_keeps {f : Call} {h : Held commsSignature} {client : Bool} {a : CommsAct}
    (ha : Plain a) {g : Closing} (hg : OfKind client g) :
    closingDiscipline.mayAct f h g a ∧
      ∀ x, closingDiscipline.answers h g a x → OfKind client (closingDiscipline.acted h g a x) := by
  cases a with
  | method r a =>
    cases a with
    | begin | claimRunning | joinable | join => exact ha.elim
    | _ => exact ⟨trivial, fun _ _ => hg⟩
  | _ => exact ⟨trivial, fun _ _ => hg⟩

theorem plain_of_scans {r : RuntimePtr} {a : CommsAct} (ha : Scans r a) : Plain a := by
  cases a with
  | method r' a =>
    obtain ⟨-, ha⟩ := ha
    cases a <;> first | exact ha.elim | trivial
  | _ => exact ha.elim

section Programs

variable {f : Call} {h : Held commsSignature} {client : Bool} {α : Type}

/-- A program that waits for no thread and takes no lock. -/
theorem remains_plain {p : Program α} (hp : p.Only Plain) :
    closingDiscipline.Remains f (OfKind client) p h :=
  Discipline.remains_only (fun _ ha _ hg => plain_keeps ha hg) hp

theorem remains_scanOnce {r : RuntimePtr} :
    closingDiscipline.Remains f (OfKind client) (scanOnce r) h :=
  Discipline.remains_only (fun _ ha _ hg => plain_keeps (plain_of_scans ha) hg) scans_scanOnce

/-- One act, and what comes behind it. -/
theorem obeys_plain {a : CommsAct} (ha : Plain a) {k : a.Answer → Program α} {g : Closing}
    (hg : OfKind client g) {Q : α → Held commsSignature → Closing → Prop}
    (hk : ∀ x g', OfKind client g' → closingDiscipline.Obeys f (k x) h g' Q) :
    closingDiscipline.Obeys f (.act (S := commsSignature) a k) h g Q := by
  obtain ⟨hmay, hacted⟩ := plain_keeps (f := f) (h := h) ha hg
  exact ⟨hmay, fun x hx => hk x _ (hacted x hx)⟩

theorem remains_serverRounds {r : RuntimePtr} {worker : Worker} :
    closingDiscipline.Remains f (OfKind false) (serverRounds r worker) h := by
  intro g hg
  refine obeys_plain (a := .method r .isRunning) trivial hg fun running g hg => ?_
  cases running with
  | false => exact ⟨rfl, hg⟩
  | true =>
    refine obeys_plain (a := .method r (.serve worker)) trivial hg fun served g hg => ?_
    cases served with
    | again =>
      refine ⟨⟨trivial, hg⟩, ?_⟩
      rintro _ _ g' ⟨rfl, hg'⟩
      exact ⟨rfl, hg'.trans hg⟩
    | failed => exact ⟨rfl, hg⟩

theorem remains_discoveryRounds {r : RuntimePtr} :
    closingDiscipline.Remains f (OfKind false) (discoveryRounds r) h := by
  intro g hg
  refine obeys_plain (a := .method r .isRunning) trivial hg fun running g hg => ?_
  cases running with
  | false => exact ⟨rfl, hg⟩
  | true =>
    refine remains_scanOnce.bind hg fun _ g hg => ?_
    refine obeys_plain (a := .method r .waitForStop) trivial hg fun _ g hg => ?_
    refine ⟨⟨trivial, hg⟩, ?_⟩
    rintro _ _ g' ⟨rfl, hg'⟩
    exact ⟨rfl, hg'.trans hg⟩

theorem remains_runServer {r : RuntimePtr} {worker : Worker} :
    closingDiscipline.Remains f (OfKind false) (runServer r worker) h := by
  have hclose : closingDiscipline.Remains f (OfKind false) (method r (.closeServer worker)) h :=
    remains_plain ⟨trivial, fun _ => trivial⟩
  have hlisten : closingDiscipline.Remains f (OfKind false) (listenServer r worker) h := by
    apply remains_plain
    cases worker with
    | bluetoothServer => exact ⟨trivial, fun _ => trivial⟩
    | udpServer | discovery => trivial
  intro g hg
  refine obeys_plain (a := .method r (.openServer worker)) trivial hg fun opened g hg => ?_
  cases opened with
  | false => exact ⟨rfl, hg⟩
  | true =>
    refine obeys_plain (a := .method r (.bind worker)) trivial hg fun bound g hg => ?_
    cases bound with
    | false => exact hclose g hg
    | true =>
      refine hlisten.bind hg fun listening g hg => ?_
      cases listening with
      | false => exact hclose g hg
      | true =>
        refine ⟨⟨trivial, hg⟩, ?_⟩
        rintro _ _ g' ⟨rfl, hg'⟩
        exact hclose g' (hg'.trans hg)

/-- A thread of a runtime, from its begin to its end. -/
theorem obeys_worker {r : RuntimePtr} (worker : Worker) {p : Program α}
    (hp : ∀ g, OfKind false g → closingDiscipline.Obeys f p [] g fun _ h' g' =>
      h' = [] ∧ OfKind false g') {g : Closing} (hg : OfKind false g) :
    closingDiscipline.Obeys f (do
      method r (.begin worker)
      let _ ← p
      method r (.finish worker)
      pure .done : Program CallResult) [] g fun _ h' _ => h' = [] ∧ True := by
  refine ⟨hg, fun _ _ => ?_⟩
  refine Discipline.Obeys.bind (p := p) (hp _ hg) ?_
  rintro _ _ g' ⟨rfl, hg'⟩
  exact ⟨trivial, fun _ _ => ⟨rfl, trivial⟩⟩

/-- The flag is cleared before the threads are waited for. -/
theorem remains_joinWorkers {r : RuntimePtr} (client : Bool) (workers : List Worker) :
    closingDiscipline.Remains f (fun g => g.stopped = true ∧ g.client = client)
      (joinWorkers r workers) h := by
  induction workers with
  | nil => exact fun g hg => ⟨rfl, hg⟩
  | cons worker workers ih =>
    intro g hg
    refine ⟨hg.1, fun joinable _ => ?_⟩
    cases joinable with
    | false => exact ih _ hg
    | true => exact ⟨⟨hg.1, rfl⟩, fun _ _ => ih _ hg⟩

theorem remains_stop {r : RuntimePtr} : closingDiscipline.Remains f (OfKind client) (stop r) h := by
  intro g hg
  refine ⟨trivial, fun _ _ => (remains_joinWorkers client _).bind ⟨rfl, hg⟩ ?_⟩
  rintro _ g ⟨-, hg⟩
  refine obeys_plain (a := .method r .drain) trivial hg fun dropped g hg => ?_
  refine obeys_plain (a := .method r .dropCallback) trivial hg fun callback g hg => ?_
  refine remains_plain (p := announceDropped r callback dropped) ?_ g hg
  cases callback with
  | none => trivial
  | some callback =>
    show (dropLinks r callback dropped).Only Plain
    induction dropped with
    | nil => trivial
    | cons info dropped ih => exact ⟨trivial, fun _ => ih⟩

theorem keeps_start {r : RuntimePtr} {g : Closing} (hg : g.stopped = false) :
    closingDiscipline.Obeys f (start r) h g fun _ h' g' => h' = h ∧ g'.client = g.client := by
  refine ⟨hg, fun claimed _ => ?_⟩
  cases claimed with
  | false => exact ⟨rfl, rfl⟩
  | true =>
    have hspawn : ∀ workers : List Worker, (spawnWorkers r workers).Only Plain := by
      intro workers
      induction workers with
      | nil => trivial
      | cons worker workers ih =>
        refine ⟨trivial, fun spawned => ?_⟩
        cases spawned with
        | false => trivial
        | true => exact ih
    have hkeeps : ∀ workers, closingDiscipline.Remains f (OfKind g.client) (spawnWorkers r workers) h :=
      fun workers => remains_plain (hspawn workers)
    refine (hkeeps _).bind rfl fun spawned g' hg' => ?_
    cases spawned with
    | true => exact ⟨rfl, hg'⟩
    | false =>
      refine obeys_plain (a := .method r .stopRunning) trivial hg' fun _ g' hg' => ?_
      exact remains_stop.bind hg' fun _ g' hg' => ⟨rfl, hg'⟩

/-- A section of a call of the API. -/
theorem obeys_section {p : Program α} {g : Closing} (hg : OfKind true g)
    {Q : α → Held commsSignature → Closing → Prop}
    (hp : closingDiscipline.Obeys f p ((.gRuntime, .exclusive) :: h) g fun a h' g' =>
      h' = (.gRuntime, .exclusive) :: h ∧ Q a h g') :
    closingDiscipline.Obeys f (locked p) h g Q := by
  refine Discipline.obeys_locked.mpr ⟨hg, hp.mono ?_⟩
  rintro a _ g' ⟨rfl, hQ⟩
  refine ⟨List.mem_cons_self, trivial, ?_⟩
  rwa [List.erase_cons_head]

/-- What a call of the API does on the runtime that it finds. -/
theorem obeys_found {p : Option RuntimePtr → Program α} {g : Closing} (hg : OfKind true g)
    (hp : ∀ found, closingDiscipline.Remains f (OfKind true) (p found) h) :
    closingDiscipline.Obeys f (getRuntime.bind p) h g fun _ h' _ => h' = h := by
  refine Discipline.obeys_bind.mpr (obeys_section hg ?_)
  refine obeys_plain (a := .currentRuntime) trivial hg fun found g hg => ⟨rfl, ?_⟩
  apply (hp found g hg).mono
  rintro a h' g' ⟨rfl, -⟩
  rfl

theorem obeys_commsRuntimeInitialize {config : Bool} {g : Closing} (hg : g.client = true) :
    closingDiscipline.Obeys f (commsRuntimeInitialize config) h g fun _ h' _ => h' = h := by
  cases config with
  | false => rfl
  | true =>
    refine obeys_section hg ?_
    refine obeys_plain (a := .currentRuntime) trivial hg fun current g hg => ?_
    cases current with
    | some r => exact ⟨trivial, fun _ _ => ⟨rfl, rfl⟩⟩
    | none =>
      refine ⟨trivial, fun r _ => ?_⟩
      refine Discipline.Obeys.bind (p := start r) (keeps_start rfl) ?_
      rintro status _ g' ⟨rfl, -⟩
      show closingDiscipline.Obeys f (if status ≠ .success then _ else _) _ _ _
      split
      · exact ⟨trivial, fun _ _ => ⟨rfl, rfl⟩⟩
      · exact ⟨trivial, fun _ _ => ⟨rfl, rfl⟩⟩

theorem obeys_commsRuntimeShutdown {g : Closing} (hg : g.client = true) :
    closingDiscipline.Obeys f commsRuntimeShutdown h g fun _ h' _ => h' = h := by
  refine Discipline.obeys_bind.mpr (obeys_section hg ?_)
  refine obeys_plain (a := .release) trivial hg fun runtimeToStop g hg => ⟨rfl, ?_⟩
  cases runtimeToStop with
  | none => rfl
  | some r =>
    refine Discipline.obeys_bind.mpr ((remains_stop g hg).mono ?_)
    rintro _ _ g' ⟨rfl, -⟩
    exact ⟨trivial, fun _ _ => rfl⟩

theorem closing_cover : closingDiscipline.Covers Call.Api := by
  intro f s hf
  cases f with
  | commsRuntimeInitialize config =>
    refine Discipline.Obeys.bind (p := commsRuntimeInitialize config)
      (obeys_commsRuntimeInitialize rfl) ?_
    rintro _ _ _ rfl
    exact ⟨rfl, trivial⟩
  | commsRuntimeShutdown =>
    refine Discipline.Obeys.bind (p := commsRuntimeShutdown) (obeys_commsRuntimeShutdown rfl) ?_
    rintro _ _ _ rfl
    exact ⟨rfl, trivial⟩
  | commsRuntimeRegisterCallback instrumentType callbackType inputData =>
    refine Discipline.Obeys.bind
      (p := commsRuntimeRegisterCallback instrumentType callbackType inputData)
      (obeys_found rfl fun found => ?_) ?_
    · apply remains_plain
      cases found with
      | none => trivial
      | some r =>
        cases inputData with
        | none => trivial
        | some callback => exact ⟨trivial, fun _ => trivial⟩
    · rintro _ _ _ rfl
      exact ⟨rfl, trivial⟩
  | commsRuntimeUnregisterCallback instrumentType callbackType =>
    refine Discipline.Obeys.bind (p := commsRuntimeUnregisterCallback instrumentType callbackType)
      (obeys_found rfl fun found => ?_) ?_
    · apply remains_plain
      cases found with
      | none => trivial
      | some r => exact ⟨trivial, fun _ => trivial⟩
    · rintro _ _ _ rfl
      exact ⟨rfl, trivial⟩
  | commsRuntimeDiscoverLinks instrumentType output =>
    refine Discipline.Obeys.bind (p := commsRuntimeDiscoverLinks instrumentType output)
      (obeys_found rfl fun found => ?_) ?_
    · cases found with
      | none => exact remains_plain trivial
      | some r =>
        cases output with
        | false => exact remains_plain trivial
        | true =>
          intro g hg
          refine remains_scanOnce.bind hg fun _ g hg => ?_
          exact obeys_plain (a := .method r (.readLinks instrumentType)) trivial hg
            fun _ g hg => ⟨rfl, hg⟩
    · rintro _ _ _ rfl
      exact ⟨rfl, trivial⟩
  | udpServerLoop r | bluetoothServerLoop r =>
    exact obeys_worker _ (fun _ hg => remains_runServer _ hg) rfl
  | discoveryLoop r =>
    refine obeys_worker .discovery (p := invoke (.discoveryRounds r)) (fun g hg => ?_) rfl
    refine ⟨⟨trivial, hg⟩, ?_⟩
    rintro _ _ g' ⟨rfl, hg'⟩
    exact ⟨rfl, hg'.trans hg⟩
  | _ => exact hf.elim

end Programs

/-- With the first discipline, the second one keeps track of what is stopped. -/
theorem closing_sound : Discipline.SoundBeside lifetimeDiscipline closingDiscipline
    (fun g => g.role = .idle) (Sound false) Stops where
  start s H G G' t f h hheld hidle := by
    apply h.leave
    · exact fun _ hr => hr
    · exact fun _ _ _ _ _ hr => hr
    · exact fun _ _ hr => hr
    · exact fun _ hr => hr
    · intro r worker hr
      rw [hidle] at hr
      cases hr
    · exact fun hne => absurd hheld hne
  lock s H G G' t f l m h hmay hmay' := by
    rw [Function.update_eq_self, Function.update_eq_self]
    refine ⟨h.stopped, h.joins, h.served, fun u => ?_⟩
    by_cases hu : u = t
    · subst hu
      rw [Function.update_self, hmay.2.1, hmay.2.2]
      exact Or.inr ⟨rfl, hmay'⟩
    · rw [Function.update_of_ne hu]
      exact h.held u
  unlock s H G G' t l m h hmem := by
    rw [Function.update_eq_self, Function.update_eq_self]
    refine ⟨h.stopped, h.joins, h.served, fun u => ?_⟩
    by_cases hu : u = t
    · subst hu
      rw [Function.update_self]
      rcases h.held u with hnone | ⟨hone, -⟩
      · rw [hnone] at hmem
        cases hmem
      · rw [hone, List.mem_singleton] at hmem
        rw [hone, hmem, List.erase_cons_head]
        exact Or.inl rfl
    · rw [Function.update_of_ne hu]
      exact h.held u
  act s H G G' t f a e x s' hexcludes hI h hmay hmay' hexec := by
    cases a with
    | currentRuntime =>
      cases hexec
      have hidle : (G t).role = .idle := hmay.2
      refine h.keep rfl rfl (fun r hr => absurd hr closes_of_found) (fun r worker hr => ?_) id rfl rfl
      rw [hidle] at hr
      cases hr
    | newRuntime =>
      cases hexec
      exact stops_newRuntime hI.1 h hmay rfl rfl
    | resetRuntime r =>
      have hrun : s.exec e (.resetRuntime r) = some (x, s') := hexec
      simp only [CommsState.exec] at hrun
      split at hrun <;> cases hrun
      exact stops_erase hexcludes hI.1 h (hmay.1 ▸ rfl) rfl rfl rfl
    | retain =>
      cases hexec
      apply h.leave
      · exact fun _ hr => hr
      · exact fun _ _ _ _ _ hr => hr
      · exact fun _ _ hr => hr
      · exact fun _ hr => hr
      · intro r worker hr
        rcases hmay.2 with hidle | ⟨-, r', hstarter⟩
        · rw [hr] at hidle
          cases hidle
        · rw [hr] at hstarter
          cases hstarter
      · exact fun _ => rfl
    | release =>
      have hidle : (G t).role = .idle := hmay.2
      have hrun : s.exec e .release = some (x, s') := hexec
      have hruntimes : s'.runtimes = s.runtimes := by
        simp only [CommsState.exec] at hrun
        split at hrun
        · cases hrun
          rfl
        · split at hrun <;> cases hrun <;> rfl
      have hrunning : s'.runningOf = s.runningOf := by
        funext r
        rw [CommsState.runningOf, hruntimes]
        rfl
      have hworkers : s'.workerOf = s.workerOf := by
        funext r worker
        rw [CommsState.workerOf, hruntimes]
        rfl
      apply h.step
      · intro u _ r _ hr
        rwa [hrunning]
      · intro u _ r worker _ hr
        rwa [Joinable, hworkers]
      · intro r _ hstop
        cases hstop
      · intro r worker _ hjoin
        cases hjoin
      · intro r worker hserves
        rw [hworkers] at hserves
        obtain ⟨u, hu⟩ := h.served r worker hserves
        refine Or.inr ⟨u, ?_, hu⟩
        rintro rfl
        rw [hidle] at hu
        cases hu
      · exact fun _ => rfl
    | destroy r =>
      have hrun : s.exec e (.destroy r) = some (x, s') := hexec
      simp only [CommsState.exec] at hrun
      split at hrun <;> cases hrun
      exact stops_erase hexcludes hI.1 h (hmay.1 ▸ rfl) rfl rfl rfl
    | method r a =>
      have hrun : s.exec e (.method r a) = some (x, s') := hexec
      simp only [CommsState.exec] at hrun
      split at hrun
      · rename_i c hc
        exact stops_method hexcludes hI.1 h hmay hmay' hc hrun
      · cases hrun
  answers _ _ _ _ := trivial
  call f p h g := by
    rintro ⟨hrounds, hclient⟩
    have hkeeps : ∀ h' (g' : Closing), h' = h ∧ OfKind false g' → h' = h ∧ g'.client = g.client :=
      fun _ _ hr => ⟨hr.1, hr.2.trans hclient.symm⟩
    cases p with
    | serverRounds r worker =>
      exact (remains_serverRounds g hclient).mono fun _ h' g' => hkeeps h' g'
    | discoveryRounds r =>
      exact (remains_discoveryRounds g hclient).mono fun _ h' g' => hkeeps h' g'
    | _ => exact hrounds.elim

end Lifetimes

end SensorLib.Comms
