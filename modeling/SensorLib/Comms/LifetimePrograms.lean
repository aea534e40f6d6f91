import SensorLib.Comms.Lifetimes

/-! # The functions of the API keep to the discipline of lifetimes -/

namespace SensorLib.Comms

open Threads Lifetimes CommsRuntime

namespace Lifetimes

variable {r : RuntimePtr} {f : Call} {h : Held commsSignature} {g : Duty}

/-- The thread may scan. -/
def Scanner (g : Duty) (r : RuntimePtr) : Prop :=
  g.role = .user r ∧ g.purpose = .scan ∨ g.role = .worker r .discovery

/-- The acts of a scan. -/
def Scans (r : RuntimePtr) : CommsAct → Prop
  | .method r' a => r' = r ∧ match a with
    | .discoverBluetooth | .discoverWifi | .see _ | .deviceDiscovered .. | .socket | .setRemote ..
    | .connect _ | .send _ | .recv _ | .close _ | .publish _ | .linkDiscovered .. => True
    | _ => False
  | _ => False

theorem scanner_keeps {a : CommsAct} (ha : Scans r a) (hg : Scanner g r) :
    lifetimeDiscipline.mayAct f h g a ∧ ∀ x, lifetimeDiscipline.acted h g a x = g := by
  cases a with
  | method r' a =>
    obtain ⟨rfl, ha⟩ := ha
    cases a with
    | discoverBluetooth | discoverWifi | see | deviceDiscovered | socket | setRemote | connect
    | send | recv | close | publish | linkDiscovered => exact ⟨hg, fun _ => rfl⟩
    | _ => exact ha.elim
  | _ => exact ha.elim

theorem scans_attemptHandshake {address : String} {link : Int → ActiveLink} :
    (attemptHandshake r address link).Only (Scans r) := by
  have hgiveUp : ∀ fd, Prog.Only (S := commsSignature) (Scans r) (giveUp r fd) := fun fd =>
    ⟨⟨rfl, trivial⟩, fun _ => trivial⟩
  refine ⟨⟨rfl, trivial⟩, fun fd => ?_⟩
  show Prog.Only (S := commsSignature) (Scans r) (ite _ _ _)
  split
  · trivial
  · refine ⟨⟨rfl, trivial⟩, fun ok => ?_⟩
    cases ok with
    | false => exact hgiveUp fd
    | true =>
      refine ⟨⟨rfl, trivial⟩, fun ok => ?_⟩
      cases ok with
      | false => exact hgiveUp fd
      | true =>
        refine ⟨⟨rfl, trivial⟩, fun ok => ?_⟩
        cases ok with
        | false => exact hgiveUp fd
        | true =>
          refine ⟨⟨rfl, trivial⟩, fun received => ?_⟩
          cases received with
          | none => exact hgiveUp fd
          | some buffer =>
            show Prog.Only (S := commsSignature) (Scans r) (ite _ _ _)
            split
            · trivial
            · exact hgiveUp fd

theorem scans_tryPeer {shouldAttempt : Bool} {peer : Peer} :
    (tryPeer r shouldAttempt peer).Only (Scans r) := by
  cases shouldAttempt with
  | false => trivial
  | true =>
    have hattempt : (attempt r peer).Only (Scans r) := by
      cases peer <;> exact scans_attemptHandshake
    refine hattempt.bind fun link => ?_
    cases link with
    | none => trivial
    | some link =>
      refine ⟨⟨rfl, trivial⟩, fun callback => ?_⟩
      cases callback with
      | none => trivial
      | some callback => exact ⟨⟨rfl, trivial⟩, fun _ => trivial⟩

theorem scans_scanPeers (peers : List Peer) : (scanPeers r peers).Only (Scans r) := by
  induction peers with
  | nil => trivial
  | cons peer peers ih =>
    refine ⟨⟨rfl, trivial⟩, fun x => ?_⟩
    have hannounce : (announce r x.1 peer).Only (Scans r) := by
      cases x.1 with
      | none => trivial
      | some callback => exact ⟨⟨rfl, trivial⟩, fun _ => trivial⟩
    exact hannounce.bind fun _ => scans_tryPeer.bind fun _ => ih

theorem scans_scanOnce : (scanOnce r).Only (Scans r) := by
  have hbluetooth : (scanBluetoothLinks r).Only (Scans r) := by
    refine ⟨⟨rfl, trivial⟩, fun devices => ?_⟩
    cases devices with
    | none => trivial
    | some devices => exact scans_scanPeers _
  exact hbluetooth.bind fun _ => ⟨⟨rfl, trivial⟩, fun candidates => scans_scanPeers _⟩

theorem keeps_scanOnce (hg : Scanner g r) : lifetimeDiscipline.Keeps f (scanOnce r) h g :=
  Discipline.keeps_only (fun _ ha => scanner_keeps ha hg) scans_scanOnce

/-! ## The threads of a runtime -/

theorem obeys_serverRounds {worker : Worker} (hg : g.role = .worker r worker) :
    lifetimeDiscipline.Keeps f (serverRounds r worker) h g := by
  refine ⟨⟨worker, hg⟩, fun running _ => ?_⟩
  cases running with
  | false => exact ⟨rfl, rfl⟩
  | true =>
    refine ⟨hg, fun served _ => ?_⟩
    cases served with
    | again => exact ⟨Or.inl ⟨r, worker, rfl, hg⟩, fun _ _ _ hreturns => hreturns⟩
    | failed => exact ⟨rfl, rfl⟩

theorem obeys_discoveryRounds (hg : g.role = .worker r .discovery) :
    lifetimeDiscipline.Keeps f (discoveryRounds r) h g := by
  refine ⟨⟨.discovery, hg⟩, fun running _ => ?_⟩
  cases running with
  | false => exact ⟨rfl, rfl⟩
  | true =>
    refine (keeps_scanOnce (Or.inr hg)).bind fun _ => ?_
    exact ⟨hg, fun _ _ => ⟨Or.inr ⟨r, rfl, hg⟩, fun _ _ _ hreturns => hreturns⟩⟩

/-- A server gives its port back. -/
theorem keeps_runServer {worker : Worker} (hg : g.role = .worker r worker)
    (hbound : g.bound = false) : lifetimeDiscipline.Keeps f (runServer r worker) h g := by
  have hclose : ∀ b, lifetimeDiscipline.Obeys f (method r (.closeServer worker)) h
      { g with bound := b } fun _ h' g' => h' = h ∧ g' = g := by
    refine fun b => ⟨hg, fun _ _ => ⟨rfl, ?_⟩⟩
    show { g with bound := false } = g
    rw [← hbound]
  refine ⟨hg, fun opened _ => ?_⟩
  cases opened with
  | false => exact ⟨rfl, rfl⟩
  | true =>
    refine ⟨⟨hg, hbound⟩, fun bound _ => ?_⟩
    cases bound with
    | false => exact hclose g.bound
    | true =>
      have hlisten : lifetimeDiscipline.Keeps f (listenServer r worker) h
          { g with bound := true } := by
        cases worker with
        | bluetoothServer => exact ⟨hg, fun _ _ => ⟨rfl, rfl⟩⟩
        | udpServer | discovery => exact ⟨rfl, rfl⟩
      refine hlisten.bind fun listening => ?_
      cases listening with
      | false => exact hclose true
      | true =>
        refine ⟨Or.inl ⟨r, worker, rfl, hg⟩, ?_⟩
        rintro _ _ g' ⟨rfl, rfl⟩
        exact hclose true

theorem obeys_server {worker : Worker} :
    lifetimeDiscipline.Obeys f (do
      method r (.begin worker)
      runServer r worker
      method r (.finish worker)
      pure .done : Program CallResult) [] {} fun _ h' g' => h' = [] ∧ g'.role = .idle := by
  refine ⟨rfl, fun _ _ => ?_⟩
  let g : Duty := { role := .worker r worker }
  refine Discipline.Keeps.bind (g := g) (keeps_runServer rfl rfl) fun _ => ?_
  exact ⟨⟨rfl, rfl⟩, fun _ _ => ⟨rfl, rfl⟩⟩

/-! ## `start` and `stop` -/

/-- The threads that are joined do not run any more. -/
theorem obeys_joinWorkers {workers : List Worker} (hg : g.role.Closes r) :
    lifetimeDiscipline.Obeys f (joinWorkers r workers) h g fun _ h' g' => h' = h ∧
      g' = { g with gone := {worker | worker ∈ workers} ∪ g.gone } := by
  induction workers generalizing g with
  | nil =>
    refine ⟨rfl, ?_⟩
    simp
  | cons worker workers ih =>
    have hrest : lifetimeDiscipline.Obeys f (joinWorkers r workers) h
        { g with gone := insert worker g.gone } fun _ h' g' => h' = h ∧
          g' = { g with gone := {worker' | worker' ∈ worker :: workers} ∪ g.gone } := by
      refine (ih (g := { g with gone := insert worker g.gone }) hg).mono ?_
      rintro _ _ g' ⟨rfl, rfl⟩
      refine ⟨rfl, congrArg (fun gone => { g with gone }) ?_⟩
      ext worker'
      simp only [Set.mem_union, Set.mem_ofPred_eq, Set.mem_insert_iff, List.mem_cons]
      tauto
    refine ⟨hg, fun joinable _ => ?_⟩
    cases joinable with
    | false => exact hrest
    | true => exact ⟨hg, fun _ _ => hrest⟩

theorem obeys_announceDropped {callback : Option Callback} {dropped : List BratislavaLinkInfo}
    (hg : g.role.Closes r) :
    lifetimeDiscipline.Keeps f (announceDropped r callback dropped) h g := by
  cases callback with
  | none => exact ⟨rfl, rfl⟩
  | some callback =>
    show lifetimeDiscipline.Keeps f (dropLinks r callback dropped) h g
    induction dropped with
    | nil => exact ⟨rfl, rfl⟩
    | cons info dropped ih => exact ⟨hg, fun _ _ => ih⟩

/-- After `stop` none of the threads runs. -/
theorem obeys_stop (hg : g.role.Closes r) :
    lifetimeDiscipline.Obeys f (stop r) h g fun _ h' g' => h' = h ∧ g'.role = g.role ∧
      g'.gone = Set.univ := by
  refine ⟨hg, fun _ _ => ?_⟩
  refine (obeys_joinWorkers hg).bind ?_
  rintro _ _ g' ⟨rfl, rfl⟩
  have hgone : {worker | worker ∈ [Worker.udpServer, .bluetoothServer, .discovery]} ∪ g.gone =
      Set.univ := by
    ext worker
    cases worker <;> simp
  refine ⟨⟨hg, hgone⟩, fun dropped _ => ?_⟩
  refine ⟨hg, fun callback _ => ?_⟩
  let g' : Duty :=
    { g with
      gone := {worker | worker ∈ [Worker.udpServer, .bluetoothServer, .discovery]} ∪ g.gone
      emptied := true }
  refine Discipline.Obeys.mono (p := announceDropped r callback dropped) (g := g')
    (obeys_announceDropped hg) ?_
  rintro _ _ _ ⟨rfl, rfl⟩
  exact ⟨rfl, rfl, hgone⟩

theorem obeys_start (hg : g.role = .starter r) (hemptied : g.emptied = false) (hfresh : g.fresh = Set.univ)
    (hgone : g.gone = ∅) :
    lifetimeDiscipline.Obeys f (start r) h g fun status h' g' => h' = h ∧ g'.role = .starter r ∧
      (status = .success → g'.emptied = false) ∧ (status ≠ .success → g'.gone = Set.univ) := by
  have hcloses : g.role.Closes r := hg ▸ rfl
  have hspawn : ∀ (workers : List Worker) (g : Duty), workers.Nodup → g.role = .starter r →
      g.emptied = false → g.gone = ∅ → (∀ worker ∈ workers, worker ∈ g.fresh) →
      lifetimeDiscipline.Obeys f (spawnWorkers r workers) h g fun _ h' g' =>
        h' = h ∧ g'.role = .starter r ∧ g'.emptied = false := by
    intro workers
    induction workers with
    | nil => exact fun g _ hg hemptied _ _ => ⟨rfl, hg, hemptied⟩
    | cons worker workers ih =>
      intro g hnodup hg hemptied hgone hfresh
      obtain ⟨hnotin, hnodup⟩ := List.nodup_cons.mp hnodup
      refine ⟨⟨hg, hemptied, hfresh worker List.mem_cons_self, hgone⟩, fun ok _ => ?_⟩
      cases ok with
      | false => exact ⟨rfl, hg, hemptied⟩
      | true =>
        refine ih _ hnodup hg hemptied hgone fun worker' hin => ?_
        refine ⟨hfresh worker' (List.mem_cons_of_mem _ hin), ?_⟩
        rintro rfl
        exact hnotin hin
  refine ⟨hg, fun claimed _ => ?_⟩
  cases claimed with
  | false => exact ⟨rfl, hg, fun _ => hemptied, fun hne => absurd rfl hne⟩
  | true =>
    refine (hspawn [.udpServer, .bluetoothServer, .discovery] g (by decide) hg hemptied hgone
      fun worker _ => hfresh ▸ Set.mem_univ worker).bind ?_
    rintro ok _ g' ⟨rfl, hg', hemptied'⟩
    cases ok with
    | true => exact ⟨rfl, hg', fun _ => hemptied', fun hne => absurd rfl hne⟩
    | false =>
      have hcloses' : g'.role.Closes r := hg' ▸ rfl
      refine ⟨hcloses', fun _ _ => ?_⟩
      refine (obeys_stop hcloses').bind ?_
      rintro _ _ g'' ⟨rfl, hrole, hgone'⟩
      exact ⟨rfl, hrole.trans hg', fun heq => (by cases heq), fun _ => hgone'⟩

/-! ## The functions of the API -/

theorem guarded_cons : Guarded ((Mutex.gRuntime, Mode.exclusive) :: h) := List.mem_cons_self

/-- `get_runtime` gives the runtime to those that want it. -/
theorem obeys_getRuntime (hg : g.role = .idle) (hpurpose : g.purpose ≠ .start) :
    lifetimeDiscipline.Obeys f getRuntime [] g fun x h' g' => h' = [] ∧
      g' = { g with role := found g x } := by
  refine ⟨⟨hg, rfl, rfl⟩, ⟨guarded_cons, hg⟩, fun x _ => ?_⟩
  refine ⟨List.mem_cons_self, ?_, ?_⟩
  · show found g x ≠ .vacant ∧ ∀ r, found g x ≠ .starter r
    cases x with
    | none => simp [found, hpurpose]
    | some r =>
      simp only [found]
      split <;> simp
  · exact ⟨by simp, rfl⟩

/-- A function that fails without a runtime, and runs `p` on the one there is. -/
theorem obeys_onRuntime {α : Type} {p : RuntimePtr → Program α} {a : α} (hg : g.role = .idle)
    (hpurpose : g.purpose ≠ .start)
    (hp : ∀ r, lifetimeDiscipline.Obeys f (p r) [] { g with role := found g (some r) }
      fun _ h' g' => h' = [] ∧ g'.role = .idle) :
    lifetimeDiscipline.Obeys f (do
      match ← getRuntime with
      | none => pure a
      | some r => p r) [] g fun _ h' g' => h' = [] ∧ g'.role = .idle := by
  refine (obeys_getRuntime hg hpurpose).bind ?_
  rintro x _ _ ⟨rfl, rfl⟩
  cases x with
  | none => exact ⟨rfl, by simp [found, hpurpose]⟩
  | some r => exact hp r

/-- The thread makes a runtime if there is none. -/
theorem obeys_initialize {config : Bool} :
    lifetimeDiscipline.Obeys f (commsRuntimeInitialize config) [] { purpose := .start }
      fun _ h' g' => h' = [] ∧ g'.role = .idle := by
  have hrelease : ∀ (status : ApiStatus) (g : Duty), g.role = .idle →
      lifetimeDiscipline.Obeys f (Prog.pure status : Program ApiStatus)
        [(Mutex.gRuntime, Mode.exclusive)] g fun _ h' g' =>
          (Mutex.gRuntime, Mode.exclusive) ∈ h' ∧
            lifetimeDiscipline.mayUnlock h' g' .gRuntime .exclusive ∧
              h'.erase (Mutex.gRuntime, Mode.exclusive) = [] ∧ g'.role = .idle := by
    intro status g hg
    refine ⟨List.mem_cons_self, ⟨?_, fun r => ?_⟩, by simp, hg⟩ <;> rw [hg] <;> simp
  cases config with
  | false => exact ⟨rfl, rfl⟩
  | true =>
    refine Discipline.obeys_locked.mpr ⟨⟨rfl, rfl, rfl⟩, ⟨guarded_cons, rfl⟩, fun x _ => ?_⟩
    cases x with
    | some r => exact ⟨⟨guarded_cons, Or.inl rfl⟩, fun _ _ => hrelease _ _ rfl⟩
    | none =>
      refine ⟨rfl, fun r _ => ?_⟩
      refine Discipline.Obeys.bind (p := start r) (obeys_start rfl rfl rfl rfl) ?_
      rintro status _ g' ⟨rfl, hrole, hsuccess, hfailure⟩
      show lifetimeDiscipline.Obeys f (ite _ _ _) _ g' _
      split
      · rename_i hne
        exact ⟨⟨hrole, hfailure hne⟩, fun _ _ => hrelease _ _ rfl⟩
      · rename_i heq
        exact ⟨⟨guarded_cons, Or.inr ⟨hsuccess (not_not.mp heq), r, hrole⟩⟩,
          fun _ _ => hrelease _ _ rfl⟩

/-- The runtime that was taken out is stopped before it is destroyed. -/
theorem obeys_shutdown :
    lifetimeDiscipline.Obeys f commsRuntimeShutdown [] {} fun _ h' g' => h' = [] ∧ g'.role = .idle := by
  refine ⟨⟨rfl, rfl, rfl⟩, ⟨guarded_cons, rfl⟩, fun x _ => ?_⟩
  cases x with
  | none => exact ⟨List.mem_cons_self, ⟨by simp, by simp⟩, by simp, rfl⟩
  | some r =>
    refine ⟨List.mem_cons_self, ⟨by simp, by simp⟩, ?_⟩
    refine Discipline.Obeys.bind (p := stop r) (obeys_stop rfl) ?_
    rintro _ _ g' ⟨rfl, hrole, hgone⟩
    exact ⟨⟨hrole, hgone⟩, fun _ _ => ⟨by simp, rfl⟩⟩

theorem lifetimes_cover : lifetimeDiscipline.Covers Call.Api := by
  intro f s hf
  cases f with
  | commsRuntimeInitialize config =>
    refine Discipline.Obeys.bind (p := commsRuntimeInitialize config) obeys_initialize ?_
    rintro _ _ _ ⟨rfl, hrole⟩
    exact ⟨rfl, hrole⟩
  | commsRuntimeShutdown =>
    refine Discipline.Obeys.bind (p := commsRuntimeShutdown) obeys_shutdown ?_
    rintro _ _ _ ⟨rfl, hrole⟩
    exact ⟨rfl, hrole⟩
  | commsRuntimeRegisterCallback instrumentType callbackType inputData =>
    have hregister : lifetimeDiscipline.Obeys
        (.commsRuntimeRegisterCallback instrumentType callbackType inputData)
        (commsRuntimeRegisterCallback instrumentType callbackType inputData) []
        { purpose := Call.purpose (.commsRuntimeRegisterCallback instrumentType callbackType inputData) }
        fun _ h' g' => h' = [] ∧ g'.role = .idle := by
      cases inputData with
      | none => exact obeys_onRuntime rfl (by simp [Call.purpose]) fun r => ⟨rfl, rfl⟩
      | some callback =>
        exact obeys_onRuntime rfl (by simp [Call.purpose]) fun r => ⟨rfl, fun _ _ => ⟨rfl, rfl⟩⟩
    refine hregister.bind ?_
    rintro _ _ _ ⟨rfl, hrole⟩
    exact ⟨rfl, hrole⟩
  | commsRuntimeUnregisterCallback instrumentType callbackType =>
    refine Discipline.Obeys.bind (p := commsRuntimeUnregisterCallback instrumentType callbackType)
      (obeys_onRuntime rfl (by simp [Call.purpose]) fun r => ⟨rfl, fun _ _ => ⟨rfl, rfl⟩⟩) ?_
    rintro _ _ _ ⟨rfl, hrole⟩
    exact ⟨rfl, hrole⟩
  | commsRuntimeDiscoverLinks instrumentType output =>
    have hdiscover : lifetimeDiscipline.Obeys (.commsRuntimeDiscoverLinks instrumentType output)
        (commsRuntimeDiscoverLinks instrumentType output) []
        { purpose := Call.purpose (.commsRuntimeDiscoverLinks instrumentType output) }
        fun _ h' g' => h' = [] ∧ g'.role = .idle := by
      cases output with
      | false => exact obeys_onRuntime rfl (by simp [Call.purpose]) fun r => ⟨rfl, rfl⟩
      | true =>
        refine obeys_onRuntime rfl (by simp [Call.purpose]) fun r => ?_
        let g : Duty := { role := .user r, purpose := .scan }
        have hscanner : Scanner g r := Or.inl ⟨rfl, rfl⟩
        refine Discipline.Keeps.bind (p := scanOnce r) (g := g) (keeps_scanOnce hscanner) fun _ => ?_
        exact ⟨rfl, fun _ _ => ⟨rfl, rfl⟩⟩
    refine hdiscover.bind ?_
    rintro _ _ _ ⟨rfl, hrole⟩
    exact ⟨rfl, hrole⟩
  | udpServerLoop r => exact obeys_server
  | bluetoothServerLoop r => exact obeys_server
  | discoveryLoop r =>
    refine ⟨rfl, fun _ _ => ⟨Or.inr ⟨r, rfl, rfl⟩, ?_⟩⟩
    rintro _ _ _ ⟨rfl, rfl⟩
    exact ⟨⟨rfl, rfl⟩, fun _ _ => ⟨rfl, rfl⟩⟩
  | _ => exact hf.elim

end Lifetimes

end SensorLib.Comms
