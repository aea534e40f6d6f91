import SensorLib.Comms.Scans

/-! # The methods of a runtime keep to the discipline of scans -/

namespace SensorLib.Comms

open Threads Scans CommsRuntime

namespace Scans

variable {this : RuntimePtr} {f : Call} {h : Held commsSignature} {g : Task}

/-- The thread is in a scan. -/
def Scanner (f : Call) (g : Task) : Prop := f.Scans ∨ g.worker = true

/-- An act of a thread that owes nothing. -/
theorem mayAct_free {a : RuntimeAct} (hg : g.Free) (hfd : a.socketFd = none)
    (htelling : a.announces = none) (hmay : MayAct f g a) :
    (scanDiscipline this).mayAct f h g (.method this a) :=
  ⟨rfl, hfd.trans hg.fd.symm, htelling.trans hg.telling.symm, hmay⟩

theorem obeys_giveUp {fd : Int} (hfd : g.fd = some fd) (htelling : g.telling = none)
    (hscanner : Scanner f g) :
    (scanDiscipline this).Obeys f (giveUp this fd) h g
      fun r h' g' => r = none ∧ h' = h ∧ g' = { g with fd := none } :=
  ⟨⟨rfl, hfd.symm, htelling.symm, hscanner⟩, fun _ _ => ⟨rfl, rfl, rfl⟩⟩

/-- A handshake gives up its socket, or keeps it in the link. -/
theorem obeys_attemptHandshake {address : String} {link : Int → ActiveLink} (hg : g.Free)
    (hscanner : Scanner f g) :
    (scanDiscipline this).Obeys f (attemptHandshake this address link) h g fun r h' g' =>
      h' = h ∧ (r = none ∧ g' = g ∨ ∃ fd, r = some (link fd) ∧ g' = { g with fd := some fd }) := by
  have hsame : { g with fd := none } = g := by rw [← hg.fd]
  refine ⟨mayAct_free hg rfl rfl hscanner, fun fd _ => ?_⟩
  show (scanDiscipline this).Obeys f (ite _ _ _) _ { g with fd := if fd < 0 then none else some fd } _
  by_cases hneg : fd < 0
  · rw [if_pos hneg, if_pos hneg, hsame]
    exact ⟨rfl, Or.inl ⟨rfl, rfl⟩⟩
  rw [if_neg hneg, if_neg hneg]
  have hgiveUp : (scanDiscipline this).Obeys f (giveUp this fd) h { g with fd := some fd }
      fun r h' g' => h' = h ∧
        (r = none ∧ g' = g ∨ ∃ fd, r = some (link fd) ∧ g' = { g with fd := some fd }) := by
    refine (obeys_giveUp (g := { g with fd := some fd }) rfl hg.telling hscanner).mono ?_
    rintro r h' g' ⟨rfl, rfl, rfl⟩
    exact ⟨rfl, Or.inl ⟨rfl, hsame⟩⟩
  have hmay : ∀ a : RuntimeAct, a.socketFd = some fd → a.announces = none →
      MayAct f { g with fd := some fd } a →
      (scanDiscipline this).mayAct f h { g with fd := some fd } (.method this a) :=
    fun a hfd htelling hact => ⟨rfl, hfd, htelling.trans hg.telling.symm, hact⟩
  refine ⟨hmay _ rfl rfl hscanner, fun ok _ => ?_⟩
  cases ok with
  | false => exact hgiveUp
  | true =>
    refine ⟨hmay _ rfl rfl hscanner, fun ok _ => ?_⟩
    cases ok with
    | false => exact hgiveUp
    | true =>
      refine ⟨hmay _ rfl rfl hscanner, fun ok _ => ?_⟩
      cases ok with
      | false => exact hgiveUp
      | true =>
        refine ⟨hmay _ rfl rfl hscanner, fun received _ => ?_⟩
        cases received with
        | none => exact hgiveUp
        | some buffer =>
          show (scanDiscipline this).Obeys f (ite _ _ _) _ _ _
          split
          · exact ⟨rfl, Or.inr ⟨fd, rfl, rfl⟩⟩
          · exact hgiveUp

/-- The link that a handshake fills in has its socket. -/
theorem obeys_attempt {peer : Peer} (hg : g.Free) (hscanner : Scanner f g) :
    (scanDiscipline this).Obeys f (attempt this peer) h g fun r h' g' =>
      h' = h ∧ (r = none ∧ g' = g ∨ ∃ link : ActiveLink, r = some link ∧
        g' = { g with fd := some link.link.socketFd }) := by
  cases peer with
  | bluetooth device =>
    refine (obeys_attemptHandshake hg hscanner).mono ?_
    rintro r h' g' ⟨rfl, ⟨rfl, rfl⟩ | ⟨fd, rfl, rfl⟩⟩
    · exact ⟨rfl, Or.inl ⟨rfl, rfl⟩⟩
    · exact ⟨rfl, Or.inr ⟨_, rfl, rfl⟩⟩
  | wifi candidate =>
    refine (obeys_attemptHandshake hg hscanner).mono ?_
    rintro r h' g' ⟨rfl, ⟨rfl, rfl⟩ | ⟨fd, rfl, rfl⟩⟩
    · exact ⟨rfl, Or.inl ⟨rfl, rfl⟩⟩
    · exact ⟨rfl, Or.inr ⟨_, rfl, rfl⟩⟩

/-- The socket is handed to the runtime, and the callback that is owed is made. -/
theorem obeys_publishLink {link : ActiveLink} (hg : g.Free) (hscanner : Scanner f g) :
    (scanDiscipline this).Obeys f (publishLink this link) h
      { g with fd := some link.link.socketFd } fun _ h' g' => h' = h ∧ g' = g := by
  have hsame : { g with fd := none, telling := none } = g := by rw [← hg.fd, ← hg.telling]
  refine ⟨⟨rfl, rfl, hg.telling.symm, hscanner⟩, fun callback _ => ?_⟩
  cases callback with
  | none => exact ⟨rfl, hsame⟩
  | some callback => exact ⟨⟨rfl, rfl, rfl, trivial⟩, fun _ _ => ⟨rfl, hsame⟩⟩

theorem keeps_tryPeer {shouldAttempt : Bool} {peer : Peer} (hg : g.Free) (hscanner : Scanner f g) :
    (scanDiscipline this).Keeps f (tryPeer this shouldAttempt peer) h g := by
  cases shouldAttempt with
  | false => exact ⟨rfl, rfl⟩
  | true =>
    refine (obeys_attempt hg hscanner).bind ?_
    rintro r _ g' ⟨rfl, ⟨rfl, rfl⟩ | ⟨link, rfl, rfl⟩⟩
    · exact ⟨rfl, rfl⟩
    · exact obeys_publishLink hg hscanner

/-- The callback of a device is made when it is owed. -/
theorem obeys_announce {callback : Option Callback} {peer : Peer} (hg : g.Free) :
    (scanDiscipline this).Obeys f (announce this callback peer) h
      { g with telling := callback.map fun _ => peer.discovery }
      fun _ h' g' => h' = h ∧ g' = g := by
  have hsame : { g with telling := none } = g := by rw [← hg.telling]
  cases callback with
  | none => exact ⟨rfl, hsame⟩
  | some callback => exact ⟨⟨rfl, hg.fd.symm, rfl, trivial⟩, fun _ _ => ⟨rfl, hsame⟩⟩

theorem keeps_scanPeers {peers : List Peer} (hg : g.Free) (hscanner : Scanner f g) :
    (scanDiscipline this).Keeps f (scanPeers this peers) h g := by
  induction peers with
  | nil => exact ⟨rfl, rfl⟩
  | cons peer peers ih =>
    refine ⟨mayAct_free hg rfl rfl hscanner, fun x _ => ?_⟩
    refine Discipline.Obeys.bind (p := announce this x.1 peer) (obeys_announce hg) ?_
    rintro _ h _ ⟨rfl, rfl⟩
    exact (keeps_tryPeer hg hscanner).bind fun _ => ih

/-- A scan gives up every socket it opens, and makes every callback it owes. -/
theorem keeps_scanOnce (hg : g.Free) (hscanner : Scanner f g) :
    (scanDiscipline this).Keeps f (scanOnce this) h g := by
  have hbluetooth : (scanDiscipline this).Keeps f (scanBluetoothLinks this) h g := by
    refine ⟨mayAct_free hg rfl rfl trivial, fun devices _ => ?_⟩
    cases devices with
    | none => exact ⟨rfl, rfl⟩
    | some devices => exact keeps_scanPeers hg hscanner
  have hwifi : (scanDiscipline this).Keeps f (scanWifiLinks this) h g :=
    ⟨mayAct_free hg rfl rfl trivial, fun candidates _ => keeps_scanPeers hg hscanner⟩
  exact hbluetooth.bind fun _ => hwifi

/-! ## The threads of the runtime -/

theorem obeys_discoveryRounds (hg : g.Free) (hworker : g.worker = true) (hf : ¬ f.Scans)
    (hstops : ¬ f.Stops) :
    (scanDiscipline this).Obeys f (discoveryRounds this) h g
      fun _ h' g' => h' = h ∧ Returns g g' := by
  refine ⟨mayAct_free hg rfl rfl trivial, fun running _ => ?_⟩
  cases running with
  | false => exact ⟨rfl, hg, rfl⟩
  | true =>
    refine (keeps_scanOnce hg (Or.inr hworker)).bind fun _ => ?_
    refine ⟨mayAct_free hg rfl rfl trivial, fun _ _ => ?_⟩
    exact ⟨⟨hg, Or.inl ⟨rfl, hworker, hf, hstops⟩⟩, fun _ _ _ hreturns => hreturns⟩

theorem obeys_serverRounds {worker : Worker} (hg : g.Free) (hf : ¬ f.Scans) (hstops : ¬ f.Stops) :
    (scanDiscipline this).Obeys f (serverRounds this worker) h g
      fun _ h' g' => h' = h ∧ Returns g g' := by
  refine ⟨mayAct_free hg rfl rfl trivial, fun running _ => ?_⟩
  cases running with
  | false => exact ⟨rfl, hg, rfl⟩
  | true =>
    refine ⟨mayAct_free hg rfl rfl trivial, fun served _ => ?_⟩
    cases served with
    | again =>
      refine ⟨⟨hg, Or.inr ⟨worker, rfl, hf, hstops⟩⟩, ?_⟩
      rintro r _ g' ⟨rfl, hreturns⟩
      exact ⟨rfl, hreturns⟩
    | failed => exact ⟨rfl, hg, rfl⟩

theorem obeys_runServer {worker : Worker} (hg : g.Free) (hf : ¬ f.Scans) (hstops : ¬ f.Stops) :
    (scanDiscipline this).Obeys f (runServer this worker) h g
      fun _ h' g' => h' = h ∧ g'.Free := by
  have hclose : (scanDiscipline this).Obeys f (method this (.closeServer worker)) h g
      fun _ h' g' => h' = h ∧ g'.Free :=
    ⟨mayAct_free hg rfl rfl trivial, fun _ _ => ⟨rfl, hg⟩⟩
  have hlisten : (scanDiscipline this).Keeps f (listenServer this worker) h g := by
    cases worker with
    | bluetoothServer => exact ⟨mayAct_free hg rfl rfl trivial, fun _ _ => ⟨rfl, rfl⟩⟩
    | udpServer | discovery => exact ⟨rfl, rfl⟩
  refine ⟨mayAct_free hg rfl rfl trivial, fun opened _ => ?_⟩
  cases opened with
  | false => exact ⟨rfl, hg⟩
  | true =>
    refine ⟨mayAct_free hg rfl rfl trivial, fun bound _ => ?_⟩
    cases bound with
    | false => exact hclose
    | true =>
      refine hlisten.bind fun listening => ?_
      cases listening with
      | false => exact hclose
      | true =>
        refine ⟨⟨hg, Or.inr ⟨worker, rfl, hf, hstops⟩⟩, ?_⟩
        rintro _ _ g' ⟨rfl, hreturns⟩
        exact ⟨mayAct_free hreturns.toFree rfl rfl trivial, fun _ _ => ⟨rfl, hreturns.toFree⟩⟩

theorem free_initial : Task.Free {} := ⟨rfl, rfl⟩

theorem finished_of_not (hstops : ¬ f.Stops) : Finished f g := fun hf => absurd hf hstops

theorem obeys_server {worker : Worker} (hf : ¬ f.Scans) (hstops : ¬ f.Stops)
    (hworker : worker ≠ .discovery) :
    (scanDiscipline this).Obeys f (do
      method this (.begin worker)
      runServer this worker
      method this (.finish worker)
      pure CallResult.done) [] {} fun _ h' g' => h' = [] ∧ g'.Free ∧ Finished f g' := by
  have hfinished : ∀ g, Finished f g := fun g => finished_of_not hstops
  refine ⟨mayAct_free free_initial rfl rfl trivial, fun _ _ => ?_⟩
  have hbegin : acted {} (.begin worker) () = {} := by
    cases worker with
    | discovery => exact absurd rfl hworker
    | udpServer | bluetoothServer => rfl
  show (scanDiscipline this).Obeys f _ _ (acted {} (.begin worker) ()) _
  rw [hbegin]
  refine (obeys_runServer free_initial hf hstops).bind ?_
  rintro _ _ g' ⟨rfl, hg'⟩
  refine ⟨mayAct_free hg' rfl rfl fun heq => absurd heq hworker,
    fun _ _ => ⟨rfl, ?_, hfinished _⟩⟩
  cases worker with
  | discovery => exact absurd rfl hworker
  | udpServer | bluetoothServer => exact hg'

/-! ## `stop` -/

theorem obeys_joinWorkers {workers : List Worker} (hg : g.Free) (hclosing : g.closing = .no) :
    (scanDiscipline this).Obeys f (joinWorkers this workers) h g fun _ h' g' =>
      h' = h ∧ g'.Free ∧ g'.closing = .no ∧
        (.discovery ∈ workers ∨ g.gone = true → g'.gone = true) := by
  induction workers generalizing g with
  | nil => exact ⟨rfl, hg, hclosing, fun hin => hin.resolve_left List.not_mem_nil⟩
  | cons worker workers ih =>
    have hrest : ∀ g' : Task, g'.Free → g'.closing = .no →
        (worker = .discovery ∨ g.gone = true → g'.gone = true) →
        (scanDiscipline this).Obeys f (joinWorkers this workers) h g' fun _ h' g' =>
          h' = h ∧ g'.Free ∧ g'.closing = .no ∧
            (.discovery ∈ worker :: workers ∨ g.gone = true → g'.gone = true) := by
      intro g' hg' hclosing' hgone
      refine (ih hg' hclosing').mono ?_
      rintro _ _ g'' ⟨rfl, hg'', hclosing'', hgone'⟩
      refine ⟨rfl, hg'', hclosing'', fun hin => hgone' ?_⟩
      rcases hin with hin | hin
      · rcases List.mem_cons.mp hin with heq | hin
        · exact Or.inr (hgone (Or.inl heq.symm))
        · exact Or.inl hin
      · exact Or.inr (hgone (Or.inr hin))
    refine ⟨mayAct_free hg rfl rfl trivial, fun joinable _ => ?_⟩
    cases joinable with
    | false =>
      cases worker with
      | discovery => exact hrest { g with gone := true } ⟨hg.fd, hg.telling⟩ hclosing fun _ => rfl
      | udpServer | bluetoothServer => exact hrest g hg hclosing fun hin => hin.resolve_left (by simp)
    | true =>
      cases worker with
      | discovery =>
        refine ⟨mayAct_free hg rfl rfl trivial, fun _ _ => ?_⟩
        exact hrest { g with gone := true } ⟨hg.fd, hg.telling⟩ hclosing fun _ => rfl
      | udpServer | bluetoothServer =>
        refine ⟨mayAct_free hg rfl rfl trivial, fun _ _ => ?_⟩
        exact hrest g hg hclosing fun hin => hin.resolve_left (by simp)

theorem obeys_dropLinks {callback : Callback} {dropped : List BratislavaLinkInfo} (hg : g.Free)
    (hclosing : g.closing = .dropping (some callback) dropped) :
    (scanDiscipline this).Obeys f (dropLinks this callback dropped) h g fun _ h' g' =>
      h' = h ∧ g'.Free ∧ g'.closing = .dropping (some callback) [] := by
  induction dropped generalizing g with
  | nil => exact ⟨rfl, hg, hclosing⟩
  | cons info dropped ih =>
    refine ⟨mayAct_free hg rfl rfl ⟨dropped, hclosing⟩, fun _ _ => ?_⟩
    have hacted : acted g (.linkDropped callback info) () =
        { g with closing := .dropping (some callback) dropped } := by
      simp only [acted, hclosing]
    show (scanDiscipline this).Obeys f _ _ (acted g (.linkDropped callback info) ()) _
    rw [hacted]
    exact ih ⟨hg.fd, hg.telling⟩ rfl

theorem obeys_stop (hg : g.Free) (hclosing : g.closing = .no) (hf : f.Stops) :
    (scanDiscipline this).Obeys f (stop this) h g fun _ h' g' =>
      h' = h ∧ g'.Free ∧ Finished f g' := by
  refine ⟨mayAct_free hg rfl rfl trivial, fun _ _ => ?_⟩
  refine (obeys_joinWorkers hg hclosing).bind ?_
  rintro _ _ g₁ ⟨rfl, hg₁, hclosing₁, hgone⟩
  refine ⟨mayAct_free hg₁ rfl rfl ⟨hf, hgone (Or.inl (by simp)), hclosing₁⟩, fun dropped _ => ?_⟩
  refine ⟨mayAct_free ⟨hg₁.fd, hg₁.telling⟩ rfl rfl ⟨dropped, rfl⟩, fun callback _ => ?_⟩
  have hg₂ : Task.Free { g₁ with closing := .dropping callback dropped } := ⟨hg₁.fd, hg₁.telling⟩
  cases callback with
  | none => exact ⟨rfl, hg₂, fun _ => ⟨none, dropped, rfl, fun hne => absurd rfl hne⟩⟩
  | some callback =>
    refine Discipline.Obeys.mono (p := dropLinks this callback dropped) (obeys_dropLinks hg₂ rfl) ?_
    rintro _ _ g₃ ⟨rfl, hg₃, hclosing₃⟩
    exact ⟨rfl, hg₃, fun _ => ⟨some callback, [], hclosing₃, fun _ => rfl⟩⟩

/-! ## The calls -/

theorem scans_cover : (scanDiscipline this).Covers (Call.OnRuntime this) := by
  intro f s hf
  cases f with
  | udpServerLoop =>
    cases hf
    exact obeys_server id id (by simp)
  | bluetoothServerLoop =>
    cases hf
    exact obeys_server id id (by simp)
  | discoveryLoop =>
    cases hf
    refine ⟨mayAct_free free_initial rfl rfl trivial, fun _ _ => ?_⟩
    refine ⟨⟨⟨rfl, rfl⟩, Or.inl ⟨rfl, rfl, id, id⟩⟩, ?_⟩
    rintro _ _ g' ⟨rfl, hreturns⟩
    refine ⟨mayAct_free hreturns.toFree rfl rfl fun _ => hreturns.worker,
      fun _ _ => ⟨rfl, ?_, ?_⟩⟩
    · exact ⟨hreturns.fd, hreturns.telling⟩
    · exact finished_of_not id
  | discoverLinks this' instrumentType output =>
    cases hf
    have hfinished : ∀ g, Finished (.discoverLinks this instrumentType output) g :=
      fun g => finished_of_not id
    cases output with
    | false => exact ⟨rfl, free_initial, hfinished _⟩
    | true =>
      refine Discipline.Obeys.bind (P := fun _ h' (g' : Task) => h' = [] ∧ g'.Free) ?_ ?_
      · have hscanner : Scanner (.discoverLinks this instrumentType true) {} := Or.inl trivial
        refine (keeps_scanOnce free_initial hscanner).bind fun _ => ?_
        exact ⟨mayAct_free free_initial rfl rfl trivial, fun _ _ => ⟨rfl, free_initial⟩⟩
      · rintro _ _ g' ⟨rfl, hg'⟩
        exact ⟨rfl, hg', hfinished _⟩
  | registerCallback this' instrumentType callbackType inputData =>
    cases hf
    have hfinished : ∀ g,
        Finished (.registerCallback this instrumentType callbackType inputData) g :=
      fun g => finished_of_not id
    cases inputData with
    | none => exact ⟨rfl, free_initial, hfinished _⟩
    | some callback =>
      exact ⟨mayAct_free free_initial rfl rfl trivial, fun _ _ => ⟨rfl, free_initial, hfinished _⟩⟩
  | unregisterCallback this' instrumentType callbackType =>
    cases hf
    exact ⟨mayAct_free free_initial rfl rfl trivial,
      fun _ _ => ⟨rfl, free_initial, finished_of_not id⟩⟩
  | stop =>
    cases hf
    refine Discipline.Obeys.bind (obeys_stop free_initial rfl trivial) ?_
    rintro _ _ g' ⟨rfl, hg', hfinished⟩
    exact ⟨rfl, hg', hfinished⟩
  | _ => exact hf.elim

end Scans

end SensorLib.Comms
