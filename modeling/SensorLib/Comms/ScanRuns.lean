import SensorLib.Comms.ScanSafety

/-! # Runs of scans and stops -/

namespace SensorLib.Comms

open Threads Runs Descriptors

namespace CommsRuntime

variable {c : CommsRuntime} {peer : Peer} {link : ActiveLink} {d : Discovery}

theorem marked_insertSeen : (c.insertSeen peer).Marked d ↔ d = peer.discovery ∨ c.Marked d := by
  cases peer <;> cases d <;> simp [insertSeen, Marked, Peer.discovery]

theorem marked_pushLink : (c.pushLink link).Marked d ↔ d = .link link.key ∨ c.Marked d := by
  cases d <;> simp [pushLink, Marked]

theorem drained_insertSeen : (c.insertSeen peer).drained = c.drained := by
  cases peer <;> rfl

theorem activeLinks_insertSeen : (c.insertSeen peer).activeLinks = c.activeLinks := by
  cases peer <;> rfl

theorem activeLinkKeys_insertSeen : (c.insertSeen peer).activeLinkKeys = c.activeLinkKeys := by
  cases peer <;> rfl

theorem workers_insertSeen : (c.insertSeen peer).workers = c.workers := by
  cases peer <;> rfl

end CommsRuntime

/-- The act of a method that a thread is about to run. -/
def nextAct (w : World commsSystem) (t : Tid) : Option RuntimeAct := (nextMethod w t).map Prod.snd

theorem nextAct_iff {w : World commsSystem} {t : Tid} {a : RuntimeAct} :
    nextAct w t = some a ↔ ∃ f this k, w.thread t = some (f, .act (.method this a) k) := by
  simp only [nextAct, Option.map_eq_some_iff, Prod.exists, exists_eq_right, nextMethod_iff]
  exact exists_comm

/-- A runtime that was just started: it has no links, and no callback was made. -/
structure CommsState.JustStarted (s : CommsState) (this : RuntimePtr) : Prop where
  runtime : ∃ c, s.runtimes.lookup this = some c ∧ c.activeLinks = [] ∧ c.activeLinkKeys = ∅ ∧
    c.seenBluetoothDevices = ∅ ∧ c.seenWifiDevices = ∅ ∧ c.drained = none
  sockets : s.sockets = []
  log : s.log = []

/-- The process after the start of its only runtime, and the callbacks that are registered. -/
def CommsState.startedWith (callbacks : CallbackState) : CommsState where
  runtimes := Finmap.singleton 0 { running := true, callbacks }
  gRuntime := some 0
  gRuntimeRefcount := 1
  sockets := []
  ports := []
  log := []
  created := 1

theorem CommsState.justStarted_startedWith (callbacks : CallbackState) :
    (CommsState.startedWith callbacks).JustStarted 0 :=
  ⟨⟨_, rfl, rfl, rfl, rfl, rfl, rfl⟩, rfl, rfl⟩

namespace Scans

variable {expected : Expected} {this : RuntimePtr}

structure Whole (expected : Expected) (c : CommsRuntime) (sockets : Table) (log : List Event)
    (G : Tid → Task) : Prop where
  links : Links c sockets G
  tellings : Tellings expected c log G
  workers : Workers c G
  closings : Closings c log G

def Tended (expected : Expected) (this : RuntimePtr) (s : CommsState) (_ : Tid → Held commsSignature)
    (G : Tid → Task) : Prop :=
  ∃ c, s.runtimes.lookup this = some c ∧ Whole expected c s.sockets s.log G

/-- No call scans once the links were taken out, and they are taken out once. A callback is
registered when something is marked of which one is expected. -/
structure Assumed (expected : Expected) (this : RuntimePtr) (s : CommsState) (f : Call)
    (i : Instr commsSignature) : Prop where
  scans : f.Scans → ∀ a, i = .act a → s.drainedOf this = none
  drains : i = .act (.method this .drain) → s.drainedOf this = none
  announced : ∀ d ∈ expected.made, ∀ a c, i = .act (.method this a) →
    s.runtimes.lookup this = some c → a.marks = some d → ¬ c.Marked d → c.slot d ≠ none

namespace Whole

variable {c c' : CommsRuntime} {sockets : Table} {log : List Event} {G : Tid → Task} {t : Tid}
  {g : Task}

theorem same (h : Whole expected c sockets log G) :
    Whole expected c sockets log (Function.update G t (G t)) := by
  rw [Function.update_eq_self]
  exact h

/-- A change that concerns no link and no key, and no callback that is owed. -/
theorem congr (h : Whole expected c sockets log G) (hlinks : c'.activeLinks = c.activeLinks)
    (hkeys : c'.activeLinkKeys = c.activeLinkKeys) (hdrained : c'.drained = c.drained)
    (hmarked : ∀ d, c'.Marked d ↔ c.Marked d) (hfd : g.fd = (G t).fd)
    (htelling : g.telling = (G t).telling)
    (hclosing : g.closing = (G t).closing) (hworkers : Workers c' (Function.update G t g)) :
    Whole expected c' sockets log (Function.update G t g) :=
  ⟨h.links.congr hlinks hkeys hfd, h.tellings.congr hdrained hmarked htelling, hworkers,
    h.closings.congr hdrained (Or.inl hclosing)⟩

/-- The state of a thread of the runtime changes. -/
theorem setWorker (h : Whole expected c sockets log G) {worker : Worker} {state : WorkerState}
    (hfd : g.fd = (G t).fd) (htelling : g.telling = (G t).telling)
    (hclosing : g.closing = (G t).closing)
    (hworkers : Workers (c.setWorker worker state) (Function.update G t g)) :
    Whole expected (c.setWorker worker state) sockets log (Function.update G t g) := by
  refine h.congr rfl rfl rfl (fun d => ?_) hfd htelling hclosing hworkers
  cases d <;> exact Iff.rfl

theorem setOther (h : Whole expected c sockets log G) {worker : Worker} (hne : worker ≠ .discovery)
    (state : WorkerState) :
    Whole expected (c.setWorker worker state) sockets log (Function.update G t (G t)) :=
  h.setWorker rfl rfl rfl (h.workers.setOther hne state)

theorem open_of_scanner (h : Whole expected c sockets log G) {f : Call} (hscanner : Scanner f (G t))
    (hscans : f.Scans → c.drained = none) : c.drained = none := by
  rcases hscanner with hf | hw
  · exact hscans hf
  · cases hd : c.drained with
    | none => rfl
    | some links =>
      have hrunning := h.workers.worker t hw
      exact absurd (hrunning ▸ trivial) (h.workers.emptied links hd).1

theorem see (h : Whole expected c sockets log G) {peer : Peer} (hopen : c.drained = none)
    (ht : (G t).telling = none)
    (hannounced : peer.discovery ∈ expected.made → ¬ c.Marked peer.discovery →
      c.slot peer.discovery ≠ none) :
    Whole expected (c.see peer).2 sockets log
      (Function.update G t (acted (G t) (.see peer) (c.see peer).1)) := by
  show Whole expected (c.insertSeen peer) sockets log (Function.update G t
    { G t with
      telling := (if c.Marked peer.discovery then none else c.slot peer.discovery).map fun _ =>
        peer.discovery })
  refine ⟨h.links.congr c.activeLinks_insertSeen c.activeLinkKeys_insertSeen rfl, ?_,
    h.workers.congr (congrFun c.workers_insertSeen _) c.activeLinks_insertSeen c.drained_insertSeen
      id id, h.closings.congr c.drained_insertSeen (Or.inl rfl)⟩
  by_cases hmarked : c.Marked peer.discovery
  · have hiff : ∀ d, (c.insertSeen peer).Marked d ↔ c.Marked d := by
      intro d
      rw [CommsRuntime.marked_insertSeen]
      exact ⟨fun hd => hd.elim (fun heq => heq ▸ hmarked) id, Or.inr⟩
    refine h.tellings.update (fun d hd hnone => (hiff d).mpr (hd hopen)) (fun d => (hiff d).mp) ?_
    rw [if_pos hmarked]
    exact ht.symm
  · refine h.tellings.mark hopen hmarked (fun d => CommsRuntime.marked_insertSeen) ht ?_ ?_
    · rw [if_neg hmarked]
      cases c.slot peer.discovery with
      | none => exact Or.inl rfl
      | some callback => exact Or.inr rfl
    · rw [if_neg hmarked]
      intro hmade
      have hslot := hannounced hmade hmarked
      cases hcallback : c.slot peer.discovery with
      | none => exact absurd hcallback hslot
      | some callback => simp

theorem push (h : Whole expected c sockets log G) {link : ActiveLink} (hopen : c.drained = none)
    (hfd : (G t).fd = some link.link.socketFd) (ht : (G t).telling = none)
    (hkey : link.key ∉ c.activeLinkKeys)
    (hannounced : .link link.key ∈ expected.made → c.slot (.link link.key) ≠ none) :
    Whole expected (c.pushLink link) sockets log
      (Function.update G t (acted (G t) (.publish link) c.callbacks.linkDiscovered)) := by
  refine ⟨h.links.pushed hfd hkey rfl, ?_, h.workers.pushed hopen rfl rfl,
    h.closings.congr rfl (Or.inl rfl)⟩
  refine h.tellings.mark (d := .link link.key) hopen hkey
    (fun d => CommsRuntime.marked_pushLink) ht ?_ fun hmade => ?_
  · show c.callbacks.linkDiscovered.map _ = none ∨ c.callbacks.linkDiscovered.map _ = _
    cases c.callbacks.linkDiscovered with
    | none => exact Or.inl rfl
    | some callback => exact Or.inr rfl
  · show c.callbacks.linkDiscovered.map _ ≠ none
    have hslot : c.callbacks.linkDiscovered ≠ none := hannounced hmade
    simpa using hslot

/-- A link that is active already is not published, and its socket is closed. -/
theorem duplicate (h : Whole expected c sockets log G) {link : ActiveLink}
    (hfd : (G t).fd = some link.link.socketFd) (ht : (G t).telling = none) :
    Whole expected c (closeIfOpen sockets link.link.socketFd) log
      (Function.update G t (acted (G t) (.publish link) none)) := by
  have hnonneg := h.links.kept.sane.nonneg_of_live (h.links.kept.isLive (.attempt t) _ hfd)
  rw [closeIfOpen, if_pos hnonneg]
  refine ⟨h.links.closed hfd rfl, ?_, h.workers.congr rfl rfl rfl id id,
    h.closings.congr rfl (Or.inl rfl)⟩
  exact h.tellings.congr rfl (fun _ => Iff.rfl) ht.symm

theorem drain (h : Whole expected c sockets log G) (hopen : c.drained = none)
    (hgone : (G t).gone = true) :
    Whole expected { c with activeLinks := [], activeLinkKeys := ∅, drained := some c.activeLinks }
      (c.activeLinks.foldl (fun T link => closeIfOpen T link.link.socketFd) sockets) log
      (Function.update G t
        { G t with closing := .drained (c.activeLinks.map ActiveLink.info) }) := by
  let g : Task := { G t with closing := .drained (c.activeLinks.map ActiveLink.info) }
  have hfd : g.fd = (G t).fd := rfl
  have hworker : g.worker = (G t).worker := rfl
  have hgone' : g.gone = (G t).gone := rfl
  refine ⟨?_, ?_, ?_, h.closings.drained hopen rfl⟩
  · exact h.links.drained hfd
  · refine h.tellings.update (fun d _ hnone => by cases hnone) (fun d hd => ?_) rfl
    cases d with
    | bluetoothDevice key | wifiDevice key => exact hd
    | link key => exact absurd hd (Finset.notMem_empty key)
  · exact h.workers.drained hgone hworker hgone'

theorem recorded (h : Whole expected c sockets log G) {event : Event} {d : Discovery}
    (ht : (G t).telling = some d) (hevent : event.discovery = some d)
    (hdropped : event.dropped = none) :
    Whole expected c sockets (log ++ [event]) (Function.update G t { G t with telling := none }) := by
  refine ⟨h.links.congr rfl rfl rfl, h.tellings.tell ht hevent rfl,
    h.workers.congr rfl rfl rfl id id, Closings.skip ?_ hdropped⟩
  exact h.closings.congr rfl (Or.inl rfl)

theorem recordedDrop (h : Whole expected c sockets log G) {callback : Callback}
    {info : BratislavaLinkInfo} {dropped : List BratislavaLinkInfo}
    (ht : (G t).closing = .dropping (some callback) (info :: dropped)) :
    Whole expected c sockets (log ++ [.linkDropped callback info])
      (Function.update G t { G t with closing := .dropping (some callback) dropped }) := by
  refine ⟨h.links.congr rfl rfl rfl, ?_, h.workers.congr rfl rfl rfl id id, ?_⟩
  · refine Tellings.skip ?_ rfl
    exact h.tellings.congr rfl (fun _ => Iff.rfl) rfl
  · have hclosed := h.closings.closed t
    rw [ht] at hclosed
    obtain ⟨links, hlinks, heq⟩ := hclosed
    refine h.closings.step (by rw [ht]; simp) ⟨links, hlinks, ?_⟩
    rw [← heq, droppedIn, List.filterMap_append]
    simp [droppedIn, Event.dropped]

theorem dropCallback (h : Whole expected c sockets log G) {dropped : List BratislavaLinkInfo}
    {callback : Option Callback} (ht : (G t).closing = .drained dropped) :
    Whole expected c sockets log
      (Function.update G t { G t with closing := .dropping callback dropped }) := by
  refine ⟨h.links.congr rfl rfl rfl, h.tellings.congr rfl (fun _ => Iff.rfl) rfl,
    h.workers.congr rfl rfl rfl id id, ?_⟩
  have hclosed := h.closings.closed t
  rw [ht] at hclosed
  obtain ⟨links, hlinks, rfl, hnil⟩ := hclosed
  refine h.closings.step (by rw [ht]; simp) ?_
  cases callback with
  | none =>
    refine ⟨?_, hnil⟩
    rw [hlinks]
    simp
  | some callback => exact ⟨links, hlinks, by simp [hnil]⟩

theorem socket (h : Whole expected c sockets log G) {fd : Int} (ht : (G t).fd = none)
    (hfresh : Fresh sockets fd) :
    Whole expected c (if fd < 0 then sockets else opened sockets fd) log
      (Function.update G t { G t with fd := if fd < 0 then none else some fd }) := by
  refine ⟨?_, h.tellings.congr rfl (fun _ => Iff.rfl) rfl, h.workers.congr rfl rfl rfl id id,
    h.closings.congr rfl (Or.inl rfl)⟩
  by_cases hneg : fd < 0
  · rw [if_pos hneg, if_pos hneg]
    exact h.links.congr rfl rfl ht.symm
  · rw [if_neg hneg, if_neg hneg]
    rcases hfresh with rfl | ⟨hnonneg, hnew⟩
    · exact absurd (by decide) hneg
    · exact h.links.opened hnonneg hnew ht rfl

theorem closeOwn (h : Whole expected c sockets log G) {fd : Int} (ht : (G t).fd = some fd) :
    Whole expected c (closed fd sockets) log (Function.update G t { G t with fd := none }) :=
  ⟨h.links.closed ht rfl, h.tellings.congr rfl (fun _ => Iff.rfl) rfl,
    h.workers.congr rfl rfl rfl id id, h.closings.congr rfl (Or.inl rfl)⟩

/-- A thread that is not joinable does not run. -/
theorem joinable (h : Whole expected c sockets log G) {worker : Worker} :
    Whole expected c sockets log (Function.update G t (acted (G t) (.joinable worker)
      (decide (c.workers worker ≠ .none ∧ c.workers worker ≠ .joined)))) := by
  cases worker with
  | udpServer | bluetoothServer => exact h.same
  | discovery =>
    by_cases hjoinable : c.workers .discovery ≠ .none ∧ c.workers .discovery ≠ .joined
    · rw [decide_eq_true hjoinable]
      exact h.same
    · rw [decide_eq_false hjoinable]
      have hdead : ¬ (c.workers .discovery).Live := by
        intro hlive
        refine hjoinable ⟨fun heq => ?_, fun heq => ?_⟩ <;> rw [heq] at hlive <;> exact hlive
      refine h.congr rfl rfl rfl (fun _ => Iff.rfl) rfl rfl rfl ?_
      refine h.workers.update (fun u hu => ?_) (fun hw u hu => h.workers.alone u t hu hw) id rfl rfl
        fun _ => hdead
      by_cases hut : u = t
      · subst hut
        rw [Function.update_self] at hu
        exact h.workers.worker u hu
      · rw [Function.update_of_ne hut] at hu
        exact h.workers.worker u hu

/-- Registering a callback does not touch anything else. -/
theorem setCallback (h : Whole expected c sockets log G) {instrumentType : InstrumentType}
    {callbackType : CallbackType} {callback : Option Callback} :
    Whole expected (c.setCallback instrumentType callbackType callback).2 sockets log
      (Function.update G t (G t)) := by
  have hcases : ∃ callbacks, (c.setCallback instrumentType callbackType callback).2 =
      { c with callbacks } := by
    cases instrumentType <;> cases callbackType <;> exact ⟨_, rfl⟩
  obtain ⟨callbacks, heq⟩ := hcases
  rw [heq]
  refine h.congr rfl rfl rfl (fun d => ?_) rfl rfl rfl (h.workers.congr rfl rfl rfl id id)
  cases d <;> exact Iff.rfl

theorem start (h : Whole expected c sockets log G) (ht : (G t).Free) :
    Whole expected c sockets log (Function.update G t {}) :=
  ⟨h.links.congr rfl rfl ht.fd.symm, h.tellings.congr rfl (fun _ => Iff.rfl) ht.telling.symm,
    h.workers.congr rfl rfl rfl (fun hw => by cases hw) (fun hw => by cases hw),
    h.closings.congr rfl (Or.inr rfl)⟩

end Whole

theorem tended_set {c : CommsRuntime} {s : CommsState} {H : Tid → Held commsSignature}
    {G : Tid → Task} (h : Whole expected c s.sockets s.log G) :
    Tended expected this (s.set this c) H G :=
  ⟨c, Finmap.lookup_insert _, h⟩

theorem scans_sound : (scanDiscipline this).SoundAtRest Task.Free (Tended expected this)
    fun s _ _ f i => Assumed expected this s f i where
  rest f r g h := h.1
  start s H G t f h _ hfree := by
    obtain ⟨c, hc, hwhole⟩ := h
    exact ⟨c, hc, hwhole.start hfree⟩
  lock s H G t f l m _ _ _ hmay := hmay.elim
  unlock s H G t l m _ _ _ hmay := hmay.elim
  call f p h g := by
    rintro ⟨hg, ⟨rfl, hworker, hf, hstops⟩ | ⟨worker, rfl, hf, hstops⟩⟩
    · exact obeys_discoveryRounds hg hworker hf hstops
    · exact obeys_serverRounds hg hf hstops
  act s H G t f a e x s' _ h hassumed hmay hexec := by
    refine ⟨trivial, ?_⟩
    cases a with
    | method this' a =>
      obtain ⟨rfl, hfd, htelling, hact⟩ := hmay
      obtain ⟨c, hc, hwhole⟩ := h
      have hexec' : s.execMethod this' c e a = some (x, s') := by
        have hlookup : s.exec e (.method this' a) = some (x, s') := hexec
        simpa only [CommsState.exec, hc] using hlookup
      have hopen : s.drainedOf this' = c.drained := by rw [CommsState.drainedOf, hc, Option.bind_some]
      have hscanner : Scanner f (G t) → c.drained = none := fun hscanner =>
        hwhole.open_of_scanner hscanner fun hf => hopen ▸ hassumed.scans hf _ rfl
      show Tended expected this' s' H (Function.update G t (acted (G t) a x))
      cases a with
      | begin worker =>
        simp only [CommsState.execMethod] at hexec'
        split at hexec'
        · rename_i hcreated
          cases hexec'
          refine tended_set ?_
          cases worker with
          | udpServer | bluetoothServer => exact hwhole.setOther (by simp) _
          | discovery =>
            exact hwhole.setWorker rfl rfl rfl (hwhole.workers.began hcreated rfl)
        · cases hexec'
      | finish worker =>
        simp only [CommsState.execMethod] at hexec'
        split at hexec'
        · cases hexec'
          refine tended_set ?_
          cases worker with
          | udpServer | bluetoothServer => exact hwhole.setOther (by simp) _
          | discovery =>
            exact hwhole.setWorker rfl rfl rfl (hwhole.workers.finished (hact rfl) rfl)
        · cases hexec'
      | join worker =>
        simp only [CommsState.execMethod] at hexec'
        split at hexec'
        · rename_i hended
          cases hexec'
          refine tended_set ?_
          cases worker with
          | udpServer | bluetoothServer => exact hwhole.setOther (by simp) _
          | discovery =>
            exact hwhole.setWorker rfl rfl rfl (hwhole.workers.joined hended rfl)
        · cases hexec'
      | joinable worker =>
        cases hexec'
        refine ⟨c, hc, hwhole.joinable⟩
      | stopRunning =>
        cases hexec'
        refine tended_set (hwhole.congr rfl rfl rfl (fun d => ?_) rfl rfl rfl ?_)
        · cases d <;> exact Iff.rfl
        · exact hwhole.workers.congr rfl rfl rfl id id
      | see peer =>
        cases hexec'
        exact tended_set (hwhole.see (hscanner hact) htelling.symm fun hmade hmarked =>
          hassumed.announced _ hmade _ c rfl hc rfl hmarked)
      | deviceDiscovered callback peer =>
        cases hexec'
        exact ⟨c, hc, hwhole.recorded htelling.symm rfl rfl⟩
      | linkDiscovered callback link =>
        cases hexec'
        exact ⟨c, hc, hwhole.recorded htelling.symm rfl rfl⟩
      | socket =>
        simp only [CommsState.execMethod] at hexec'
        split at hexec'
        · rename_i hfresh
          cases hexec'
          exact ⟨c, hc, hwhole.socket hfd.symm hfresh⟩
        · cases hexec'
      | close fd =>
        cases hexec'
        exact ⟨c, hc, hwhole.closeOwn hfd.symm⟩
      | publish link =>
        simp only [CommsState.execMethod] at hexec'
        split at hexec'
        · cases hexec'
          exact ⟨c, hc, hwhole.duplicate hfd.symm htelling.symm⟩
        · rename_i hkey
          cases hexec'
          refine tended_set (hwhole.push (hscanner hact) hfd.symm htelling.symm hkey fun hmade => ?_)
          exact hassumed.announced _ hmade _ c rfl hc rfl hkey
      | drain =>
        cases hexec'
        exact ⟨_, Finmap.lookup_insert _,
          hwhole.drain (hopen ▸ hassumed.drains rfl) hact.2.1⟩
      | dropCallback =>
        cases hexec'
        obtain ⟨dropped, hclosing⟩ := hact
        simp only [acted, hclosing]
        exact ⟨c, hc, hwhole.dropCallback hclosing⟩
      | linkDropped callback info =>
        cases hexec'
        obtain ⟨dropped, hclosing⟩ := hact
        simp only [acted, hclosing]
        exact ⟨c, hc, hwhole.recordedDrop hclosing⟩
      | registerCallback instrumentType callbackType callback =>
        cases hexec'
        refine tended_set ?_
        exact hwhole.setCallback
      | claimRunning | spawn => exact hact.elim
      | bind worker =>
        simp only [CommsState.execMethod] at hexec'
        split at hexec'
        · split at hexec' <;> cases hexec'
          exact ⟨c, hc, hwhole.same⟩
        · cases hexec'
          exact ⟨c, hc, hwhole.same⟩
      | _ =>
        cases hexec'
        exact ⟨c, hc, hwhole.same⟩
    | _ => exact hmay.elim

/-! ## What can be seen of a thread -/

variable {w : World commsSystem} {G : Tid → Task}

/-- What a thread knows of its socket and of the callback it owes can be seen. -/
theorem nextAct_eq {I : CommsState → (Tid → Held commsSignature) → (Tid → Task) → Prop}
    (h : (scanDiscipline this).Follows I w G) (hrest : ∀ t, w.thread t = none → (G t).Free)
    (t : Tid) : (nextAct w t).bind RuntimeAct.socketFd = (G t).fd ∧
      (nextAct w t).bind RuntimeAct.announces = (G t).telling := by
  unfold nextAct nextMethod
  rcases hthread : w.thread t with _ | ⟨f, p⟩
  · exact ⟨(hrest t hthread).fd.symm, (hrest t hthread).telling.symm⟩
  · have hobeys := h.obeys hthread
    cases p with
    | pure r => exact ⟨hobeys.2.1.fd.symm, hobeys.2.1.telling.symm⟩
    | lock => exact hobeys.1.elim
    | unlock => exact hobeys.2.1.elim
    | call => exact ⟨hobeys.1.1.fd.symm, hobeys.1.1.telling.symm⟩
    | act a k =>
      cases a with
      | method this' a => exact ⟨hobeys.1.2.1, hobeys.1.2.2.1⟩
      | _ => exact hobeys.1.elim

/-- The links are taken out by one act only. -/
theorem drainedOf_execMethod {s s' : CommsState} {c : CommsRuntime} {e : Choice} {a : RuntimeAct}
    {x : a.Answer} (hc : s.runtimes.lookup this = some c) (ha : a ≠ .drain)
    (h : s.execMethod this c e a = some (x, s')) : s'.drainedOf this = c.drained := by
  have hset : ∀ c' : CommsRuntime, (s.set this c').drainedOf this = c'.drained := fun c' => by
    simp [CommsState.drainedOf, CommsState.set]
  have hsame : s.drainedOf this = c.drained := by rw [CommsState.drainedOf, hc, Option.bind_some]
  cases a with
  | drain => exact absurd rfl ha
  | begin | finish | join | spawn =>
    simp only [CommsState.execMethod] at h
    split at h <;> cases h
    · exact hset _
    all_goals exact hsame
  | see peer =>
    cases h
    exact (hset _).trans c.drained_insertSeen
  | publish link =>
    simp only [CommsState.execMethod] at h
    split at h <;> cases h
    · exact hsame
    · exact hset _
  | claimRunning | stopRunning =>
    cases h
    exact hset _
  | registerCallback instrumentType callbackType callback =>
    cases h
    refine (hset _).trans ?_
    cases instrumentType <;> cases callbackType <;> rfl
  | socket | bind =>
    simp only [CommsState.execMethod] at h
    split at h
    · first
        | (cases h; exact hsame)
        | (split at h <;> cases h; exact hsame)
    · cases h
      all_goals exact hsame
  | _ =>
    cases h
    exact hsame

/-- A step leaves the links that were taken out, or takes them out. -/
theorem drainedOf_next (h : (scanDiscipline this).FollowsAtRest Task.Free (Tended expected this) w G)
    {t : Tid} {e : Choice} (hop : w.enabled (.run t e) = true) :
    (w.next (.run t e)).state.drainedOf this = w.state.drainedOf this ∨
      ∃ f k, w.thread t = some (f, .act (.method this .drain) k) := by
  have hran := World.ran hop
  generalize w.next (.run t e) = w' at hran
  cases hran with
  | done | lock | unlock | call => exact Or.inl rfl
  | @act f a k x s hthread hexec =>
    cases a with
    | method this' a =>
      obtain rfl : this' = this := (h.toFollows.obeys hthread).1.1
      by_cases ha : a = .drain
      · subst ha
        exact Or.inr ⟨f, k, hthread⟩
      · obtain ⟨c, hc, -⟩ := h.invariant
        have hexec' : w.state.execMethod this' c e a = some (x, s) := by
          have hlookup : w.state.exec e (.method this' a) = some (x, s) := hexec
          simpa only [CommsState.exec, hc] using hlookup
        refine Or.inl ((drainedOf_execMethod hc ha hexec').trans ?_)
        rw [CommsState.drainedOf, hc, Option.bind_some]
    | _ => exact (h.toFollows.obeys hthread).1.elim

/-- A thread that runs nothing knows nothing. -/
theorem follows_start {s : CommsState} (h : s.JustStarted this) (hmarked : expected.marked = ∅)
    (hmissed : expected.missed = ∅) :
    (scanDiscipline this).FollowsAtRest Task.Free (Tended expected this) (World.quiet s)
      (fun _ => {}) := by
  obtain ⟨c, hc, hlinks, hkeys, hbluetooth, hwifi, hdrained⟩ := h.runtime
  refine ⟨Discipline.follows_quiet ⟨c, hc, ⟨?_, ?_, ?_⟩, ?_, ?_, ?_⟩, fun _ _ => ⟨rfl, rfl⟩⟩
  · rw [hkeys, hlinks]
    rfl
  · rw [hlinks]
    exact List.nodup_nil
  · rw [hlinks, h.sockets]
    refine ⟨Sane.nil, fun o fd ho => ?_, fun o o' fd ho => ?_, fun fd hfd => ?_⟩
    · cases o <;> cases ho
    · cases o <;> cases ho
    · exact absurd hfd List.not_mem_nil
  · rw [h.log]
    refine ⟨List.nodup_nil, fun d hd => absurd hd List.not_mem_nil, fun t d ht => ?_,
      fun t u d ht => ?_, fun d hd => ?_, fun d _ hd => ?_, fun d hd => ?_⟩
    · cases ht
    · cases ht
    · rw [hmarked] at hd
      exact absurd hd (Set.notMem_empty d)
    · cases d with
      | bluetoothDevice key => exact absurd (hbluetooth ▸ hd) (Finset.notMem_empty key)
      | wifiDevice key => exact absurd (hwifi ▸ hd) (Finset.notMem_empty key)
      | link key => exact absurd (hkeys ▸ hd) (Finset.notMem_empty key)
    · rw [hmissed] at hd
      exact absurd hd (Set.notMem_empty d)
  · refine ⟨fun t ht => ?_, fun t u ht => ?_, fun t ht => ?_, fun links hlinks' => ?_⟩
    · cases ht
    · cases ht
    · cases ht
    · rw [hdrained] at hlinks'
      cases hlinks'
  · rw [h.log]
    exact ⟨fun _ => trivial, fun t u ht => absurd rfl ht, fun _ => rfl⟩

end Scans

end SensorLib.Comms
