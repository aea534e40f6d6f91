import SensorLib.Base.Descriptors
import SensorLib.Socket.OneHandle
import SensorLib.Threads.Sequential

/-! # The descriptors of one adapter

The ledger has an entry for each descriptor that the constructor, `CreateSocket`
and `accept` were given, and counts how often it was closed. The methods of the
adapter are called one after the other, its destructor the last.
-/

namespace SensorLib

open Threads Threads.Prog Runs Descriptors Handles

/-! ## What acts do with descriptors -/

/-- The descriptors that an act asks the system for. -/
def SocketAct.obtains (e : Choice) : SocketAct → List Int
  | .adapter _ .socket | .adapter _ .listenForPeer => [e.sockfd]
  | _ => []

namespace Adapter

variable (a : Adapter)

/-- The descriptors in `ConfigureSocketForConnection`. That of the Bluetooth adapter sets the
flags of `sockfd_`, whichever socket it is called for. -/
def configured (fd : Int) : List Int :=
  match a.kind with
  | .wifi _ => [fd]
  | .bluetooth _ => [a.sockfd, fd]

/-- The descriptors that the system calls of an act are issued on. -/
def touches : AdapterAct → List Int
  | .attempt channel => a.configured (a.channel channel)
  | .listenForPeer => a.configured a.sockfdListen
  | .startIo channel => [a.channel channel]
  | .configureForComms => [a.sockfd]
  | act => a.closedBy act

def holds (m : Member) : Option Int := held (a.fd m)

end Adapter

namespace SharedState

variable (s : SharedState)

def touches : SocketAct → List Int
  | .adapter x act => ((s.adapterOf x).map fun a => a.touches act).getD []
  | act => s.closedBy act

/-- What a member of the adapter of a handle holds. -/
def holds (x : SocketPtr) (m : Adapter.Member) : Option Int := (s.adapterOf x).bind fun a => a.holds m

/-- The ledger after an act. -/
def enter (act : SocketAct) (e : Choice) (ledger : Table) : Table :=
  (act.obtains e).foldl takes (closedAll ledger (s.closedBy act))

end SharedState

/-- The ledger after the constructor. -/
def constructed (e : Choice) : Table := takes (takes (takes [] e.sockfd) e.sockfdRequest) e.sockfdListen

@[reducible] def ledgerSystem (reuse : Bool) : System socketSignature :=
  (socketSystem reuse).recording fun act e s ledger => s.enter act e ledger

/-! ## The contract -/

/-- The deadline does not pass between the `poll` and the second look at the clock in
`SendConnectionRequest`, and nothing is accepted while `sockfd_` holds a descriptor. -/
def SocketAct.Spares (e : Choice) (s : SharedState) : SocketAct → Bool
  | .adapter _ .closeRequest => false
  | .adapter x .listenForPeer => e.sockfd = -1 || (s.adapterOf x).all fun a => a.sockfd < 0
  | _ => true

variable {reuse : Bool} {x : SocketPtr}

/-- No descriptor was closed twice, and once the adapter is gone each was closed. -/
structure ClosedOnce (x : SocketPtr) (s : SharedState × Table) : Prop where
  once : ∀ entry ∈ s.2, entry.closes ≤ 1
  ended : s.1.adapterOf x = none → ∀ entry ∈ s.2, entry.closes = 1

/-- The descriptors that an act is issued on are open. -/
def TouchesOpen (act : SocketAct) (s : SharedState × Table) : Prop :=
  ∀ fd ∈ s.1.touches act, 0 ≤ fd → fd ∈ live s.2

def descriptorContract (reuse : Bool) (x : SocketPtr) : Contract (ledgerSystem reuse) where
  holds := ClosedOnce x
  owes := TouchesOpen
  assumes act e s := act.Spares e s.1 = true

/-- Each open descriptor of the ledger is in one member of the adapter, and each member holds an
open one or none. -/
structure Balanced (x : SocketPtr) (s : SharedState × Table) : Prop where
  kept : Kept s.2 (s.1.holds x)
  opened : ∀ fd ∈ live s.2, fd ∈ s.1.openFds

theorem Balanced.closedOnce {s : SharedState × Table} (h : Balanced x s) : ClosedOnce x s where
  once := h.kept.sane.once
  ended hgone entry hentry := by
    refine h.kept.sane.closes_eq_one hentry fun hlive => ?_
    obtain ⟨m, hm⟩ := h.kept.owned _ hlive
    rw [SharedState.holds, hgone, Option.bind_none] at hm
    cases hm

/-- All other acts than those of `CloseSocket` are issued on what a member holds. -/
theorem Adapter.touches_fd {a : Adapter} {act : AdapterAct} {fd : Int} (hact : act.Preserves)
    (h : fd ∈ a.touches act) : ∃ m, a.fd m = fd := by
  have hconfigured : ∀ m, fd ∈ a.configured (a.fd m) → ∃ m, a.fd m = fd := by
    intro m hm
    unfold configured at hm
    split at hm
    · exact ⟨m, (List.mem_singleton.mp hm).symm⟩
    · rcases List.mem_cons.mp hm with rfl | hm
      · exact ⟨.sockfd, rfl⟩
      · exact ⟨m, (List.mem_singleton.mp hm).symm⟩
  cases act with
  | attempt channel =>
    cases channel with
    | comms => exact hconfigured .sockfd h
    | request => exact hconfigured .sockfdRequest h
  | listenForPeer => exact hconfigured .sockfdListen h
  | startIo channel =>
    cases channel with
    | comms => exact ⟨.sockfd, (List.mem_singleton.mp h).symm⟩
    | request => exact ⟨.sockfdRequest, (List.mem_singleton.mp h).symm⟩
  | configureForComms => exact ⟨.sockfd, (List.mem_singleton.mp h).symm⟩
  | closeRequest => exact ⟨.sockfdRequest, (List.mem_singleton.mp h).symm⟩
  | setSockfd | close | socket => exact hact.elim
  | _ => exact absurd h List.not_mem_nil

theorem Adapter.closedByDelete_fd {a : Adapter} {fd : Int} (h : fd ∈ a.closedByDelete) :
    ∃ m, a.fd m = fd := by
  rcases List.mem_cons.mp h with rfl | h
  · exact ⟨.sockfdRequest, rfl⟩
  rcases List.mem_cons.mp h with rfl | h
  · exact ⟨.sockfdListen, rfl⟩
  · simp only [commsToClose, List.mem_ite_nil_right, List.mem_singleton] at h
    exact ⟨.sockfd, h.2.symm⟩

namespace Balanced

variable {s : SharedState × Table} (h : Balanced x s)

include h

/-- A member of the adapter that holds a descriptor holds an open one. -/
theorem fd_live {a : Adapter} (ha : s.1.adapterOf x = some a) (m : Adapter.Member)
    (hm : 0 ≤ a.fd m) : a.fd m ∈ live s.2 := by
  refine h.kept.isLive m _ ?_
  rw [SharedState.holds, ha, Option.bind_some]
  exact held_eq_some.mpr ⟨hm, rfl⟩

theorem touchesOpen_adapter {act : AdapterAct} (hact : act.Preserves) :
    TouchesOpen (.adapter x act) s := by
  intro fd hfd hpos
  simp only [SharedState.touches] at hfd
  cases ha : s.1.adapterOf x with
  | none => simp [ha] at hfd
  | some a =>
    simp only [ha, Option.map_some, Option.getD_some] at hfd
    obtain ⟨m, rfl⟩ := Adapter.touches_fd hact hfd
    exact h.fd_live ha m hpos

theorem touchesOpen_delete : TouchesOpen (.deleteAdapter x) s := by
  intro fd hfd hpos
  simp only [SharedState.touches, SharedState.closedBy] at hfd
  cases ha : s.1.adapterOf x with
  | none => simp [ha] at hfd
  | some a =>
    simp only [ha, Option.map_some, Option.getD_some] at hfd
    obtain ⟨m, rfl⟩ := Adapter.closedByDelete_fd hfd
    exact h.fd_live ha m hpos

end Balanced

/-! ## What an act keeps -/

/-- The acts that leave the objects and the open descriptors alone. -/
def SocketAct.OffHeap : SocketAct → Prop
  | .newSocket _ | .adapter .. | .deleteAdapter _ | .deleteSocket _ => False
  | _ => True

theorem SharedState.exec_offHeap {s s' : SharedState} {act : SocketAct} {e : Choice}
    {answer : act.Answer} (hact : act.OffHeap) (h : s.exec reuse act e = some (answer, s')) :
    s'.heap = s.heap ∧ s'.openFds = s.openFds := by
  cases act with
  | newSocket | adapter | deleteAdapter | deleteSocket => exact hact.elim
  | createConfigSocket | createConfigId =>
    simp only [exec] at h
    split at h
    · cases h
    · cases h
      exact ⟨rfl, rfl⟩
  | readLink | hasAdapter =>
    obtain ⟨b, -, hs⟩ := Option.map_eq_some_iff.mp h
    cases hs
    exact ⟨rfl, rfl⟩
  | _ =>
    cases h
    exact ⟨rfl, rfl⟩

theorem SharedState.AdapterStep.holds {s s' : SharedState} {a a' : Adapter}
    (h : AdapterStep s s' x a a') : s.holds x = a.holds ∧ s'.holds x = a'.holds := by
  constructor
  · funext m
    rw [SharedState.holds, h.before, Option.bind_some]
  · funext m
    rw [SharedState.holds, h.after, if_pos rfl, Option.bind_some]

/-- What `socket` and `accept` return is entered, and nothing else happens. -/
theorem SharedState.enter_obtains {s : SharedState} {act : AdapterAct} {e : Choice} (ledger : Table)
    (hcloses : ∀ a : Adapter, a.closedBy act = [])
    (hobtains : SocketAct.obtains e (.adapter x act) = [e.sockfd]) :
    s.enter (.adapter x act) e ledger = takes ledger e.sockfd := by
  rw [enter, closedBy_adapter_nil hcloses, hobtains]
  rfl

/-- A member that holds nothing is closed in vain. -/
theorem closedAll_commsToClose {ledger : Table} (h : Sane ledger) (a : Adapter) :
    closedAll ledger a.commsToClose = closed a.sockfd ledger := by
  unfold Adapter.commsToClose
  split
  · rfl
  · rename_i hneg
    refine (closed_of_notMem ?_).symm
    intro entry hentry heq
    have hpos := h.nonneg entry hentry
    omega

namespace Balanced

variable {s s' : SharedState} {ledger : Table} {e : Choice}

theorem offHeap (h : Balanced x (s, ledger)) {act : SocketAct} {answer : act.Answer}
    (hact : act.OffHeap) (hexec : s.exec reuse act e = some (answer, s')) :
    Balanced x (s', s.enter act e ledger) := by
  obtain ⟨hheap, hfds⟩ := s.exec_offHeap hact hexec
  have hledger : s.enter act e ledger = ledger := by
    cases act <;> first | rfl | exact hact.elim
  have hholds : s'.holds x = s.holds x := by
    funext m
    simp only [SharedState.holds, SharedState.adapterOf, hheap]
  rw [hledger]
  exact ⟨hholds ▸ h.kept, fun fd hfd => hfds ▸ h.opened fd hfd⟩

/-- A descriptor that the system has just given is not open in the ledger. -/
theorem fresh (h : Balanced x (s, ledger)) {fd : Int} (hfd : FreshFd s.openFds fd) :
    Fresh ledger fd :=
  hfd.imp_right fun hnew => ⟨hnew.1, fun hlive => hnew.2 (h.opened fd hlive)⟩

theorem openFd_of_live {fds : List Int} {T : Table} {fd : Int} (h : ∀ n ∈ live T, n ∈ fds) :
    ∀ n ∈ live (takes T fd), n ∈ openFd fds fd := by
  intro n hn
  unfold takes at hn
  unfold openFd
  split at hn
  · rename_i hneg
    rw [if_pos hneg]
    exact h n hn
  · rename_i hpos
    rw [if_neg hpos, List.mem_cons]
    rw [live_opened, List.mem_cons] at hn
    exact hn.imp_right (h n)

/-- `sockfd_` takes what the system gives, where it held nothing. -/
theorem obtain_sockfd (h : Balanced x (s, ledger)) {a a' : Adapter}
    (hstep : SharedState.AdapterStep s s' x a a') (hnone : a.holds .sockfd = none)
    (hfresh : FreshFd s.openFds e.sockfd) (hfds : s'.openFds = openFd s.openFds e.sockfd)
    (hsockfd : a'.sockfd = e.sockfd) (hrequest : a'.sockfdRequest = a.sockfdRequest)
    (hlisten : a'.sockfdListen = a.sockfdListen) :
    Balanced x (s', takes ledger e.sockfd) := by
  obtain ⟨hbefore, hafter⟩ := hstep.holds
  have hholds : s'.holds x = Function.update (s.holds x) .sockfd (held e.sockfd) := by
    rw [hbefore, hafter]
    funext m
    cases m with
    | sockfd => rw [Function.update_self, ← hsockfd]; rfl
    | sockfdRequest =>
      rw [Function.update_of_ne (by simp), Adapter.holds, Adapter.holds, Adapter.fd, hrequest]
      rfl
    | sockfdListen =>
      rw [Function.update_of_ne (by simp), Adapter.holds, Adapter.holds, Adapter.fd, hlisten]
      rfl
  refine ⟨?_, hfds ▸ openFd_of_live h.opened⟩
  rw [hholds]
  exact h.kept.takes (h.fresh hfresh) (hbefore ▸ hnone)

theorem leavesFds (h : Balanced x (s, ledger)) {a a' : Adapter}
    (hstep : SharedState.AdapterStep s s' x a a') (hfds : s'.openFds = s.openFds)
    (hfd : a'.fd = a.fd) : Balanced x (s', ledger) := by
  obtain ⟨hbefore, hafter⟩ := hstep.holds
  have hholds : s'.holds x = s.holds x := by
    rw [hbefore, hafter]
    funext m
    rw [Adapter.holds, Adapter.holds, hfd]
  exact ⟨hholds ▸ h.kept, fun fd hlive => hfds ▸ h.opened fd hlive⟩

end Balanced

/-- Every act of the adapter but those of `CloseSocket` and `CreateSocket` keeps the balance. -/
theorem keeps_adapter {act : AdapterAct} (hact : act.Preserves) :
    (descriptorContract reuse x).Keeps (Balanced x) (.adapter x act) := by
  rintro ⟨s, ledger⟩ h
  refine ⟨h.touchesOpen_adapter hact, ?_⟩
  rintro e answer ⟨s', ledger'⟩ hspares hexec
  obtain ⟨hexec', rfl⟩ := System.recording_exec hexec
  obtain ⟨a, a', hstep, hadapter⟩ := SharedState.exec_adapter (show s.exec reuse (.adapter x act) e = some (answer, s') from hexec')
  by_cases hleaves : act.LeavesFds
  · obtain ⟨hfds, hfd⟩ := Adapter.exec_leavesFds hleaves hadapter
    have hledger : s.enter (.adapter x act) e ledger = ledger := by
      simp only [SharedState.enter, SharedState.closedBy, hstep.before]
      cases act <;> first | rfl | exact hleaves.elim
    simp only [hledger]
    exact h.leavesFds hstep hfds hfd
  · cases act with
    | setSockfd | close | socket => exact hact.elim
    | closeRequest => cases hspares
    | listenForPeer =>
      rw [SharedState.enter_obtains ledger (fun _ => rfl) rfl]
      rcases Adapter.exec_listenForPeer hadapter with
        ⟨hfailed, rfl, hfds⟩ | ⟨hne, hfresh, rfl, hfds⟩
      · rw [hfailed]
        exact h.leavesFds hstep hfds rfl
      · refine h.obtain_sockfd hstep ?_ hfresh hfds rfl rfl rfl
        have hspares' : (decide (e.sockfd = -1) || (s.adapterOf x).all fun a => a.sockfd < 0) := hspares
        simp only [hstep.before, hne, decide_false, Bool.false_or, Option.all_some,
          decide_eq_true_eq] at hspares'
        exact if_neg (Int.not_le.mpr hspares')
    | _ => exact absurd trivial hleaves

theorem keeps_connects {act : AdapterAct} (hact : act.Connects) :
    (descriptorContract reuse x).Keeps (Balanced x) (.adapter x act) := by
  refine keeps_adapter ?_
  cases act with
  | setSockfd | close | socket => exact hact.elim
  | _ => trivial

theorem keeps_offHeap {act : SocketAct} (hact : act.OffHeap) :
    (descriptorContract reuse x).Keeps (Balanced x) act := by
  rintro ⟨s, ledger⟩ h
  refine ⟨fun fd hfd => ?_, ?_⟩
  · have hnone : s.touches act = [] := by
      cases act <;> first | rfl | exact hact.elim
    simp only [hnone, List.not_mem_nil] at hfd
  · rintro e answer ⟨s', ledger'⟩ - hexec
    obtain ⟨hexec', rfl⟩ := System.recording_exec hexec
    exact h.offHeap hact (show s.exec reuse act e = some (answer, s') from hexec')

/-! ## What the methods keep -/

section Blocks

variable {α : Type}

theorem actsIn_locked {T : SocketAct → Prop} {l : Mutex} {m : Mode} {p : Program α}
    (hp : ActsIn (S := socketSignature) T p) : ActsIn (S := socketSignature) T (locked l m p) :=
  hp.locked

theorem actsIn_modifyConfig {get : Program (Option BratislavaSocketConfig)}
    {change : BratislavaSocketConfig → BratislavaSocketConfig}
    (hget : ActsIn (S := socketSignature) SocketAct.OffHeap get) :
    ActsIn (S := socketSignature) SocketAct.OffHeap (Registry.modifyConfig get change) := by
  refine hget.bind fun found => ?_
  cases found with
  | none => trivial
  | some config => exact ⟨trivial, fun _ => trivial⟩

theorem actsIn_readConfig {get : Program (Option BratislavaSocketConfig)} {default : α}
    {field : BratislavaSocketConfig → α}
    (hget : ActsIn (S := socketSignature) SocketAct.OffHeap get) :
    ActsIn (S := socketSignature) SocketAct.OffHeap (Registry.readConfig get default field) := by
  refine hget.bind fun found => ?_
  cases found <;> trivial

theorem actsIn_getConfigSocket :
    ActsIn (S := socketSignature) SocketAct.OffHeap (Registry.getConfigSocket x) :=
  ⟨trivial, fun _ => trivial⟩

theorem actsIn_getConfigId {id : String} :
    ActsIn (S := socketSignature) SocketAct.OffHeap (Registry.getConfigId id) :=
  ⟨trivial, fun _ => trivial⟩

/-- The methods of the registry leave the objects alone. -/
theorem actsIn_built {P : AdapterAct → Prop} {T : SocketAct → Prop} {ids : String → Prop}
    {p : Program α} (hadapter : ∀ a, ActsOn P x a → T a) (hoffHeap : ∀ a : SocketAct, a.OffHeap → T a)
    (hp : p.Built (PinnedBlock P x ids)) : ActsIn (S := socketSignature) T p := by
  refine hp.actsIn fun β q hq => ?_
  cases hq with
  | only hq => exact hq.actsIn.mono hadapter
  | readLink | hasAdapter => exact ⟨hoffHeap _ trivial, fun _ => trivial⟩
  | connect | disconnect =>
    exact (actsIn_locked (actsIn_modifyConfig actsIn_getConfigSocket)).mono hoffHeap
  | isConnected => exact (actsIn_locked (actsIn_readConfig actsIn_getConfigSocket)).mono hoffHeap
  | getRemotePort | getLocalPort =>
    exact (actsIn_locked (actsIn_readConfig actsIn_getConfigId)).mono hoffHeap
  | addLocalPort id =>
    refine ActsIn.mono hoffHeap (actsIn_locked ?_)
    refine ActsIn.bind (S := socketSignature) (p := Registry.acquireLocalPort)
      ⟨trivial, fun _ => trivial⟩ fun port => ?_
    split
    · exact actsIn_modifyConfig actsIn_getConfigId
    · trivial

end Blocks

/-- Work on the adapter leaves the ledger balanced, if it is made of acts that do. -/
theorem wp_pinned {P : AdapterAct → Prop} {α : Type} {p : Program α} {s : SharedState × Table}
    (hP : ∀ act, P act → (descriptorContract reuse x).Keeps (Balanced x) (.adapter x act))
    (hp : p.Built (PinnedBlock P x fun _ => True)) (hs : Balanced x s) :
    (descriptorContract reuse x).Wp p (fun _ => Balanced x) s := by
  refine Contract.wp_actsIn (fun s hs => hs.closedOnce) (fun _ ha => ha) ?_ hs
  refine actsIn_built (fun a ha => ?_) (fun a ha => keeps_offHeap ha) hp
  cases a with
  | adapter y act =>
    obtain ⟨rfl, hact⟩ := ha
    exact hP act hact
  | turn => exact keeps_offHeap trivial
  | _ => exact ha.elim

/-! ## `CloseSocket` and `CreateSocket` -/

/-- What a contract says of the steps that close `sockfd_` and open it again. `J fd` holds where it is
known to be `fd`, and `K fd` where it is still to be set to `fd`. -/
structure Reopens {Y : System socketSignature} (C : Contract Y) (x : SocketPtr) (I : Y.State → Prop)
    (J K : Int → Y.State → Prop) : Prop where
  flag : C.Keeps I (.adapter x (.setConnected false))
  read : C.Brings I (.adapter x .sockfd) J
  close : ∀ fd, C.Brings (J fd) (.adapter x (.close fd)) fun _ => K (-1)
  set : ∀ fd, C.Brings (K fd) (.adapter x (.setSockfd fd)) fun _ => J fd
  create : C.Brings (J (-1)) (.adapter x .socket) K
  known : ∀ fd s, J fd s → I s
  absent : ∀ fd s, J fd s → ¬ 0 ≤ fd → J (-1) s
  holds : ∀ s, I s → C.holds s
  pending : ∀ fd s, K fd s → C.holds s

namespace Reopens

variable {Y : System socketSignature} {C : Contract Y} {I : Y.State → Prop} {J K : Int → Y.State → Prop}
  {s : Y.State}

theorem wp_closeSocket (h : Reopens C x I J K) (hs : I s) :
    C.Wp (BaseAdapter.closeSocket x) (fun _ => J (-1)) s := by
  have hholds : ∀ fd s, J fd s → C.holds s := fun fd s hs => h.holds s (h.known fd s hs)
  refine h.read.wp_answer hholds hs fun fd s hs => ?_
  show C.Wp (if 0 ≤ fd then _ else Prog.pure ()) _ s
  split
  · refine h.read.wp_answer hholds (h.known fd s hs) fun fd s hs => ?_
    refine (h.close fd).wp_act (h.pending (-1)) hs fun _ s hs => ?_
    exact (h.set (-1)).wp_act (hholds (-1)) hs fun _ _ hs => hs
  · rename_i hneg
    exact h.absent fd s hs hneg

theorem wp_createSocket (h : Reopens C x I J K) (hs : J (-1) s) :
    C.Wp (BaseAdapter.createSocket x) (fun _ => I) s := by
  refine h.create.wp_answer h.pending hs fun fd s hs => ?_
  exact (h.set fd).wp_act (fun s hs => h.holds s (h.known fd s hs)) hs fun _ s hs => h.known fd s hs

theorem wp_reopen (h : Reopens C x I J K) (hs : I s) :
    C.Wp (BaseAdapter.reopen x) (fun _ => I) s := by
  refine h.flag.wp_act h.holds hs fun _ s hs => ?_
  refine (h.wp_closeSocket hs).bind fun _ s hs => (h.wp_createSocket hs).bind fun _ s hs => ?_
  refine h.read.wp_answer (fun fd s hs => h.holds s (h.known fd s hs)) hs fun sockfd s hs => ?_
  show C.Wp (if sockfd ≠ -1 then Prog.pure 0 else Prog.pure (-1)) _ s
  split <;> exact h.known sockfd s hs

end Reopens

/-- `sockfd_` is `fd`, as the thread has read it or set it. -/
structure Has (x : SocketPtr) (fd : Int) (s : SharedState × Table) : Prop extends Balanced x s where
  sockfd : s.1.holds x .sockfd = held fd

/-- The ledger is balanced once `sockfd_` is set to `fd`. -/
structure Owes (x : SocketPtr) (fd : Int) (s : SharedState × Table) : Prop where
  adapter : s.1.adapterOf x ≠ none
  kept : Kept s.2 (Function.update (s.1.holds x) .sockfd (held fd))
  opened : ∀ n ∈ live s.2, n ∈ s.1.openFds

theorem Owes.closedOnce {fd : Int} {s : SharedState × Table} (h : Owes x fd s) : ClosedOnce x s where
  once := h.kept.sane.once
  ended hgone := absurd hgone h.adapter

theorem touchesOpen_of_nil {act : AdapterAct} {s : SharedState × Table}
    (h : ∀ a : Adapter, a.touches act = []) : TouchesOpen (.adapter x act) s := by
  intro fd hfd
  simp only [SharedState.touches] at hfd
  cases ha : s.1.adapterOf x with
  | none => simp [ha] at hfd
  | some a => simp [ha, h a] at hfd

/-- What an act of the adapter does, in the system that writes the ledger. -/
theorem recorded_adapter {s s' : SharedState × Table} {act : AdapterAct} {e : Choice}
    {answer : act.Answer}
    (hexec : (ledgerSystem reuse).exec (.adapter x act) e s = some (answer, s')) :
    ∃ a a', SharedState.AdapterStep s.1 s'.1 x a a' ∧
      a.exec s.1.openFds e act = some (answer, a', s'.1.openFds) ∧
      s'.2 = s.1.enter (.adapter x act) e s.2 := by
  obtain ⟨hexec', hledger⟩ := System.recording_exec hexec
  obtain ⟨a, a', hstep, hadapter⟩ := SharedState.exec_adapter
    (show s.1.exec reuse (.adapter x act) e = some (answer, s'.1) from hexec')
  exact ⟨a, a', hstep, hadapter, hledger⟩

theorem SharedState.AdapterStep.alive {s s' : SharedState} {a a' : Adapter}
    (h : AdapterStep s s' x a a') : s'.adapterOf x ≠ none := by
  rw [h.after, if_pos rfl]
  exact Option.some_ne_none a'

theorem brings_sockfd :
    (descriptorContract reuse x).Brings (Balanced x) (.adapter x .sockfd) fun fd => Has x fd := by
  have hkept : (descriptorContract reuse x).Keeps (Balanced x) (.adapter x .sockfd) :=
    keeps_connects trivial
  intro s hs
  obtain ⟨howes, hkeeps⟩ := hkept s hs
  refine ⟨howes, fun e fd s' hspares hexec => ⟨hkeeps e fd s' hspares hexec, ?_⟩⟩
  obtain ⟨a, a', hstep, hadapter, -⟩ := recorded_adapter hexec
  simp only [Adapter.exec, Option.some.injEq, Prod.mk.injEq] at hadapter
  obtain ⟨rfl, rfl, -⟩ := hadapter
  rw [hstep.holds.2]
  rfl

/-- The descriptor that was read is closed, and the member still has its number. -/
theorem brings_close (fd : Int) : (descriptorContract reuse x).Brings (Has x fd)
    (.adapter x (.close fd)) fun _ => Owes x (-1) := by
  intro s hs
  refine ⟨fun n hn hpos => ?_, ?_⟩
  · simp only [SharedState.touches] at hn
    cases ha : s.1.adapterOf x with
    | none => simp [ha] at hn
    | some a =>
      simp only [ha, Adapter.touches, Adapter.closedBy, Option.map_some, Option.getD_some,
        List.mem_singleton] at hn
      subst hn
      exact hs.kept.isLive .sockfd n (hs.sockfd.trans (if_pos hpos))
  · intro e answer s' _ hexec
    obtain ⟨a, a', hstep, hadapter, hledger⟩ := recorded_adapter hexec
    simp only [Adapter.exec, Adapter.closedBy, Option.some.injEq, Prod.mk.injEq, true_and]
      at hadapter
    obtain ⟨rfl, hfds⟩ := hadapter
    have hclosed : s'.2 = closed fd s.2 := by
      rw [hledger]
      simp only [SharedState.enter, SharedState.closedBy, hstep.before, SocketAct.obtains,
        Option.map_some, Option.getD_some, Adapter.closedBy, List.foldl_nil]
      rfl
    refine ⟨hstep.alive, ?_, fun n hlive => ?_⟩
    · rw [hclosed, hstep.holds.2, ← hstep.holds.1]
      exact hs.kept.closes hs.sockfd
    · rw [hclosed] at hlive
      obtain ⟨hold, hne⟩ := hs.kept.live_of_closes hs.sockfd hlive
      rw [← hfds, mem_removeAll, List.mem_singleton]
      exact ⟨hs.opened n hold, hne⟩

theorem brings_setSockfd (fd : Int) : (descriptorContract reuse x).Brings (Owes x fd)
    (.adapter x (.setSockfd fd)) fun _ => Has x fd := by
  intro s hs
  refine ⟨touchesOpen_of_nil fun _ => rfl, fun e answer s' _ hexec => ?_⟩
  obtain ⟨a, a', hstep, hadapter, hledger⟩ := recorded_adapter hexec
  simp only [Adapter.exec, Option.some.injEq, Prod.mk.injEq, true_and] at hadapter
  obtain ⟨rfl, hfds⟩ := hadapter
  have hsame : s'.2 = s.2 := by
    rw [hledger]
    simp only [SharedState.enter, SharedState.closedBy, hstep.before]
    rfl
  have hholds : s'.1.holds x = Function.update (s.1.holds x) .sockfd (held fd) := by
    rw [hstep.holds.1, hstep.holds.2]
    funext m
    cases m with
    | sockfd =>
      rw [Function.update_self]
      rfl
    | sockfdRequest | sockfdListen =>
      rw [Function.update_of_ne (by simp)]
      rfl
  refine ⟨⟨?_, ?_⟩, ?_⟩
  · rw [hsame, hholds]
    exact hs.kept
  · rw [hsame, ← hfds]
    exact hs.opened
  · simp only [hholds, Function.update_self]

theorem brings_socket : (descriptorContract reuse x).Brings (Has x (-1)) (.adapter x .socket)
    fun fd => Owes x fd := by
  intro s hs
  refine ⟨touchesOpen_of_nil fun _ => rfl, fun e fd s' _ hexec => ?_⟩
  obtain ⟨a, a', hstep, hadapter, hledger⟩ := recorded_adapter hexec
  obtain ⟨rfl, hfresh, rfl, hfds⟩ := Adapter.exec_socket hadapter
  rw [SharedState.enter_obtains s.2 (fun _ => rfl) rfl] at hledger
  refine ⟨hstep.alive, ?_, ?_⟩
  · rw [hledger, hstep.holds.2, ← hstep.holds.1]
    exact hs.kept.takes (hs.fresh hfresh) hs.sockfd
  · rw [hledger, hfds]
    exact Balanced.openFd_of_live hs.opened

theorem reopens : Reopens (descriptorContract reuse x) x (Balanced x) (Has x) (Owes x) where
  flag := keeps_connects trivial
  read := brings_sockfd
  close := brings_close
  set := brings_setSockfd
  create := brings_socket
  known _ _ h := h.toBalanced
  absent _ _ h hneg := ⟨h.toBalanced, h.sockfd.trans (if_neg hneg)⟩
  holds _ h := h.closedOnce
  pending _ _ h := h.closedOnce

/-- The destructor closes what the three members hold. -/
theorem Balanced.delete {s s' : SharedState} {ledger : Table} {e : Choice}
    (h : Balanced x (s, ledger)) (hexec : s.exec reuse (.deleteAdapter x) e = some ((), s')) :
    Balanced x (s', s.enter (.deleteAdapter x) e ledger) := by
  obtain ⟨a, ha, -, hafter, -⟩ := SharedState.exec_deleteAdapter hexec
  have hheld : ∀ m, s.holds x m = held (a.fd m) := by
    intro m
    rw [SharedState.holds, ha]
    rfl
  have hrequest := h.kept.closes (hheld .sockfdRequest)
  have hlisten := hrequest.closes ((Function.update_of_ne (by simp) _ _).trans (hheld .sockfdListen))
  have hall := hlisten.closes ((Function.update_of_ne (by simp) _ _).trans
    ((Function.update_of_ne (by simp) _ _).trans (hheld .sockfd)))
  have hledger : s.enter (.deleteAdapter x) e ledger =
      closed a.sockfd (closed a.sockfdListen (closed a.sockfdRequest ledger)) := by
    simp only [SharedState.enter, SharedState.closedBy, ha, SocketAct.obtains, Option.map_some,
      Option.getD_some, Adapter.closedByDelete, List.foldl_nil]
    show closedAll (closed a.sockfdListen (closed a.sockfdRequest ledger)) a.commsToClose = _
    exact closedAll_commsToClose hlisten.sane a
  have hnone : s'.holds x = fun _ => none := by
    funext m
    rw [SharedState.holds, hafter, if_pos rfl]
    rfl
  have hempty : Function.update (Function.update (Function.update (s.holds x) .sockfdRequest none)
      .sockfdListen none) .sockfd none = s'.holds x := by
    rw [hnone]
    funext m
    cases m <;> rfl
  rw [hempty] at hall
  refine ⟨hledger ▸ hall, fun fd hlive => ?_⟩
  rw [hledger] at hlive
  obtain ⟨m, hm⟩ := hall.owned fd hlive
  rw [hnone] at hm
  cases hm

theorem keeps_delete : (descriptorContract reuse x).Keeps (Balanced x) (.deleteAdapter x) := by
  rintro ⟨s, ledger⟩ hs
  refine ⟨hs.touchesOpen_delete, ?_⟩
  rintro e _ ⟨s', ledger'⟩ - hexec
  obtain ⟨hexec', rfl⟩ := System.recording_exec hexec
  exact hs.delete (show s.exec reuse (.deleteAdapter x) e = some ((), s') from hexec')

/-- Each method of the adapter leaves the ledger balanced. -/
theorem wp_method (m : AdapterMethod) {s : SharedState × Table} (hs : Balanced x s) :
    (descriptorContract reuse x).Wp (m.body x) (fun _ => Balanced x) s := by
  have hreturn {P : AdapterAct → Prop} {p : Program Int}
      (hP : ∀ act, P act → (descriptorContract reuse x).Keeps (Balanced x) (.adapter x act))
      (hp : p.Built (PinnedBlock P x fun _ => True)) : (descriptorContract reuse x).Wp
        (p.bind fun value => Prog.pure (CallResult.status ⟨value, none⟩)) (fun _ => Balanced x) s :=
    (wp_pinned hP hp hs).bind fun _ _ hs => hs
  cases m with
  | conn => exact hreturn (fun _ => keeps_connects) (built_conn (fun _ ha => ha) fun _ => trivial)
  | disconn =>
    have hkind : (descriptorContract reuse x).Keeps (Balanced x) (.adapter x .kind) :=
      keeps_connects trivial
    refine Contract.Wp.bind (P := fun _ => Balanced x) ?_ fun _ _ hs => hs
    refine hkind.wp_act (fun _ h => h.closedOnce) hs fun kind s hs => ?_
    cases kind <;> exact reopens.wp_reopen hs
  | setConnTimeout ms =>
    refine hreturn (P := fun act => act = .setConnTimeout ms) ?_ (built_only (only_setConnTimeout rfl))
    rintro _ rfl
    exact keeps_adapter trivial
  | setRecvTimeout ms =>
    exact hreturn (P := fun act => act.Preserves) (fun _ => keeps_adapter)
      (built_only (only_setRecvTimeout trivial trivial trivial))
  | destructor => exact keeps_delete.wp_act (fun _ h => h.closedOnce) hs fun _ _ hs => hs

/-! ## Runs -/

/-- The methods of the adapter of `x`. -/
def Call.OnAdapter (x : SocketPtr) (f : Call) : Prop := ∃ m, f = .method x m

/-- Every descriptor is closed once and not twice, by the end of the destructor, and no system
call is issued on a closed one. -/
structure Accounted (x : SocketPtr) (w : World (ledgerSystem reuse)) : Prop where
  closedOnce : ClosedOnce x w.state
  touchesOpen : ∀ t act, w.nextAct t = some act → TouchesOpen act w.state

/-- The step spares the descriptors of the adapter. -/
def Spares (w : World (ledgerSystem reuse)) (op : Op (ledgerSystem reuse)) : Prop :=
  ∀ x ∈ w.performed op, x.1.Spares x.2 w.state.1 = true

instance (w : World (ledgerSystem reuse)) (op : Op (ledgerSystem reuse)) :
    Decidable (Spares w op) :=
  inferInstanceAs (Decidable (∀ x ∈ w.performed op, x.1.Spares x.2 w.state.1 = true))

/-- The constructor opens three descriptors, one after the other. -/
theorem newSocket_fds {s₀ s : SharedState} {link : BratislavaLink} {e : Choice}
    (hnew : s₀.newSocket reuse link e = some (some x, s)) :
    (∃ a : Adapter, s.adapterOf x = some a ∧ a.sockfd = e.sockfd ∧
      a.sockfdRequest = e.sockfdRequest ∧ a.sockfdListen = e.sockfdListen) ∧
    FreshFd s₀.openFds e.sockfd ∧ FreshFd (openFd s₀.openFds e.sockfd) e.sockfdRequest ∧
    FreshFd (openFd (openFd s₀.openFds e.sockfd) e.sockfdRequest) e.sockfdListen ∧
    s.openFds = openFd (openFd (openFd s₀.openFds e.sockfd) e.sockfdRequest) e.sockfdListen := by
  unfold SharedState.newSocket at hnew
  split at hnew
  · split at hnew
    · rename_i a ha
      dsimp only at hnew
      split at hnew
      · rename_i hfresh
        cases hnew
        refine ⟨⟨a, ?_, newAdapter_fds ha⟩, hfresh.1, hfresh.2.1, hfresh.2.2, rfl⟩
        simp [SharedState.adapterOf, SharedState.allocate]
      · cases hnew
    · cases hnew
  · cases hnew

/-- The constructor leaves the ledger balanced. -/
theorem balanced_constructed {s₀ s : SharedState} {link : BratislavaLink} {e : Choice}
    (hnew : s₀.newSocket reuse link e = some (some x, s)) : Balanced x (s, constructed e) := by
  obtain ⟨⟨a, ha, hsockfd, hrequest, hlisten⟩, hfresh, hfresh', hfresh'', hfds⟩ := newSocket_fds hnew
  have hempty : ∀ n ∈ live ([] : Table), n ∈ s₀.openFds := fun n hn => absurd hn List.not_mem_nil
  have hopen := @Balanced.openFd_of_live _ _ e.sockfd hempty
  have hopen' := @Balanced.openFd_of_live _ _ e.sockfdRequest hopen
  have hnone : Kept ([] : Table) (fun _ : Adapter.Member => none) :=
    ⟨Sane.nil, fun _ _ h => (by cases h), fun _ _ _ h => (by cases h),
      fun n hn => absurd hn List.not_mem_nil⟩
  have hfirst := hnone.takes (o := .sockfd) (hfresh.imp_right fun h => ⟨h.1, fun hn =>
    h.2 (hempty _ hn)⟩) rfl
  have hsecond := hfirst.takes (o := .sockfdRequest) (hfresh'.imp_right fun h => ⟨h.1, fun hn =>
    h.2 (hopen _ hn)⟩) (Function.update_of_ne (by simp) _ _)
  have hthird := hsecond.takes (o := .sockfdListen) (hfresh''.imp_right fun h => ⟨h.1, fun hn =>
    h.2 (hopen' _ hn)⟩) ((Function.update_of_ne (by simp) _ _).trans
      (Function.update_of_ne (by simp) _ _))
  refine ⟨?_, fun n hn => hfds ▸ Balanced.openFd_of_live hopen' n hn⟩
  have hholds : s.holds x = Function.update (Function.update (Function.update (fun _ => none)
      .sockfd (held e.sockfd)) .sockfdRequest (held e.sockfdRequest)) .sockfdListen
      (held e.sockfdListen) := by
    funext m
    rw [SharedState.holds, ha, Option.bind_some]
    cases m with
    | sockfd => exact congrArg held hsockfd
    | sockfdRequest => exact congrArg held hrequest
    | sockfdListen => exact congrArg held hlisten
  rw [hholds]
  exact hthird

/-- In a run of calls of the methods of a new adapter, one after the other, in which no deadline
passes between a `poll` and the look at the clock after it and nothing is accepted while `sockfd_`
holds a descriptor, every descriptor is accounted for. -/
theorem descriptors_closed_once {s₀ s : SharedState} {link : BratislavaLink} {e : Choice}
    (hnew : s₀.newSocket reuse link e = some (some x, s)) {t : Tid}
    {ops : List (Op (ledgerSystem reuse))} (hcalls : Calls (Call.OnAdapter x) ops)
    (hone : ∀ op ∈ ops, op.tid = t)
    (hlegal : (machine (ledgerSystem reuse)).Legal (World.quiet (s, constructed e)) ops)
    (hspares : (machine (ledgerSystem reuse)).Each Spares (World.quiet (s, constructed e)) ops) :
    (machine (ledgerSystem reuse)).Always (Accounted x) (World.quiet (s, constructed e)) ops := by
  refine @Contract.attended_always _ _ (descriptorContract reuse x) _ (Balanced x)
    (fun _ _ _ => True) (Call.OnAdapter x) t (Accounted x) (fun _ h => h.closedOnce) ?_ ?_
    (balanced_constructed hnew) _ hcalls hone hlegal hspares
  · rintro _ ⟨m, rfl⟩ s hs
    exact (wp_method m hs).mono fun _ _ hs => ⟨hs, trivial⟩
  · exact fun w hw => ⟨hw.holds, fun u act hact => hw.owes hact⟩

/-- The object of a first socket. -/
def SharedState.oneAdapter (link : BratislavaLink) (e : Choice) : SharedState :=
  ((SharedState.noSockets.newSocket false link e).map Prod.snd).getD .noSockets

def threeFds : Choice where
  address := 1
  sockfd := 3
  sockfdRequest := 4
  sockfdListen := 5
  deviceType := .adapter

/-- The adapter connects, is given another timeout, disconnects and is destroyed. -/
def connThenDestructor : List (Op (ledgerSystem false)) :=
  .start 0 (.method 1 .conn) ::
    List.replicate 38 (.run 0 { attempt := .connected, status := 4, port := 7 }) ++
    .start 0 (.method 1 (.setRecvTimeout 9)) :: List.replicate 4 (.run 0 {}) ++
    .start 0 (.method 1 .disconn) :: List.replicate 10 (.run 0 { sockfd := 3 }) ++
    .start 0 (.method 1 .destructor) :: List.replicate 2 (.run 0 {})

theorem descriptors_closed_once_conn_then_destructor :
    (machine (ledgerSystem false)).Always (Accounted 1)
      (World.quiet (.oneAdapter (.wifi "aa" "aa") threeFds, constructed threeFds))
      connThenDestructor := by
  have hnew : SharedState.noSockets.newSocket false (.wifi "aa" "aa") threeFds =
      some (some 1, .oneAdapter (.wifi "aa" "aa") threeFds) := rfl
  refine descriptors_closed_once hnew (t := 0) ?_ (by decide +kernel) (by decide +kernel)
    (by decide +kernel)
  intro t f hmem
  simp [connThenDestructor] at hmem
  rcases hmem with ⟨_, rfl⟩ | ⟨_, rfl⟩ | ⟨_, rfl⟩ | ⟨_, rfl⟩ <;> exact ⟨_, rfl⟩

/-- Whatever the calls and the outcomes, the descriptors of a new adapter are accounted for. -/
def AlwaysAccounted (link : BratislavaLink) : Prop :=
  ∀ (s₀ s : SharedState) (e : Choice) (x : SocketPtr) (ops : List (Op (ledgerSystem false))),
    s₀.newSocket false link e = some (some x, s) → Calls (Call.OnAdapter x) ops →
    (∀ op ∈ ops, op.tid = 0) →
    (machine (ledgerSystem false)).Legal (World.quiet (s, constructed e)) ops →
    (machine (ledgerSystem false)).Always (Accounted x) (World.quiet (s, constructed e)) ops

/-- The deadline passes between the `poll` of the request socket and the look at the clock after
it. Then the adapter is destroyed. -/
def timeoutThenDestructor (steps : Nat) : List (Op (ledgerSystem false)) :=
  .start 0 (.method 1 .conn) :: List.replicate steps (.run 0 { attempt := .expiredReady }) ++
    .start 0 (.method 1 .destructor) :: List.replicate 2 (.run 0 {})

def BratislavaLink.bluetooth (linkID macAddress : String) : BratislavaLink where
  linkID
  instrumentType := .bluetooth
  bluetoothDeviceInfo := ⟨macAddress⟩
  wifiDeviceInfo := ⟨""⟩

/-- A number is closed twice, with an adapter of either class. -/
theorem request_socket_closed_twice :
    ¬ AlwaysAccounted (.wifi "aa" "aa") ∧ ¬ AlwaysAccounted (.bluetooth "aa" "aa") := by
  have hcalls : ∀ steps, Calls (Call.OnAdapter 1) (timeoutThenDestructor steps) := by
    intro steps t f hmem
    simp [timeoutThenDestructor] at hmem
    rcases hmem with ⟨_, rfl⟩ | ⟨_, rfl⟩ <;> exact ⟨_, rfl⟩
  have hone : ∀ steps, ∀ op ∈ timeoutThenDestructor steps, op.tid = 0 := by
    intro steps op hop
    simp [timeoutThenDestructor] at hop
    rcases hop with rfl | ⟨-, rfl⟩ | rfl | rfl <;> rfl
  have hlegal : ∀ x ∈ [(BratislavaLink.wifi "aa" "aa", 21), (.bluetooth "aa" "aa", 11)],
      (machine (ledgerSystem false)).Legal
        (World.quiet (.oneAdapter x.1 threeFds, constructed threeFds))
        (timeoutThenDestructor x.2) := by decide +kernel
  have htwice : ∀ x ∈ [(BratislavaLink.wifi "aa" "aa", 21), (.bluetooth "aa" "aa", 11)],
      (⟨4, 2⟩ : Entry) ∈ ((machine (ledgerSystem false)).run
        (World.quiet (.oneAdapter x.1 threeFds, constructed threeFds))
        (timeoutThenDestructor x.2)).state.2 := by decide +kernel
  have hfails : ∀ x ∈ [(BratislavaLink.wifi "aa" "aa", 21), (.bluetooth "aa" "aa", 11)],
      SharedState.noSockets.newSocket false x.1 threeFds =
        some (some 1, .oneAdapter x.1 threeFds) → ¬ AlwaysAccounted x.1 := by
    intro x hx hnew h
    have hlast := (h _ _ _ _ _ hnew (hcalls x.2) (hone x.2) (hlegal x hx)).last
    have honce := hlast.closedOnce.once _ (htwice x hx)
    exact absurd honce (by decide)
  exact ⟨hfails (BratislavaLink.wifi "aa" "aa", 21) (by simp) rfl,
    hfails (BratislavaLink.bluetooth "aa" "aa", 11) (by simp) rfl⟩

end SensorLib
