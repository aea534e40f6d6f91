import SensorLib.Socket.Reconnect

/-! # The connections of adapters

Several adapters share one table of descriptors. What each of them holds is
open, and no other one holds it. A descriptor is connected from the answer of
`connect` or `accept` until it is closed or its adapter disconnects.
-/

namespace SensorLib

open Threads Runs Descriptors

variable {reuse : Bool} {x : SocketPtr} {e : Choice} {act : SocketAct}

/-! ## What adapters hold -/

/-- The descriptors that adapters hold are open, and no two members hold the same. -/
structure SharedState.Separate (s : SharedState) : Prop where
  nonneg : ∀ fd ∈ s.openFds, 0 ≤ fd
  members : Descriptors.Separate s.openFds fun o : SocketPtr × Adapter.Member => s.holds o.1 o.2

namespace SharedState.Separate

variable {s s' : SharedState}

theorem of_holds (h : s.Separate) (hfds : s'.openFds = s.openFds)
    (hholds : ∀ y m fd, s'.holds y m = some fd → s.holds y m = some fd) : s'.Separate := by
  refine ⟨hfds ▸ h.nonneg, h.members.closes fun o fd ho => ?_⟩
  have hold := hholds o.1 o.2 fd ho
  exact ⟨hold, hfds ▸ h.members.isOpen o fd hold⟩

theorem closes (h : s.Separate) {fds : List Int} (hfds : s'.openFds = s.openFds.removeAll fds)
    (hholds : ∀ y m fd, s'.holds y m = some fd → s.holds y m = some fd ∧ fd ∉ fds) :
    s'.Separate := by
  refine ⟨fun fd hfd => ?_, h.members.closes fun o fd ho => ?_⟩
  · rw [hfds] at hfd
    exact h.nonneg fd (mem_removeAll.mp hfd).1
  · obtain ⟨hold, hnot⟩ := hholds o.1 o.2 fd ho
    rw [hfds]
    exact ⟨hold, mem_removeAll.mpr ⟨h.members.isOpen o fd hold, hnot⟩⟩

/-- A descriptor in one member of an adapter is the number in no other member of any. -/
theorem member_eq (h : s.Separate) {a : Adapter} (ha : s.adapterOf x = some a)
    {m n : Adapter.Member} {y : SocketPtr} {fd : Int} (hfd : a.fd m = fd)
    (hy : s.holds y n = some fd) : y = x ∧ n = m := by
  have hx : s.holds x m = some fd := by
    rw [SharedState.holds, ha]
    obtain ⟨b, -, hb⟩ := Option.bind_eq_some_iff.mp hy
    obtain ⟨hpos, -⟩ := held_eq_some.mp hb
    exact held_eq_some.mpr ⟨hpos, hfd⟩
  cases h.members.alone (y, n) (x, m) fd hy hx
  exact ⟨rfl, rfl⟩

/-- What a member is given is in no other one. -/
theorem opens {fds : List Int} {owns : SocketPtr × Adapter.Member → Option Int}
    (h : (∀ fd ∈ fds, 0 ≤ fd) ∧ Descriptors.Separate fds owns) {fd : Int} (hfd : FreshFd fds fd)
    (o : SocketPtr × Adapter.Member) :
    (∀ n ∈ openFd fds fd, 0 ≤ n) ∧
      Descriptors.Separate (openFd fds fd) (Function.update owns o (held fd)) := by
  obtain ⟨hnonneg, hmembers⟩ := h
  unfold openFd held
  rcases hfd with rfl | ⟨hpos, hnew⟩
  · refine ⟨hnonneg, hmembers.closes fun o' n ho' => ?_⟩
    rw [Function.update_apply] at ho'
    split at ho'
    · cases ho'
    · exact ⟨ho', hmembers.isOpen o' n ho'⟩
  · have hne : fd ≠ -1 := by omega
    rw [if_neg hne, if_pos hpos]
    refine ⟨fun n hn => ?_, hmembers.opens hnew⟩
    rcases List.mem_cons.mp hn with rfl | hn
    · exact hpos
    · exact hnonneg n hn

/-- `sockfd_` is given a new descriptor. -/
theorem obtains (h : s.Separate) (hfresh : FreshFd s.openFds e.sockfd)
    (hfds : s'.openFds = openFd s.openFds e.sockfd)
    (hholds : ∀ y m, s'.holds y m =
      if (y, m) = (x, .sockfd) then held e.sockfd else s.holds y m) : s'.Separate := by
  have hupdate : (fun o : SocketPtr × Adapter.Member => s'.holds o.1 o.2) =
      Function.update (fun o => s.holds o.1 o.2) (x, .sockfd) (held e.sockfd) := by
    funext o
    rw [Function.update_apply]
    exact hholds o.1 o.2
  obtain ⟨hnonneg, hmembers⟩ := opens ⟨h.nonneg, h.members⟩ hfresh (x, .sockfd)
  exact ⟨hfds ▸ hnonneg, hfds ▸ hupdate ▸ hmembers⟩

/-- An act of one adapter, by what its members hold after it. -/
theorem holds_adapter {act : AdapterAct} {answer : act.Answer}
    (hexec : s.exec reuse (.adapter x act) e = some (answer, s')) :
    ∃ a a', s.adapterOf x = some a ∧ s.holds x = a.holds ∧
      (∀ y m, s'.holds y m = if y = x then a'.holds m else s.holds y m) ∧
      a.exec s.openFds e act = some (answer, a', s'.openFds) := by
  obtain ⟨a, a', hstep, hadapter⟩ := SharedState.exec_adapter hexec
  refine ⟨a, a', hstep.before, hstep.holds.1, fun y m => ?_, hadapter⟩
  rw [SharedState.holds, hstep.after]
  split <;> rfl

theorem adapter (h : s.Separate) {act : AdapterAct} (hrequest : act ≠ .closeRequest)
    (hpreserves : act.Preserves) {answer : act.Answer}
    (hexec : s.exec reuse (.adapter x act) e = some (answer, s')) :
    s'.Separate := by
  obtain ⟨a, a', ha, hholds, hheld, hadapter⟩ := holds_adapter hexec
  have hsame : (∀ m, a'.holds m = a.holds m) → s'.openFds = s.openFds → s'.Separate := by
    intro hmembers hfds
    refine h.of_holds hfds fun y m fd hy => ?_
    rw [hheld] at hy
    split at hy
    · rename_i heq
      rwa [heq, hholds, ← hmembers]
    · exact hy
  have hsockfd : (∀ m, a'.holds m = if m = .sockfd then held e.sockfd else a.holds m) →
      ∀ y m, s'.holds y m = if (y, m) = (x, .sockfd) then held e.sockfd else s.holds y m := by
    intro hmembers y m
    rw [hheld]
    by_cases hy : y = x
    · subst hy
      simp [hmembers, hholds]
    · simp [hy]
  by_cases hleaves : act.LeavesFds
  · obtain ⟨hfds, hfd⟩ := Adapter.exec_leavesFds hleaves hadapter
    exact hsame (fun m => by rw [Adapter.holds, Adapter.holds, hfd]) hfds
  · cases act with
    | closeRequest => exact absurd rfl hrequest
    | setSockfd | close | socket => exact hpreserves.elim
    | listenForPeer =>
      rcases Adapter.exec_listenForPeer hadapter with ⟨-, rfl, hfds⟩ | ⟨-, hfresh, rfl, hfds⟩
      · exact hsame (fun _ => rfl) hfds
      · refine h.obtains hfresh hfds (hsockfd fun m => ?_)
        cases m <;> rfl
    | _ => exact absurd trivial hleaves

theorem new (h : s.Separate) {link : BratislavaLink} {answer : Option SocketPtr}
    (hnew : s.newSocket reuse link e = some (answer, s')) : s'.Separate := by
  simp only [SharedState.newSocket] at hnew
  split at hnew
  · split at hnew
    · rename_i a ha
      split at hnew
      · rename_i hfds
        cases hnew
        obtain ⟨hfd₁, hfd₂, hfd₃⟩ := hfds
        have hfirst := opens ⟨h.nonneg, h.members⟩ hfd₁ (e.address, .sockfd)
        have hthird := opens (opens hfirst hfd₂ (e.address, .sockfdRequest)) hfd₃
          (e.address, .sockfdListen)
        refine ⟨hthird.1, ?_⟩
        have hupdate : (fun o : SocketPtr × Adapter.Member =>
            (s.allocate e.address { link, adapter := .object a }
              (openFd (openFd (openFd s.openFds e.sockfd) e.sockfdRequest) e.sockfdListen)).holds
                o.1 o.2) =
            Function.update (Function.update (Function.update (fun o => s.holds o.1 o.2)
              (e.address, .sockfd) (held e.sockfd)) (e.address, .sockfdRequest)
              (held e.sockfdRequest)) (e.address, .sockfdListen) (held e.sockfdListen) := by
          funext o
          obtain ⟨y, m⟩ := o
          obtain ⟨hsockfd, hrequest, hlisten⟩ := newAdapter_fds ha
          simp only [SharedState.holds, Function.update_apply]
          by_cases hy : y = e.address
          · subst hy
            rw [SharedState.adapterOf_allocate.mpr rfl]
            cases m <;> simp [Adapter.holds, Adapter.fd, hsockfd, hrequest, hlisten]
          · rw [SharedState.adapterOf_allocate_of_ne hy]
            simp [hy]
        rw [hupdate]
        exact hthird.2
      · cases hnew
    · rename_i hslot
      cases hnew
      refine h.of_holds rfl fun y m fd hy => ?_
      by_cases heq : y = e.address
      · subst heq
        obtain ⟨a, ha, -⟩ := Option.bind_eq_some_iff.mp hy
        exact (hslot a (SharedState.adapterOf_allocate.mp ha)).elim
      · rwa [SharedState.holds, SharedState.adapterOf_allocate_of_ne heq] at hy
  · cases hnew

theorem delete (h : s.Separate) (hexec : s.exec reuse (.deleteAdapter x) e = some ((), s')) :
    s'.Separate := by
  obtain ⟨a, ha, hfds, hafter, -⟩ := SharedState.exec_deleteAdapter hexec
  refine h.closes hfds fun y m fd hy => ?_
  rw [SharedState.holds, hafter] at hy
  split at hy
  · cases hy
  · rename_i hne
    refine ⟨hy, fun hclosed => ?_⟩
    obtain ⟨n, hn⟩ := Adapter.closedByDelete_fd hclosed
    exact hne (h.member_eq ha hn hy).1

/-- Outside `CloseSocket` and `CreateSocket`, and without a second close of a number, an act keeps
what adapters hold apart. -/
theorem exec (h : s.Separate)
    (hact : ∀ x b, act = .adapter x b → b ≠ .closeRequest ∧ b.Preserves)
    {answer : act.Answer} (hexec : s.exec reuse act e = some (answer, s')) : s'.Separate := by
  by_cases hoff : act.OffHeap
  · obtain ⟨hheap, hfds⟩ := s.exec_offHeap hoff hexec
    refine h.of_holds hfds fun y m fd hy => ?_
    rwa [SharedState.holds, SharedState.adapterOf, hheap] at hy
  · cases act with
    | newSocket link => exact h.new hexec
    | adapter x act => exact h.adapter (hact x act rfl).1 (hact x act rfl).2 hexec
    | deleteAdapter x => exact h.delete hexec
    | deleteSocket x =>
      obtain ⟨hlookup, hfds, -⟩ := SharedState.exec_deleteSocket hexec
      refine h.of_holds hfds fun y m fd hy => ?_
      rw [SharedState.holds, SharedState.adapterOf, hlookup] at hy
      split at hy
      · rename_i heq
        split at heq
        · cases heq
        · rwa [SharedState.holds, SharedState.adapterOf, heq]
      · cases hy
    | _ => exact absurd trivial hoff

end SharedState.Separate

/-! ## Connections -/

/-- The descriptor that `connect` or `accept` last connected each handle on, until it is closed or
the handle disconnects. -/
abbrev Connections := SocketPtr → Option Int

/-- The connections after an act. -/
def SharedState.connections (s : SharedState) (act : SocketAct) (e : Choice)
    (before : Connections) : Connections :=
  let kept : Connections := fun x => (before x).filter fun fd => decide (fd ∉ s.closedBy act)
  match act with
  | .adapter x (.attempt .comms) =>
    if e.attempt = .connected then
      Function.update kept x ((s.adapterOf x).map fun a => a.sockfd)
    else kept
  | .adapter x .listenForPeer =>
    if e.sockfd = -1 then kept else Function.update kept x (some e.sockfd)
  | .adapter x (.setSockfd _) | .deleteAdapter x => Function.update kept x none
  | _ => kept

@[reducible] def connectionSystem (reuse : Bool) : System socketSignature :=
  (socketSystem reuse).recording fun act e s before => s.connections act e before

/-- `sockfd_` is open, and what `connect` or `accept` connected. -/
structure Linked (x : SocketPtr) (a : Adapter) (s : SharedState × Connections) : Prop where
  adapter : s.1.adapterOf x = some a
  connection : s.2 x = some a.sockfd
  isOpen : a.sockfd ∈ s.1.openFds

/-- The adapter counts as connected, and is. -/
def Backed (x : SocketPtr) (s : SharedState × Connections) : Prop :=
  ∃ a, Linked x a s ∧ a.connected = true

/-- The acts that do not take the connection of a handle away. -/
def SocketAct.Preserves (x : SocketPtr) : SocketAct → Prop
  | .adapter y act => y = x → act.Preserves
  | .deleteAdapter y | .deleteSocket y => y ≠ x
  | _ => True

/-- What an act does not close stays open. -/
theorem SharedState.mem_openFds_exec {s s' : SharedState} {fd : Int} (hfd : fd ∈ s.openFds)
    (hclosed : fd ∉ s.closedBy act) {answer : act.Answer}
    (hexec : s.exec reuse act e = some (answer, s')) : fd ∈ s'.openFds := by
  by_cases hoff : act.OffHeap
  · rwa [(s.exec_offHeap hoff hexec).2]
  · cases act with
    | newSocket link =>
      simp only [SharedState.exec, SharedState.newSocket] at hexec
      split at hexec
      · split at hexec
        · split at hexec
          · cases hexec
            exact mem_openFd (mem_openFd (mem_openFd hfd))
          · cases hexec
        · cases hexec
          exact hfd
      · cases hexec
    | adapter y act =>
      obtain ⟨a, a', hstep, hadapter⟩ := SharedState.exec_adapter hexec
      simp only [SharedState.closedBy, hstep.before, Option.map_some, Option.getD_some] at hclosed
      by_cases hleaves : act.LeavesFds
      · rwa [(Adapter.exec_leavesFds hleaves hadapter).1]
      · cases act with
        | setSockfd =>
          simp only [Adapter.exec, Option.some.injEq, Prod.mk.injEq, true_and] at hadapter
          rwa [← hadapter.2]
        | close | closeRequest =>
          simp only [Adapter.exec, Option.some.injEq, Prod.mk.injEq, true_and] at hadapter
          rw [← hadapter.2]
          exact mem_removeAll.mpr ⟨hfd, hclosed⟩
        | socket =>
          rw [(Adapter.exec_socket hadapter).2.2.2]
          exact mem_openFd hfd
        | listenForPeer =>
          rcases Adapter.exec_listenForPeer hadapter with ⟨-, -, hfds⟩ | ⟨-, -, -, hfds⟩
          · rwa [hfds]
          · rw [hfds]
            exact mem_openFd hfd
        | _ => exact absurd trivial hleaves
    | deleteAdapter y =>
      obtain ⟨a, ha, hfds, -⟩ := SharedState.exec_deleteAdapter hexec
      simp only [SharedState.closedBy, ha, Option.map_some, Option.getD_some] at hclosed
      rw [hfds]
      exact mem_removeAll.mpr ⟨hfd, hclosed⟩
    | deleteSocket y => rwa [(SharedState.exec_deleteSocket hexec).2.1]
    | _ => exact absurd trivial hoff

/-- What a member of another adapter holds is not closed. -/
theorem SharedState.Separate.not_closed {s : SharedState} (h : s.Separate) {m : Adapter.Member}
    {fd : Int} (hfd : s.holds x m = some fd) (hact : act.Preserves x)
    (hsteady : ∀ y b, act = .adapter y b → b ≠ .closeRequest ∧ b.Preserves) :
    fd ∉ s.closedBy act := by
  cases act with
  | adapter y act =>
    simp only [SharedState.closedBy]
    cases ha : s.adapterOf y with
    | none => exact List.not_mem_nil
    | some a =>
      intro hmem
      cases act with
      | closeRequest => exact (hsteady y _ rfl).1 rfl
      | close => exact (hsteady y _ rfl).2
      | _ => cases hmem
  | deleteAdapter y =>
    simp only [SharedState.closedBy]
    cases ha : s.adapterOf y with
    | none => exact List.not_mem_nil
    | some a =>
      intro hmem
      obtain ⟨n, hn⟩ := Adapter.closedByDelete_fd hmem
      exact hact (h.member_eq ha hn hfd).1.symm
  | _ => exact List.not_mem_nil

/-- Only `setConnected` takes `connected_` back. -/
theorem Adapter.exec_connected {a a' : Adapter} {fds fds' : List Int} {act : AdapterAct}
    {answer : act.Answer} (h : a.exec fds e act = some (answer, a', fds')) (ha : a.connected = true)
    (hset : act ≠ .setConnected false) : a'.connected = true := by
  by_cases haside : act.Aside
  · rwa [(Adapter.exec_frame h).2 haside]
  · cases act with
    | setConnected connected =>
      cases h
      cases connected with
      | true => rfl
      | false => exact absurd rfl hset
    | listenForPeer =>
      rcases Adapter.exec_listenForPeer h with ⟨-, rfl, -⟩ | ⟨-, -, rfl, -⟩
      · exact ha
      · rfl
    | attempt channel =>
      cases channel with
      | request => exact absurd trivial haside
      | comms =>
        simp only [Adapter.exec] at h
        split at h
        · cases h
          exact ha
        · cases h
    | _ => exact absurd trivial haside

/-- The connections after an act that leaves those of `x`. -/
theorem SharedState.connections_of_kept {s : SharedState} {before : Connections} {fd : Int}
    (hfd : before x = some fd) (hclosed : fd ∉ s.closedBy act) (hact : act.Preserves x)
    (hattempt : act = .adapter x (.attempt .comms) → (s.adapterOf x).map (·.sockfd) = some fd)
    (hlisten : act = .adapter x .listenForPeer → e.sockfd = -1) :
    s.connections act e before x = some fd := by
  have hkept : (before x).filter (fun fd => decide (fd ∉ s.closedBy act)) = some fd := by
    rw [hfd, Option.filter_eq_some_iff]
    exact ⟨rfl, decide_eq_true hclosed⟩
  unfold SharedState.connections
  split
  · rename_i y
    split
    · rw [Function.update_apply]
      split
      · rename_i heq
        subst heq
        exact hattempt rfl
      · exact hkept
    · exact hkept
  · rename_i y
    split
    · exact hkept
    · rename_i hne
      rw [Function.update_of_ne, hkept]
      rintro rfl
      exact hne (hlisten rfl)
  · rename_i y
    rw [Function.update_of_ne, hkept]
    rintro rfl
    exact hact rfl
  · rename_i y
    rw [Function.update_of_ne (fun heq => hact heq.symm), hkept]
  · exact hkept

namespace Linked

variable {a : Adapter} {s s' : SharedState × Connections}

theorem holds (h : Linked x a s) (hsep : s.1.Separate) : s.1.holds x .sockfd = some a.sockfd := by
  rw [SharedState.holds, h.adapter]
  exact held_eq_some.mpr ⟨hsep.nonneg _ h.isOpen, rfl⟩

/-- What is connected is not closed. -/
theorem not_closed (h : Linked x a s) (hsep : s.1.Separate) (hact : act.Preserves x)
    (hsteady : ∀ y b, act = .adapter y b → b ≠ .closeRequest ∧ b.Preserves) :
    a.sockfd ∉ s.1.closedBy act := hsep.not_closed (h.holds hsep) hact hsteady

theorem of_adapterOf (h : Linked x a s) (hclosed : a.sockfd ∉ s.1.closedBy act)
    (hact : act.Preserves x) {answer : act.Answer} (hexec : (connectionSystem reuse).exec act e s = some (answer, s'))
    {a' : Adapter} (ha' : s'.1.adapterOf x = some a') (hsockfd : a'.sockfd = a.sockfd)
    (hlisten : act = .adapter x .listenForPeer → e.sockfd = -1) : Linked x a' s' := by
  obtain ⟨hexec', hconnections⟩ := System.recording_exec hexec
  have hdone : s.1.exec reuse act e = some (answer, s'.1) := hexec'
  refine ⟨ha', ?_, ?_⟩
  · rw [hconnections, hsockfd]
    refine SharedState.connections_of_kept h.connection hclosed hact (fun _ => ?_) hlisten
    rw [h.adapter]
    rfl
  · rw [hsockfd]
    exact SharedState.mem_openFds_exec h.isOpen hclosed hdone

/-- Another adapter's act, or one of the registry. -/
theorem exec_other (h : Linked x a s) (hclosed : a.sockfd ∉ s.1.closedBy act)
    (hact : act.Preserves x) (hother : ∀ b, act ≠ .adapter x b) {answer : act.Answer}
    (hexec : (connectionSystem reuse).exec act e s = some (answer, s')) : Linked x a s' := by
  refine h.of_adapterOf hclosed hact hexec ?_ rfl fun heq => absurd heq (hother _)
  have hexec' : s.1.exec reuse act e = some (answer, s'.1) := (System.recording_exec hexec).1
  by_cases hoff : act.OffHeap
  · rw [SharedState.adapterOf, (s.1.exec_offHeap hoff hexec').1]
    exact h.adapter
  · cases act with
    | newSocket link =>
      obtain ⟨hfresh, b, fds, hs', -⟩ := SharedState.exec_newSocket hexec'
      have hne : x ≠ e.address := by
        rintro rfl
        obtain ⟨link', hlookup⟩ := SharedState.adapterOf_eq_some.mp h.adapter
        exact hfresh (Finmap.mem_of_lookup_eq_some hlookup)
      rw [hs', SharedState.adapterOf_allocate_of_ne hne]
      exact h.adapter
    | adapter y b =>
      obtain ⟨_, _, hstep, _⟩ := SharedState.exec_adapter hexec'
      have hy : x ≠ y := by
        rintro rfl
        exact hother b rfl
      rw [hstep.after, if_neg hy]
      exact h.adapter
    | deleteAdapter y =>
      obtain ⟨-, -, -, hafter, -⟩ := SharedState.exec_deleteAdapter hexec'
      rw [hafter, if_neg (fun heq => hact heq.symm)]
      exact h.adapter
    | deleteSocket y =>
      rw [SharedState.adapterOf, (SharedState.exec_deleteSocket hexec').1,
        if_neg (fun heq => hact heq.symm)]
      exact h.adapter
    | _ => exact absurd trivial hoff

/-- What `accept` returned. -/
theorem of_accepted {answer : Unit}
    (hexec : (connectionSystem reuse).exec (.adapter x .listenForPeer) e s = some (answer, s'))
    (hne : e.sockfd ≠ -1) : ∃ a', Linked x a' s' ∧ a'.connected = true := by
  obtain ⟨hexec', hconnections⟩ := System.recording_exec hexec
  obtain ⟨a, a', hstep, hadapter⟩ := SharedState.exec_adapter
    (show s.1.exec reuse (.adapter x .listenForPeer) e = some (answer, s'.1) from hexec')
  rcases Adapter.exec_listenForPeer hadapter with ⟨hfailed, -⟩ | ⟨-, -, rfl, hfds⟩
  · exact absurd hfailed hne
  · refine ⟨_, ⟨by rw [hstep.after, if_pos rfl], ?_, ?_⟩, rfl⟩
    · rw [hconnections]
      simp only [SharedState.connections, if_neg hne, Function.update_self]
    · rw [hfds, openFd, if_neg hne]
      exact List.mem_cons_self

theorem exec_own (h : Linked x a s) {b : AdapterAct}
    (hclosed : a.sockfd ∉ s.1.closedBy (.adapter x b)) (hpreserves : b.Preserves) {answer : b.Answer}
    (hexec : (connectionSystem reuse).exec (.adapter x b) e s = some (answer, s')) :
    ∃ a', Linked x a' s' ∧ a.exec s.1.openFds e b = some (answer, a', s'.1.openFds) := by
  obtain ⟨a₀, a', hstep, hadapter⟩ := SharedState.exec_adapter
    (show s.1.exec reuse (.adapter x b) e = some (answer, s'.1) from
      (System.recording_exec hexec).1)
  obtain rfl : a₀ = a := Option.some.inj (hstep.before.symm.trans h.adapter)
  have ha' : s'.1.adapterOf x = some a' := by rw [hstep.after, if_pos rfl]
  refine ⟨a', ?_, hadapter⟩
  by_cases hleaves : b.LeavesFds
  · have hsockfd : a'.sockfd = a₀.sockfd :=
      congrFun (Adapter.exec_leavesFds hleaves hadapter).2 .sockfd
    refine h.of_adapterOf hclosed (fun _ => hpreserves) hexec ha' hsockfd ?_
    intro heq
    cases heq
    exact hleaves.elim
  · cases b with
    | closeRequest =>
      simp only [Adapter.exec, Option.some.injEq, Prod.mk.injEq, true_and] at hadapter
      obtain ⟨rfl, -⟩ := hadapter
      exact h.of_adapterOf hclosed (fun _ => hpreserves) hexec ha' rfl fun heq => by cases heq
    | setSockfd | close | socket => exact hpreserves.elim
    | listenForPeer =>
      by_cases hfailed : e.sockfd = -1
      · rcases Adapter.exec_listenForPeer hadapter with ⟨-, rfl, -⟩ | ⟨hne, -⟩
        · exact h.of_adapterOf hclosed (fun _ => hpreserves) hexec ha' rfl fun _ => hfailed
        · exact absurd hfailed hne
      · obtain ⟨a'', hlinked, -⟩ := of_accepted hexec hfailed
        obtain rfl : a'' = a' := Option.some.inj (hlinked.adapter.symm.trans ha')
        exact hlinked
    | _ => exact absurd trivial hleaves

end Linked

/-- A connection stays up through every act that neither closes it nor takes the flag back. -/
theorem Backed.exec {s s' : SharedState × Connections} (h : Backed x s)
    (hclosed : ∀ a, Linked x a s → a.sockfd ∉ s.1.closedBy act) (hact : act.Preserves x)
    (hset : act ≠ .adapter x (.setConnected false)) {answer : act.Answer}
    (hexec : (connectionSystem reuse).exec act e s = some (answer, s')) : Backed x s' := by
  obtain ⟨a, hlinked, hconnected⟩ := h
  by_cases hother : ∀ b, act ≠ .adapter x b
  · exact ⟨a, hlinked.exec_other (hclosed a hlinked) hact hother hexec, hconnected⟩
  · simp only [ne_eq, not_forall, not_not] at hother
    obtain ⟨b, rfl⟩ := hother
    obtain ⟨a', hlinked', hadapter⟩ := hlinked.exec_own (hclosed a hlinked) (hact rfl) hexec
    exact ⟨a', hlinked', Adapter.exec_connected hadapter hconnected fun heq => hset (heq ▸ rfl)⟩

end SensorLib
