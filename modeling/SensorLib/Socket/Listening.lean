import SensorLib.Socket.Ledger
import SensorLib.Threads.Kinds

/-! # The listening socket of an adapter

The system remembers which descriptors are bound, and refuses to bind one
twice. The constructor opens the listening socket, and no method but the
destructor closes it.
-/

namespace SensorLib

open Threads Threads.Prog Runs Handles

/-- What the clock and the system decide in `ListenForPeer`: whether time is left, whether `bind`
takes a descriptor that is not bound yet, whether `listen` succeeds, and what `accept` returns. -/
structure ListenOutcome where
  timeLeft : Bool := true
  bindable : Bool := true
  listens : Bool := true
  accepted : Int := -1
  deriving DecidableEq, Repr

def ListenOutcome.Binds (o : ListenOutcome) : Prop := o.timeLeft = true ∧ o.bindable = true

instance (o : ListenOutcome) : Decidable o.Binds :=
  inferInstanceAs (Decidable (o.timeLeft = true ∧ o.bindable = true))

/-- A `ListenForPeer` of the past: whether `bind` was called on a bound descriptor, and whether
`accept` was called. -/
structure Listened where
  outcome : ListenOutcome
  again : Bool
  accepting : Bool
  deriving DecidableEq, Repr

/-- Nothing was bound again, and `accept` was called where nothing else kept the code from it. -/
def Listened.Sound (l : Listened) : Prop :=
  l.again = false ∧ (l.outcome.Binds → l.outcome.listens = true → l.accepting = true)

instance (l : Listened) : Decidable l.Sound :=
  inferInstanceAs (Decidable
    (l.again = false ∧ (l.outcome.Binds → l.outcome.listens = true → l.accepting = true)))

/-- The descriptors that are bound, and every `ListenForPeer` so far. -/
structure Bindings where
  bound : List Int := []
  listened : List Listened := []
  deriving DecidableEq, Repr

namespace Bindings

variable (b : Bindings)

def record (l : Listened) : Bindings := { b with listened := b.listened ++ [l] }

/-- The system calls of `ListenForPeer`. The answer is the descriptor of `accept`, or -1. -/
def listenForPeer (fd : Int) (o : ListenOutcome) : Int × Bindings :=
  if !o.timeLeft then (-1, b.record ⟨o, false, false⟩)
  -- The system rejects the `bind` with `EINVAL`.
  else if fd ∈ b.bound then (-1, b.record ⟨o, true, false⟩)
  else if !o.bindable then (-1, b.record ⟨o, false, false⟩)
  else
    let b : Bindings := { b with bound := fd :: b.bound }
    if !o.listens then (-1, b.record ⟨o, false, false⟩)
    else (o.accepted, b.record ⟨o, false, true⟩)

def close (fds : List Int) : Bindings := { b with bound := b.bound.removeAll fds }

end Bindings

namespace SharedState

variable (s : SharedState)

/-- What an act is told by the system. Nothing binds what is no descriptor. -/
def answered (act : SocketAct) (e : Choice × ListenOutcome) (b : Bindings) :
    Option (Choice × Bindings) :=
  match act with
  | .adapter x .listenForPeer =>
    (s.adapterOf x).bind fun a =>
      if e.2.bindable = true → 0 ≤ a.sockfdListen then
        let (sockfd, b) := b.listenForPeer a.sockfdListen e.2
        some ({ e.1 with sockfd }, b)
      else none
  | act => some (e.1, b.close (s.closedBy act))

end SharedState

/-- The system of the sockets, with the kernel's `bind` in it. -/
@[reducible] def listenSystem (reuse : Bool) : System socketSignature where
  State := SharedState × Bindings
  Env := Choice × ListenOutcome
  exec act e s :=
    (s.1.answered act e s.2).bind fun (choice, b) =>
      (s.1.exec reuse act choice).map fun out => (out.1, out.2, b)
  body := Call.body
  reentrant l := decide (l = Mutex.recursive)

/-- The calls of `conn` and `disconn` of the adapter of `x`. -/
def Call.Reconnects (x : SocketPtr) (f : Call) : Prop := f = .method x .conn ∨ f = .method x .disconn

namespace Listening

variable {reuse : Bool} {x : SocketPtr} {fd : Int} {s s' : SharedState} {b b' : Bindings}
  {e : Choice × ListenOutcome}

/-- An act is one of the sockets, under what the system answers. -/
theorem exec_eq_some (act : SocketAct) {answer : act.Answer}
    (h : (listenSystem reuse).exec act e (s, b) = some (answer, s', b')) :
    ∃ choice, s.answered act e b = some (choice, b') ∧
      s.exec reuse act choice = some (answer, s') := by
  obtain ⟨⟨choice, b''⟩, hanswered, hexec⟩ := Option.bind_eq_some_iff.mp h
  obtain ⟨out, hout, heq⟩ := Option.map_eq_some_iff.mp hexec
  cases heq
  exact ⟨choice, hanswered, hout⟩

/-! ## The descriptor -/

/-- The listening descriptor is `fd`, which is open and in no other member. -/
structure Keeps (fd : Int) (a : Adapter) (fds : List Int) : Prop where
  listens : a.sockfdListen = fd
  apart : 0 ≤ fd → a.sockfd ≠ fd ∧ a.sockfdRequest ≠ fd
  opened : 0 ≤ fd → fd ∈ fds

/-- A new descriptor is not the listening one. -/
theorem Keeps.fresh {a : Adapter} {fds : List Int} (h : Keeps fd a fds) {n : Int}
    (hn : FreshFd fds n) (hfd : 0 ≤ fd) : n ≠ fd := by
  rintro rfl
  rcases hn with hneg | ⟨-, hnot⟩
  · omega
  · exact hnot (h.opened hfd)

/-- The number is not that of the listening descriptor. -/
def Other (fd n : Int) : Prop := 0 ≤ fd → n ≠ fd

/-- The act is not given the number of the listening descriptor. -/
def Harmless (fd : Int) : AdapterAct → Prop
  | .setSockfd n | .close n => Other fd n
  | _ => True

/-- No act of the adapter closes or moves the listening descriptor, if it is not told its number. -/
theorem Keeps.exec {a a' : Adapter} {fds fds' : List Int} (h : Keeps fd a fds) {e : Choice}
    {act : AdapterAct} (hact : Harmless fd act) {answer : act.Answer}
    (hexec : a.exec fds e act = some (answer, a', fds')) :
    Keeps fd a' fds' ∧ (0 ≤ fd → fd ∉ a.closedBy act) := by
  by_cases hleaves : act.LeavesFds
  · obtain ⟨rfl, hfd⟩ := Adapter.exec_leavesFds hleaves hexec
    have hmember : ∀ m, a'.fd m = a.fd m := fun m => congrFun hfd m
    refine ⟨⟨(hmember .sockfdListen).trans h.listens, fun hpos => ?_, h.opened⟩, fun _ => ?_⟩
    · obtain ⟨hsockfd, hrequest⟩ := h.apart hpos
      exact ⟨(hmember .sockfd).trans_ne hsockfd, (hmember .sockfdRequest).trans_ne hrequest⟩
    · cases act <;> first | exact List.not_mem_nil | exact hleaves.elim
  · cases act with
    | setSockfd n =>
      simp only [Adapter.exec, Option.some.injEq, Prod.mk.injEq, true_and] at hexec
      obtain ⟨rfl, rfl⟩ := hexec
      exact ⟨⟨h.listens, fun hpos => ⟨hact hpos, (h.apart hpos).2⟩, h.opened⟩,
        fun _ => List.not_mem_nil⟩
    | close n =>
      have hnot : 0 ≤ fd → fd ∉ a.closedBy (.close n) := fun hpos hmem =>
        hact hpos (List.mem_singleton.mp hmem).symm
      simp only [Adapter.exec, Option.some.injEq, Prod.mk.injEq, true_and] at hexec
      obtain ⟨rfl, rfl⟩ := hexec
      exact ⟨⟨h.listens, h.apart, fun hpos => mem_removeAll.mpr ⟨h.opened hpos, hnot hpos⟩⟩, hnot⟩
    | socket =>
      obtain ⟨-, -, rfl, rfl⟩ := Adapter.exec_socket hexec
      exact ⟨⟨h.listens, h.apart, fun hpos => mem_openFd (h.opened hpos)⟩, fun _ => List.not_mem_nil⟩
    | closeRequest =>
      have hnot : 0 ≤ fd → fd ∉ a.closedBy .closeRequest := fun hpos hmem =>
        (h.apart hpos).2 (List.mem_singleton.mp hmem).symm
      simp only [Adapter.exec, Option.some.injEq, Prod.mk.injEq, true_and] at hexec
      obtain ⟨rfl, rfl⟩ := hexec
      exact ⟨⟨h.listens, h.apart, fun hpos => mem_removeAll.mpr ⟨h.opened hpos, hnot hpos⟩⟩, hnot⟩
    | listenForPeer =>
      refine ⟨?_, fun _ => List.not_mem_nil⟩
      rcases Adapter.exec_listenForPeer hexec with ⟨-, rfl, rfl⟩ | ⟨-, hfresh, rfl, rfl⟩
      · exact h
      · exact ⟨h.listens, fun hpos => ⟨h.fresh hfresh hpos, (h.apart hpos).2⟩,
          fun hpos => mem_openFd (h.opened hpos)⟩
    | _ => exact absurd trivial hleaves

/-- What the code is told is not the number of the listening descriptor. -/
def Tells (fd : Int) : (act : SocketAct) → act.Answer → Prop
  | .adapter _ .sockfd, n | .adapter _ .socket, n => Other fd n
  | _, _ => True

theorem Keeps.tells {a a' : Adapter} {fds fds' : List Int} (h : Keeps fd a fds) {e : Choice}
    {act : AdapterAct} {answer : act.Answer} (hexec : a.exec fds e act = some (answer, a', fds')) :
    Tells fd (.adapter x act) answer := by
  cases act with
  | sockfd =>
    simp only [Adapter.exec, Option.some.injEq, Prod.mk.injEq] at hexec
    obtain ⟨rfl, -⟩ := hexec
    exact fun hpos => (h.apart hpos).1
  | socket => exact h.fresh (Adapter.exec_socket hexec).2.1
  | _ => trivial

/-! ## The history -/

/-- After an attempt in which `bind` succeeded, no attempt has time left. -/
def BindsLast (outcomes : List ListenOutcome) : Prop :=
  outcomes.Pairwise fun o o' => o.Binds → o'.timeLeft = false

/-- The descriptor is bound once an attempt has bound it, and attempts go wrong only after that. -/
structure Bound (fd : Int) (b : Bindings) : Prop where
  bound : fd ∈ b.bound ↔ ∃ l ∈ b.listened, l.outcome.Binds
  sound : (∀ l ∈ b.listened, l.Sound) ↔ BindsLast (b.listened.map (·.outcome))

theorem bindsLast_append {outcomes : List ListenOutcome} {o : ListenOutcome} :
    BindsLast (outcomes ++ [o]) ↔
      BindsLast outcomes ∧ ((∃ o' ∈ outcomes, o'.Binds) → o.timeLeft = false) := by
  simp [BindsLast, List.pairwise_append]

theorem sound_append {listened : List Listened} {l : Listened} :
    (∀ l' ∈ listened ++ [l], l'.Sound) ↔ (∀ l' ∈ listened, l'.Sound) ∧ l.Sound := by
  simp [or_imp, forall_and]

/-- One attempt is entered. It is sound unless it has time left and the descriptor is bound. -/
theorem listenForPeer_spec (b : Bindings) (fd : Int) (o : ListenOutcome) :
    ∃ l : Listened, l.outcome = o ∧ (b.listenForPeer fd o).2.listened = b.listened ++ [l] ∧
      (fd ∈ (b.listenForPeer fd o).2.bound ↔ fd ∈ b.bound ∨ o.Binds) ∧
      (l.Sound ↔ (fd ∈ b.bound → o.timeLeft = false)) := by
  obtain ⟨timeLeft, bindable, listens, accepted⟩ := o
  unfold Bindings.listenForPeer
  cases timeLeft with
  | false => exact ⟨_, rfl, rfl, by simp [Bindings.record, ListenOutcome.Binds],
      by simp [Listened.Sound, ListenOutcome.Binds]⟩
  | true =>
    by_cases hfd : fd ∈ b.bound
    · simp only [Bool.not_true, Bool.false_eq_true, if_false, if_pos hfd]
      exact ⟨_, rfl, rfl, by simp [Bindings.record, hfd], by simp [Listened.Sound, hfd]⟩
    · simp only [Bool.not_true, Bool.false_eq_true, if_false, if_neg hfd]
      cases bindable with
      | false => exact ⟨_, rfl, rfl, by simp [Bindings.record, ListenOutcome.Binds, hfd],
          by simp [Listened.Sound, ListenOutcome.Binds, hfd]⟩
      | true => cases listens <;> exact ⟨_, rfl, rfl,
          by simp [Bindings.record, ListenOutcome.Binds], by simp [Listened.Sound, hfd]⟩

theorem Bound.listenForPeer (h : Bound fd b) (o : ListenOutcome) :
    Bound fd (b.listenForPeer fd o).2 := by
  obtain ⟨l, rfl, hlistened, hbound, hsound⟩ := listenForPeer_spec b fd o
  refine ⟨?_, ?_⟩
  · rw [hlistened, hbound, h.bound]
    simp [or_and_right, exists_or]
  · rw [hlistened, sound_append, List.map_append, List.map_singleton, bindsLast_append, h.sound,
      hsound, h.bound]
    simp

theorem Bound.close (h : Bound fd b) {fds : List Int} (hfd : fd ∈ b.bound → fd ∉ fds) :
    Bound fd (b.close fds) where
  bound := by
    rw [← show b.listened = (b.close fds).listened from rfl, ← h.bound]
    exact mem_removeAll.trans ⟨fun hmem => hmem.1, fun hmem => ⟨hmem, hfd hmem⟩⟩
  sound := h.sound

/-! ## The invariant -/

/-- The adapter of `x` listens on `fd`, and the system remembers what it did with it. -/
structure Listens (x : SocketPtr) (fd : Int) (s : SharedState × Bindings) : Prop
    extends Bound fd s.2 where
  adapter : ∃ a, s.1.adapterOf x = some a ∧ Keeps fd a s.1.openFds
  nonneg : fd ∈ s.2.bound → 0 ≤ fd

/-- The acts of the adapter of `x` that are not given the number of the listening descriptor, and
those that leave the objects alone. -/
def OnAdapter (x : SocketPtr) (fd : Int) (act : SocketAct) : Prop :=
  (∃ a : AdapterAct, Harmless fd a ∧ act = .adapter x a) ∨ act.OffHeap

/-- What an act of the adapter closes is not the listening descriptor. -/
theorem Listens.adapterAct (h : Listens x fd (s, b)) {act : AdapterAct} (hact : Harmless fd act)
    {answer : act.Answer}
    (hexec : (listenSystem reuse).exec (.adapter x act) e (s, b) = some (answer, s', b')) :
    Tells fd (.adapter x act) answer ∧ Listens x fd (s', b') := by
  obtain ⟨choice, hanswered, hexec⟩ := exec_eq_some (.adapter x act) hexec
  obtain ⟨a, hx, hkeeps⟩ := h.adapter
  obtain ⟨a', a'', hstep, hadapter⟩ := SharedState.exec_adapter hexec
  cases hx.symm.trans hstep.before
  obtain ⟨hkeeps', hcloses⟩ := hkeeps.exec hact hadapter
  refine ⟨hkeeps.tells hadapter, ?_⟩
  have hafter : ∃ a, s'.adapterOf x = some a ∧ Keeps fd a s'.openFds :=
    ⟨a'', (hstep.after x).trans (if_pos rfl), hkeeps'⟩
  have hclosed : b.close (s.closedBy (.adapter x act)) = b' → Listens x fd (s', b') := by
    rintro rfl
    have hnot : fd ∈ b.bound → fd ∉ s.closedBy (.adapter x act) := by
      intro hmem
      rw [SharedState.closedBy, hx]
      exact hcloses (h.nonneg hmem)
    exact ⟨h.toBound.close hnot, hafter, fun hmem => h.nonneg (mem_removeAll.mp hmem).1⟩
  cases act with
  | listenForPeer =>
    simp only [SharedState.answered, hx, Option.bind_some, hkeeps.listens] at hanswered
    split at hanswered
    · rename_i hbindable
      cases hanswered
      refine ⟨h.toBound.listenForPeer e.2, hafter, fun hmem => ?_⟩
      obtain ⟨-, -, -, hbound, -⟩ := listenForPeer_spec b fd e.2
      exact (hbound.mp hmem).elim h.nonneg fun hbinds => hbindable hbinds.2
    · cases hanswered
  | _ =>
    cases hanswered
    exact hclosed rfl

theorem Listens.offHeap (h : Listens x fd (s, b)) {act : SocketAct} {answer : act.Answer}
    (hact : act.OffHeap)
    (hexec : (listenSystem reuse).exec act e (s, b) = some (answer, s', b')) :
    Listens x fd (s', b') := by
  obtain ⟨choice, hanswered, hexec⟩ := exec_eq_some act hexec
  obtain ⟨hheap, hfds⟩ := s.exec_offHeap hact hexec
  obtain ⟨a, hx, hkeeps⟩ := h.adapter
  have hsame : b' = b.close [] := by
    cases act with
    | newSocket | adapter | deleteAdapter | deleteSocket => exact hact.elim
    | _ =>
      cases hanswered
      rfl
  subst hsame
  refine ⟨h.toBound.close fun _ => List.not_mem_nil, ⟨a, ?_, hfds ▸ hkeeps⟩, fun hmem => ?_⟩
  · show s'.adapterOf x = some a
    rw [SharedState.adapterOf, hheap]
    exact hx
  · exact h.nonneg (mem_removeAll.mp hmem).1

theorem Listens.exec (act : SocketAct) (e : Choice × ListenOutcome) (s : SharedState × Bindings)
    (answer : act.Answer) (s' : SharedState × Bindings) (hact : OnAdapter x fd act)
    (h : Listens x fd s) (hexec : (listenSystem reuse).exec act e s = some (answer, s')) :
    Tells fd act answer ∧ Listens x fd s' := by
  rcases hact with ⟨act, hact, rfl⟩ | hact
  · exact h.adapterAct hact hexec
  · refine ⟨?_, h.offHeap hact hexec⟩
    cases act <;> trivial

/-- The constructor leaves the listening socket open and not bound. -/
theorem listens_constructed {s₀ : SharedState} {link : BratislavaLink} {e : Choice}
    (hnew : s₀.newSocket reuse link e = some (some x, s)) : Listens x e.sockfdListen (s, {}) := by
  obtain ⟨⟨a, ha, hsockfd, hrequest, hlisten⟩, -, -, hfresh, hfds⟩ := newSocket_fds hnew
  refine ⟨⟨by simp, by simp [BindsLast]⟩, ⟨a, ha, hlisten, fun hpos => ?_, fun hpos => ?_⟩, by simp⟩
  · have hnot : e.sockfdListen ∉ openFd (openFd s₀.openFds e.sockfd) e.sockfdRequest := by
      rcases hfresh with hneg | ⟨-, hnot⟩
      · omega
      · exact hnot
    rw [hsockfd, hrequest]
    have hopen : ∀ {fds : List Int} {n : Int}, n = e.sockfdListen → n ∈ openFd fds n := by
      rintro fds n rfl
      rw [openFd, if_neg (by omega)]
      exact List.mem_cons_self
    exact ⟨fun heq => hnot (heq ▸ mem_openFd (hopen heq)), fun heq => hnot (heq ▸ hopen heq)⟩
  · rw [hfds, openFd, if_neg (by omega)]
    exact List.mem_cons_self

/-! ## The methods -/

/-- Programs that close and set no number but those they were told. -/
abbrev Sparing (x : SocketPtr) (fd : Int) {α : Type} (p : Program α) : Prop :=
  p.Within (S := socketSignature) (OnAdapter x fd) (Tells fd) (Call.Reconnects x) fun _ => True

theorem onAdapter {act : AdapterAct} (hact : Harmless fd act) : OnAdapter x fd (.adapter x act) :=
  Or.inl ⟨act, hact, rfl⟩

theorem sparing_conn : Sparing x fd (BaseAdapter.conn x) := by
  have hbuilt : (BaseAdapter.conn x).Built (PinnedBlock AdapterAct.Connects x fun _ => True) :=
    built_conn (fun _ ha => ha) fun _ => trivial
  refine ActsIn.within (actsIn_built (fun act ha => ?_) (fun _ ha => Or.inr ha) hbuilt)
  cases act with
  | adapter y act =>
    obtain ⟨rfl, hact⟩ := ha
    refine onAdapter ?_
    cases act with
    | setSockfd | close => exact hact.elim
    | _ => trivial
  | turn => exact Or.inr trivial
  | _ => exact ha.elim

theorem sparing_closeSocket : Sparing x fd (BaseAdapter.closeSocket x) := by
  refine ⟨onAdapter trivial, fun (n : Int) _ => ?_⟩
  show Sparing x fd (if 0 ≤ n then _ else Prog.pure ())
  split
  · refine ⟨onAdapter trivial, fun (n : Int) hn => ⟨onAdapter hn, fun _ _ => ⟨onAdapter ?_, ?_⟩⟩⟩
    · exact fun hpos => by omega
    · exact fun _ _ => trivial
  · trivial

theorem sparing_createSocket : Sparing x fd (BaseAdapter.createSocket x) :=
  ⟨onAdapter trivial, fun (_ : Int) hn => ⟨onAdapter hn, fun _ _ => trivial⟩⟩

theorem sparing_disconn : Sparing x fd (BaseAdapter.disconn x) := by
  have hreopen : Sparing x fd (BaseAdapter.reopen x) := by
    refine ⟨onAdapter trivial, fun _ _ => ?_⟩
    refine sparing_closeSocket.bind fun _ _ => sparing_createSocket.bind fun _ _ => ?_
    refine ⟨onAdapter trivial, fun (n : Int) _ => ?_⟩
    show Sparing x fd (if n ≠ -1 then Prog.pure 0 else Prog.pure (-1))
    split <;> trivial
  refine ⟨onAdapter trivial, fun kind _ => ?_⟩
  cases kind <;> exact hreopen

theorem sparing_reconnects {f : Call} (hf : f.Reconnects x) : Sparing x fd f.body := by
  rcases hf with rfl | rfl
  · exact sparing_conn.bind fun _ _ => trivial
  · exact sparing_disconn.bind fun _ _ => trivial

end Listening

open Listening

/-- In a run of calls of `conn` and `disconn` of a new adapter, no bound descriptor is bound again
and `accept` is reached if and only if no `conn` has time left for its `ListenForPeer` after one
in which `bind` succeeded. -/
theorem listening_socket_bound_once_iff {s₀ s : SharedState} {link : BratislavaLink} {e : Choice}
    {x : SocketPtr} {reuse : Bool} (hnew : s₀.newSocket reuse link e = some (some x, s))
    {ops : List (Op (listenSystem reuse))} (hcalls : Calls (Call.Reconnects x) ops)
    (hlegal : (machine (listenSystem reuse)).Legal (World.quiet (s, {})) ops) :
    (∀ l ∈ ((machine (listenSystem reuse)).run (World.quiet (s, {})) ops).state.2.listened, l.Sound) ↔
      BindsLast (((machine (listenSystem reuse)).run (World.quiet (s, {})) ops).state.2.listened.map
        (·.outcome)) :=
  (always_of_within (fun _ => sparing_reconnects) Listens.exec (listens_constructed hnew) hcalls
    hlegal).last.sound

/-- An adapter in the listening role, of either class. -/
def listeningFds : Choice where
  address := 1
  sockfd := 3
  sockfdRequest := 4
  sockfdListen := 5
  isListener := true

/-- A `conn` that ends after `steps` instructions, a `disconn`, and the same `conn` again. -/
def connTwice (steps : Nat) (o o' : ListenOutcome) : List (Op (listenSystem false)) :=
  .start 0 (.method 1 .conn) :: List.replicate steps (.run 0 ({}, o)) ++
    .start 0 (.method 1 .disconn) :: List.replicate 10 (.run 0 ({ sockfd := 3 }, {})) ++
    .start 0 (.method 1 .conn) :: List.replicate steps (.run 0 ({}, o'))

theorem connTwice_reconnects (steps : Nat) (o o' : ListenOutcome) :
    Calls (Call.Reconnects 1) (connTwice steps o o') := by
  intro t f hmem
  simp [connTwice] at hmem
  rcases hmem with ⟨_, rfl⟩ | ⟨_, rfl⟩ | ⟨_, rfl⟩
  · exact Or.inl rfl
  · exact Or.inr rfl
  · exact Or.inl rfl

/-- The address is taken when the first `conn` binds, so the second one may bind. -/
theorem listening_socket_bound_once_iff_retry :
    (∀ l ∈ ((machine (listenSystem false)).run
        (World.quiet (.oneAdapter (.bluetooth "aa" "aa") listeningFds, {}))
        (connTwice 9 { bindable := false } {})).state.2.listened, l.Sound) ↔
      BindsLast (((machine (listenSystem false)).run
        (World.quiet (.oneAdapter (.bluetooth "aa" "aa") listeningFds, {}))
        (connTwice 9 { bindable := false } {})).state.2.listened.map (·.outcome)) := by
  have hnew : SharedState.noSockets.newSocket false (.bluetooth "aa" "aa") listeningFds =
      some (some 1, .oneAdapter (.bluetooth "aa" "aa") listeningFds) := rfl
  exact listening_socket_bound_once_iff hnew (connTwice_reconnects _ _ _) (by decide +kernel)

/-- Whatever the calls of `conn` and `disconn` of an adapter in the listening role and their
outcomes, no bound descriptor is bound again. -/
def NeverBindsAgain (link : BratislavaLink) : Prop :=
  ∀ (s₀ s : SharedState) (e : Choice) (x : SocketPtr) (ops : List (Op (listenSystem false))),
    e.deviceType = .router → e.isListener = true →
    s₀.newSocket false link e = some (some x, s) → Calls (Call.Reconnects x) ops →
    (machine (listenSystem false)).Legal (World.quiet (s, {})) ops →
    ∀ l ∈ ((machine (listenSystem false)).run (World.quiet (s, {})) ops).state.2.listened,
      l.again = false

/-- After an `accept` that timed out and a `disconn`, the second `conn` binds the same descriptor,
with an adapter of either class. -/
theorem second_conn_binds_again :
    ¬ NeverBindsAgain (.wifi "aa" "aa") ∧ ¬ NeverBindsAgain (.bluetooth "aa" "aa") := by
  have hlegal : ∀ x ∈ [(BratislavaLink.wifi "aa" "aa", 17), (.bluetooth "aa" "aa", 9)],
      (machine (listenSystem false)).Legal
        (World.quiet (.oneAdapter x.1 listeningFds, {})) (connTwice x.2 {} {}) := by decide +kernel
  have hagain : ∀ x ∈ [(BratislavaLink.wifi "aa" "aa", 17), (.bluetooth "aa" "aa", 9)],
      (⟨{}, true, false⟩ : Listened) ∈ ((machine (listenSystem false)).run
        (World.quiet (.oneAdapter x.1 listeningFds, {})) (connTwice x.2 {} {})).state.2.listened := by
    decide +kernel
  have hfails : ∀ x ∈ [(BratislavaLink.wifi "aa" "aa", 17), (.bluetooth "aa" "aa", 9)],
      SharedState.noSockets.newSocket false x.1 listeningFds =
        some (some 1, .oneAdapter x.1 listeningFds) → ¬ NeverBindsAgain x.1 := by
    intro x hx hnew h
    have hsound := h _ _ _ _ _ rfl rfl hnew (connTwice_reconnects _ _ _) (hlegal x hx) _ (hagain x hx)
    cases hsound
  exact ⟨hfails (BratislavaLink.wifi "aa" "aa", 17) (by simp) rfl,
    hfails (BratislavaLink.bluetooth "aa" "aa", 9) (by simp) rfl⟩

end SensorLib
