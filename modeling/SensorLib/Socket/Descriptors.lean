import SensorLib.Socket.Pins

/-! # Descriptors in use

A `::send` or `::recv` uses its descriptor from the start of the call to its end.
The destructor and `conn` close descriptors under the exclusive lock of the
socket, where nobody uses one. `CloseSocket` in `disconn` does not, and the
descriptor that it closes is the one that it found in `sockfd_` before.
-/

namespace SensorLib

open Threads Runs Handles

/-- The calls of this module, all on one handle. -/
def Call.OnHandle (x : SocketPtr) : Call → Prop
  | .bratislavaSend bsock | .bratislavaRecv bsock | .bratislavaConn bsock
  | .bratislavaDisconnect bsock | .bratislavaDestroy bsock => bsock = some x
  | _ => False

variable {reuse : Bool}

/-- The thread has started a `::send` or `::recv` on the descriptor that has not ended. -/
def inFlight (w : World (socketSystem reuse)) (t : Tid) (fd : Int) : Bool :=
  match w.thread t with
  | some (_, .act (.adapter _ (.endIo fd')) _) => decide (fd' = fd)
  | _ => false

/-- The descriptors that a step closes. -/
def closes (w : World (socketSystem reuse)) : Op (socketSystem reuse) → List Int
  | .start .. => []
  | .run t _ =>
    match w.thread t with
    | some (_, .act a _) => w.state.closedBy a
    | _ => []

/-- No descriptor is closed while a thread uses it. -/
def KeepsInUse (w : World (socketSystem reuse)) (op : Op (socketSystem reuse)) : Prop :=
  ∀ fd ∈ closes w op, ∀ t, inFlight w t fd = false

/-- The thread is in a `::send` or `::recv`. -/
def transferring (w : World (socketSystem reuse)) (t : Tid) : Bool :=
  match w.thread t with
  | some (_, .act (.adapter _ (.endIo _)) _) => true
  | _ => false

/-- The thread is in `CloseSocket`, between reading `sockfd_` and closing what it read. -/
def closing (w : World (socketSystem reuse)) (t : Tid) : Bool :=
  match w.thread t with
  | some (_, .act (.adapter _ (.close _)) _) => true
  | _ => false

/-- A thread takes a descriptor to close in `CloseSocket` only while nobody sends or receives, and
starts to send or receive only while nobody has taken one. -/
def KeepsApart (w : World (socketSystem reuse)) (op : Op (socketSystem reuse)) : Prop :=
  (closing (w.next op) op.tid = true → ∀ t, transferring w t = false) ∧
    (transferring (w.next op) op.tid = true → ∀ t, closing w t = false)

theorem inFlight_iff {w : World (socketSystem reuse)} {t : Tid} {fd : Int} :
    inFlight w t fd = true ↔ ∃ f x k, w.thread t = some (f, .act (.adapter x (.endIo fd)) k) := by
  unfold inFlight
  constructor
  · intro h
    split at h
    · rename_i f x fd' k hthread
      cases of_decide_eq_true h
      exact ⟨f, x, k, hthread⟩
    · cases h
  · rintro ⟨f, x, k, hthread⟩
    simp only [hthread, decide_true]

theorem transferring_of_inFlight {w : World (socketSystem reuse)} {t : Tid} {fd : Int}
    (h : inFlight w t fd = true) : transferring w t = true := by
  obtain ⟨f, x, k, hthread⟩ := inFlight_iff.mp h
  simp only [transferring, hthread]

theorem Call.OnHandle.concerns {f : Call} {x y : SocketPtr} (hf : f.OnHandle x)
    (hy : f.Concerns y) : y = x := by
  cases f with
  | bratislavaSend bsock | bratislavaRecv bsock | bratislavaConn bsock
  | bratislavaDisconnect bsock | bratislavaDestroy bsock =>
    cases hf
    exact (Option.some.inj hy).symm
  | _ => exact hf.elim

theorem Call.OnHandle.api {f : Call} {x : SocketPtr} (hf : f.OnHandle x) : f.Api := by
  cases f with
  | bratislavaSend | bratislavaRecv | bratislavaConn | bratislavaDisconnect
  | bratislavaDestroy => trivial
  | _ => exact hf.elim

/-- A thread that holds the lock of the socket for itself is the only one to use a descriptor. -/
theorem not_inFlight {w : World (socketSystem reuse)} {G : Tid → Knowledge}
    (hG : (handleDiscipline reuse false).Follows (Safe reuse) w G) {x : SocketPtr}
    (hruns : w.Runs (Call.OnHandle x)) {t : Tid} {f : Call} {a : SocketAct}
    {k : a.Answer → Program CallResult}
    (hthread : w.thread t = some (f, .act a k)) (ha : ∀ y fd, a ≠ .adapter y (.endIo fd))
    (hlock : (.sharedBsock x, .exclusive) ∈ w.heldBy t) (fd : Int) (u : Tid) :
    inFlight w u fd = false := by
  rw [Bool.eq_false_iff]
  intro hin
  obtain ⟨f', y, k', hthread'⟩ := inFlight_iff.mp hin
  obtain ⟨-, hconcerns, huse⟩ := (hG.obeys hthread').1
  cases (hruns u _ _ hthread').concerns hconcerns
  have hex := Discipline.excludes_of_exclusion hG.exclusion
  obtain rfl : u = t := excludes_names hex hlock huse
  rw [hthread] at hthread'
  cases hthread'
  exact ha _ _ rfl

/-! ## `CloseSocket` and the calls that send and receive -/

/-- Nobody sends or receives while a thread has a descriptor to close. -/
def Apart (w : World (socketSystem reuse)) : Prop :=
  ∀ t u, closing w t = true → transferring w u = false

theorem Apart.next {w : World (socketSystem reuse)} (h : Apart w) {op : Op (socketSystem reuse)}
    (hop : w.enabled op = true) (hkeeps : KeepsApart w op) : Apart (w.next op) := by
  have hsame : ∀ u, u ≠ op.tid → closing (w.next op) u = closing w u ∧
      transferring (w.next op) u = transferring w u := by
    intro u hu
    simp only [closing, transferring, World.thread_next_of_ne hop hu, and_self]
  intro t u ht
  by_cases htop : t = op.tid
  · by_cases huop : u = op.tid
    · -- One thread does not stand at two acts.
      subst htop
      rw [huop]
      revert ht
      simp only [closing, transferring]
      split
      · rename_i hthread
        simp only [hthread, implies_true]
      · exact fun ht => by cases ht
    · rw [(hsame u huop).2]
      exact hkeeps.1 (htop ▸ ht) u
  · rw [(hsame t htop).1] at ht
    by_cases huop : u = op.tid
    · rw [huop, Bool.eq_false_iff]
      intro hu
      rw [hkeeps.2 hu t] at ht
      cases ht
    · rw [(hsame u huop).2]
      exact h t u ht

/-- In a disciplined world, only `CloseSocket` may close a descriptor in use. -/
theorem Apart.keepsInUse {w : World (socketSystem reuse)} {x : SocketPtr} (h : Apart w)
    (hw : Disciplined reuse false w) (hruns : w.Runs (Call.OnHandle x))
    (op : Op (socketSystem reuse)) : KeepsInUse w op := by
  obtain ⟨G, hG⟩ := hw
  cases op with
  | start t f => exact fun fd hfd => absurd hfd List.not_mem_nil
  | run t e =>
    rcases hthread : w.thread t with _ | ⟨f, p⟩
    · simp [KeepsInUse, closes, hthread]
    cases p with
    | pure | lock | unlock | call => simp [KeepsInUse, closes, hthread]
    | act a k =>
      have hmay : MayAct f (w.heldBy t) (G t) a := (hG.obeys hthread).1
      have hcloses : closes w (.run t e) = w.state.closedBy a := by
        simp only [closes, hthread]
      have hnone : w.state.closedBy a = [] → KeepsInUse w (.run t e) := by
        intro hnil fd hfd
        rw [hcloses, hnil] at hfd
        exact absurd hfd List.not_mem_nil
      cases a with
      | deleteAdapter y =>
        obtain ⟨-, -, hconcerns, hlock⟩ := hmay
        cases (hruns t _ _ hthread).concerns hconcerns
        exact fun fd _ => not_inFlight hG hruns hthread (fun _ _ heq => by cases heq) hlock fd
      | adapter y act =>
        obtain ⟨-, hconcerns, huse⟩ := hmay
        cases (hruns t _ _ hthread).concerns hconcerns
        cases act with
        | close n =>
          have hclosing : closing w t = true := by simp only [closing, hthread]
          intro fd _ u
          rw [Bool.eq_false_iff]
          intro hin
          exact absurd (transferring_of_inFlight hin) (by simp [h t u hclosing])
        | closeRequest =>
          exact fun fd _ => not_inFlight hG hruns hthread (fun _ _ heq => by cases heq) huse fd
        | _ => exact hnone (SharedState.closedBy_adapter_nil fun _ => rfl)
      | _ => exact hnone rfl

/-- In a run of calls on one handle in which `CloseSocket` and the calls that send and receive
keep apart, no descriptor is closed while a `::send` or `::recv` uses it. -/
theorem descriptors_kept {s : SharedState} (hs : s.Settled) {x : SocketPtr}
    {ops : List (Op (socketSystem reuse))} (hcalls : Calls (Call.OnHandle x) ops)
    (hlegal : (machine (socketSystem reuse)).Legal (World.quiet s) ops)
    (hapart : (machine (socketSystem reuse)).Each KeepsApart (World.quiet s) ops) :
    (machine (socketSystem reuse)).Each KeepsInUse (World.quiet s) ops := by
  have hmeets := meets_loose (fun t f hmem => (hcalls t f hmem).api) (World.quiet s)
  have hstarts := hcalls.each (World.quiet s)
  refine Machine.Each.each (M := machine (socketSystem reuse))
    (I := fun w => (Disciplined reuse false w ∧ w.Runs (Call.OnHandle x)) ∧ Apart w) ?_ ?_
    (Machine.Each.and (Machine.Each.and (Machine.Each.and hlegal hmeets) hstarts) hapart)
    ⟨⟨hs.disciplined reuse false, fun t f p h => by cases h⟩, fun t u h => by cases h⟩
  · rintro w op ⟨⟨hw, hruns⟩, h⟩ ⟨⟨hop, hstart⟩, hkeeps⟩
    exact ⟨⟨Discipline.Follows.step handles_sound handles_cover hw hop,
      hruns.next hop.1 hstart⟩, h.next hop.1 hkeeps⟩
  · rintro w op ⟨⟨hw, hruns⟩, h⟩ -
    exact h.keepsInUse hw hruns op

/-- Where only the threads below `n` run, only these need to be looked at. -/
theorem keepsApart_of_lt {n : Nat} {s : SharedState} {ops : List (Op (socketSystem reuse))}
    (hlegal : (machine (socketSystem reuse)).Legal (World.quiet s) ops)
    (hn : ∀ op ∈ ops, op.tid < n)
    (h : (machine (socketSystem reuse)).Each (fun w op =>
      (closing (w.next op) op.tid = true → ∀ t < n, transferring w t = false) ∧
        (transferring (w.next op) op.tid = true → ∀ t < n, closing w t = false))
      (World.quiet s) ops) :
    (machine (socketSystem reuse)).Each KeepsApart (World.quiet s) ops := by
  refine Machine.Each.mono ?_ (Machine.Each.and (each_idle hlegal hn) h)
  rintro w op ⟨hidle, htakes, hstarts⟩
  refine ⟨fun hclosing t => ?_, fun htransfers t => ?_⟩
  · by_cases ht : t < n
    · exact htakes hclosing t ht
    · simp only [transferring, hidle t (Nat.not_lt.mp ht)]
  · by_cases ht : t < n
    · exact hstarts htransfers t ht
    · simp only [closing, hidle t (Nat.not_lt.mp ht)]

/-- One thread has received when another one disconnects the handle. -/
def recvBeforeDisconnect : List (Op (socketSystem false)) :=
  .start 0 (.bratislavaRecv (some 1)) :: List.replicate 22 (.run 0 {}) ++
    .start 1 (.bratislavaDisconnect (some 1)) :: List.replicate 25 (.run 1 {})

theorem descriptors_kept_recv_before_disconnect :
    (machine (socketSystem false)).Each KeepsInUse (World.quiet .onePeer) recvBeforeDisconnect := by
  have hlegal : (machine (socketSystem false)).Legal (World.quiet .onePeer) recvBeforeDisconnect := by
    decide +kernel
  refine descriptors_kept (x := 1) SharedState.onePeer_settled ?_ hlegal
    (keepsApart_of_lt (n := 2) hlegal (by decide +kernel) (by decide +kernel))
  intro t f hmem
  simp [recvBeforeDisconnect] at hmem
  rcases hmem with ⟨_, rfl⟩ | ⟨_, rfl⟩ <;> rfl

/-- One thread receives on descriptor 5 when another one, which disconnects the handle, comes to
close it. -/
def disconnectDuringRecv : List (Op (socketSystem false)) :=
  .start 0 (.bratislavaRecv (some 1)) :: List.replicate 19 (.run 0 {}) ++
    .start 1 (.bratislavaDisconnect (some 1)) :: List.replicate 18 (.run 1 {})

/-- With one peer, no run closes a descriptor in use. -/
def DescriptorsKept (kind : AdapterKind) : Prop :=
  ∀ ops : List (Op (socketSystem false)), Calls (Call.OnHandle 1) ops →
    (machine (socketSystem false)).Legal (World.quiet (.peerWith kind)) ops →
    (machine (socketSystem false)).Each KeepsInUse (World.quiet (.peerWith kind)) ops

/-- The descriptor that a thread receives on is closed, on an adapter of either class. -/
theorem disconnect_closes_in_use :
    ¬ DescriptorsKept (.wifi .router) ∧ ¬ DescriptorsKept (.bluetooth false) := by
  have hcalls : Calls (Call.OnHandle 1) (disconnectDuringRecv ++ [.run 1 {}]) := by
    intro t f hmem
    simp [disconnectDuringRecv] at hmem
    rcases hmem with ⟨_, rfl⟩ | ⟨_, rfl⟩ <;> rfl
  have hlegal : ∀ kind ∈ [AdapterKind.wifi .router, .bluetooth false],
      (machine (socketSystem false)).Legal (World.quiet (.peerWith kind))
        (disconnectDuringRecv ++ [.run 1 {}]) := by decide +kernel
  have hclash : ∀ kind ∈ [AdapterKind.wifi .router, .bluetooth false],
      5 ∈ closes ((machine (socketSystem false)).run (World.quiet (.peerWith kind))
        disconnectDuringRecv) (.run 1 {}) ∧
      inFlight ((machine (socketSystem false)).run (World.quiet (.peerWith kind))
        disconnectDuringRecv) 0 5 = true := by decide +kernel
  have hboth : ∀ kind ∈ [AdapterKind.wifi .router, .bluetooth false],
      ¬ DescriptorsKept kind := by
    intro kind hkind h
    obtain ⟨-, hkeeps, -⟩ := (Machine.each_append _ _ _).mp (h _ hcalls (hlegal kind hkind))
    obtain ⟨hcloses, hin⟩ := hclash kind hkind
    rw [hkeeps 5 hcloses 0] at hin
    cases hin
  exact ⟨hboth _ (by simp), hboth _ (by simp)⟩

end SensorLib
