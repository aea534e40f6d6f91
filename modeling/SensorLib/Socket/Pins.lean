import SensorLib.Socket.Programs
import SensorLib.Threads.Paths

/-! # Pinned sockets are not deleted -/

namespace SensorLib

open Threads Runs Handles

/-- Between calls: every registered handle has its socket and its adapter, and no handle has
been removed yet. -/
structure SharedState.Settled (s : SharedState) : Prop where
  nodup : s.registry.sockets.Nodup
  live : ∀ x ∈ s.registry.sockets, (s.adapterOf x).isSome
  allocated : ∀ x ∈ s.heap, x ∈ s.used
  removed : s.removed = []
  deleted : s.deleted = []

theorem SharedState.Settled.safe {s : SharedState} (hs : s.Settled) (reuse : Bool) :
    Safe reuse s (fun _ => []) (fun _ => {}) where
  nodup := hs.nodup
  live := hs.live
  thread _ := ⟨by simp, by simp, by simp, by simp, by simp⟩
  history _ := by
    refine ⟨⟨hs.allocated, ?_, ?_, ?_, ?_, ?_⟩, ?_, by simp, by simp⟩ <;>
      simp [hs.removed, hs.deleted]

/-- The memory of a handle that an instruction reads or writes. -/
def Touches (x : SocketPtr) : Instr socketSignature → Prop
  | .lock l _ | .unlock l _ => l = .sharedBsock x
  | .act (.readLink y) | .act (.hasAdapter y) | .act (.adapter y _) | .act (.deleteAdapter y)
  | .act (.deleteSocket y) => y = x
  | _ => False

variable {reuse : Bool}

/-- The thread holds the lock of the socket by a pin. The other way to hold it is that of
`bratislavaDestroy`, under the exclusive deletion lock. -/
structure Pinned (w : World (socketSystem reuse)) (t : Tid) (x : SocketPtr) : Prop where
  holds : ∃ m, (.sharedBsock x, m) ∈ w.heldBy t
  pinned : (.bsockDeletion, .exclusive) ∉ w.heldBy t

/-- The socket of the handle and its adapter are there, and no handle at its address has been
deleted. -/
structure Alive (s : SharedState) (x : SocketPtr) : Prop where
  registered : x ∈ s.registry.sockets
  adapter : (s.adapterOf x).isSome
  notDeleted : x ∉ s.deleted

theorem Handles.Safe.alive {s : SharedState} {H : Tid → Locks} {G : Tid → Knowledge}
    (hsafe : Safe false s H G) {x : SocketPtr} (hx : x ∈ s.registry.sockets) : Alive s x where
  registered := hx
  adapter := hsafe.live x hx
  notDeleted hdel :=
    (hsafe.history rfl).past.deletedDead x hdel (SharedState.adapterOf_isSome_mem (hsafe.live x hx))

theorem Pinned.known {s : SharedState} {w : World (socketSystem reuse)} {G : Tid → Knowledge}
    (hsafe : Safe reuse s w.heldBy G) {t : Tid} {x : SocketPtr} (hpin : Pinned w t x) :
    (G t).known = some x := by
  obtain ⟨m, hm⟩ := hpin.holds
  exact ((hsafe.thread t).pinned x (mem_lockNames_of_mem hm)).resolve_left hpin.pinned

/-! ## Pins of a removed handle -/

/-- A handle that was removed stays removed, one that was deleted stays deleted. -/
theorem history_mono {s s' : SharedState} {act : SocketAct} {e : Choice} {answer : act.Answer}
    (hexec : s.exec reuse act e = some (answer, s')) :
    s.removed ⊆ s'.removed ∧ s.deleted ⊆ s'.deleted := by
  have hsame : s.removed ⊆ s.removed ∧ s.deleted ⊆ s.deleted := ⟨fun _ h => h, fun _ h => h⟩
  by_cases hplain : act.Plain
  · have hs := SharedState.SameHandles.of_exec hplain hexec
    rw [hs.removed, hs.deleted]
    exact hsame
  · cases act with
    | pushSocket y =>
      cases hexec
      exact hsame
    | eraseSocket y =>
      cases hexec
      exact ⟨List.subset_cons_self _ _, hsame.2⟩
    | newSocket link =>
      simp only [SharedState.exec, SharedState.newSocket] at hexec
      split at hexec
      · split at hexec
        · split at hexec
          · cases hexec
            exact hsame
          · cases hexec
        · cases hexec
          exact hsame
      · cases hexec
    | deleteAdapter y =>
      obtain ⟨s₁, h, heq⟩ := Option.map_eq_some_iff.mp hexec
      cases heq
      simp only [SharedState.deleteAdapter] at h
      split at h
      · cases h
        exact hsame
      · cases h
    | deleteSocket y =>
      obtain ⟨s₁, h, heq⟩ := Option.map_eq_some_iff.mp hexec
      cases heq
      simp only [SharedState.deleteSocket] at h
      split at h
      · cases h
        exact ⟨hsame.1, List.subset_cons_self _ _⟩
      · cases h
    | _ => exact absurd trivial hplain

theorem history_next {w : World (socketSystem reuse)} {op : Op (socketSystem reuse)}
    (hop : w.enabled op = true) :
    w.state.removed ⊆ (w.next op).state.removed ∧ w.state.deleted ⊆ (w.next op).state.deleted := by
  have hsame : w.state.removed ⊆ w.state.removed ∧ w.state.deleted ⊆ w.state.deleted :=
    ⟨fun _ h => h, fun _ h => h⟩
  cases op with
  | start t f => exact hsame
  | run t e =>
    have hran := World.ran hop
    generalize w.next (.run t e) = w' at hran ⊢
    cases hran with
    | done | lock | unlock | call => exact hsame
    | act _ hexec => exact history_mono hexec

/-- The handle is not found. -/
def Missed (x : SocketPtr) : (act : SocketAct) → act.Answer → Prop
  | .findSocket y, found => y = x → found = false
  | _, _ => True

/-- Where the handle is not found, the pin fails on a way that does not touch it. -/
theorem leads_pinIfExists (m : Mode) (x : SocketPtr) (k : Bool → Program CallResult) :
    Leads (S := socketSignature) (Missed x) (fun i => ¬ Touches x i) (k false)
      ((pinIfExists m x).bind k) := by
  refine .lock (by simp [Touches]) (.lock (by simp [Touches]) (.act (by simp [Touches]) ?_))
  intro found hfound
  cases hfound rfl
  exact .unlock (by simp [Touches]) (.unlock (by simp [Touches]) .here)

theorem missed_exec {s s' : SharedState} {act : SocketAct} {e : Choice} {answer : act.Answer}
    {x : SocketPtr} (hx : x ∉ s.registry.sockets)
    (hexec : s.exec reuse act e = some (answer, s')) : Missed x act answer := by
  cases act with
  | findSocket y =>
    cases hexec
    rintro rfl
    exact decide_eq_false hx
  | _ => trivial

/-- The thread is on its way out of a pin that fails, and does not touch the handle. -/
def FailsPin (t : Tid) (f : Call) (x : SocketPtr) (k : Bool → Program CallResult)
    (w : World (socketSystem reuse)) : Prop :=
  ∃ p, w.thread t = some (f, p) ∧
    Leads (S := socketSignature) (Missed x) (fun i => ¬ Touches x i) (k false) p

/-- What every world of a run is like. -/
def Disciplined (reuse strict : Bool) (w : World (socketSystem reuse)) : Prop :=
  ∃ G, (handleDiscipline reuse strict).Follows (Safe reuse) w G

theorem SharedState.Settled.disciplined {s : SharedState} (hs : s.Settled) (reuse strict : Bool) :
    Disciplined reuse strict (World.quiet s) :=
  ⟨_, Discipline.follows_quiet (hs.safe reuse)⟩

theorem meets_loose {ops : List (Op (socketSystem reuse))} (hcalls : Calls Call.Api ops)
    (w : World (socketSystem reuse)) :
    (machine (socketSystem reuse)).Each (Discipline.Meets Call.Api (Returns false)) w ops :=
  Discipline.each_meets hcalls (fun _ _ _ hstrict => by cases hstrict) w

/-- In any world of a run, a pin of a handle that was removed fails without touching it. -/
theorem until_pin_fails {w : World (socketSystem false)} (hw : Disciplined false false w)
    {ops : List (Op (socketSystem false))} (hcalls : Calls Call.Api ops)
    (hlegal : (machine (socketSystem false)).Legal w ops) {t : Tid} {f : Call} {m : Mode}
    {x : SocketPtr} {k : Bool → Program CallResult}
    (hthread : w.thread t = some (f, (pinIfExists m x).bind k)) (hx : x ∈ w.state.removed) :
    (machine (socketSystem false)).Until (fun w => ∃ p, w.thread t = some (f, p) ∧ ¬ Touches x p.head)
      (fun w => w.thread t = some (f, k false)) w ops := by
  refine Machine.Each.until (I := fun w => Disciplined false false w ∧ x ∈ w.state.removed ∧
    FailsPin t f x k w) ?_ ?_ (Machine.Each.and hlegal (meets_loose hcalls w))
    ⟨hw, hx, _, hthread, leads_pinIfExists m x k⟩
  · rintro w op ⟨hw, hx, p, hthread, hleads⟩ hop
    have hout : x ∉ w.state.registry.sockets := by
      obtain ⟨G, hG⟩ := hw
      exact (hG.invariant.history rfl).past.removedOut x hx
    rcases hleads.next hop.1 hthread fun a e answer s _ hexec => missed_exec hout hexec with
      rfl | ⟨p', hthread', hleads'⟩
    · exact Or.inl hthread
    · exact Or.inr ⟨Discipline.Follows.step handles_sound handles_cover hw hop,
        (history_next hop.1).1 hx, p', hthread', hleads'⟩
  · rintro w ⟨_, _, p, hthread, hleads⟩
    rcases hleads.head with rfl | hhead
    · exact Or.inl hthread
    · exact Or.inr ⟨p, hthread, hhead⟩

/-- Whatever the threads do, a pinned socket is not deleted while it is pinned, and a pin of a
handle that was removed comes back without the lock and without touching the handle. -/
theorem pins_protect {s : SharedState} (hs : s.Settled) {ops : List (Op (socketSystem false))}
    (hcalls : Calls Call.Api ops)
    (hlegal : (machine (socketSystem false)).Legal (World.quiet s) ops) :
    (machine (socketSystem false)).Always (fun w => ∀ t x, Pinned w t x → Alive w.state x)
      (World.quiet s) ops ∧
    ∀ before after, ops = before ++ after →
      ∀ w, w = (machine (socketSystem false)).run (World.quiet s) before →
      ∀ t f m x k, w.thread t = some (f, (pinIfExists m x).bind k) → x ∈ w.state.removed →
        (machine (socketSystem false)).Until
          (fun w => ∃ p, w.thread t = some (f, p) ∧ ¬ Touches x p.head)
          (fun w => w.thread t = some (f, k false)) w after := by
  have hstart := hs.disciplined false false
  constructor
  · refine Machine.Each.always (M := machine (socketSystem false)) (I := Disciplined false false)
      (fun w op hw hop => Discipline.Follows.step handles_sound handles_cover hw hop) ?_
      (Machine.Each.and hlegal (meets_loose hcalls _)) hstart
    rintro w ⟨G, hG⟩ t x hpin
    have hknown := (hG.invariant.thread t).known x (hpin.known hG.invariant)
    exact hG.invariant.alive hknown.1
  · rintro before after rfl w rfl t f m x k hthread hx
    obtain ⟨hlegal₁, hlegal₂⟩ := (Machine.each_append _ _ _).mp hlegal
    have hcalls₁ : Calls Call.Api before := fun t f hmem => hcalls t f (List.mem_append_left _ hmem)
    have hcalls₂ : Calls Call.Api after := fun t f hmem => hcalls t f (List.mem_append_right _ hmem)
    obtain ⟨G, hG⟩ := hstart
    exact until_pin_fails (hG.of_run handles_sound handles_cover hlegal₁ (meets_loose hcalls₁ _))
      hcalls₂ hlegal₂ hthread hx

/-- One peer, with its socket registered and connected. -/
def SharedState.peerWith (kind : AdapterKind) : SharedState where
  registry :=
    { BratislavaSocketRegistry.empty with
      sockets := [1]
      sockToConfig := Finmap.singleton 1 0
      deviceIdToConfig := Finmap.singleton "aa" 0
      configs := Finmap.singleton 0 { socket := some 1, deviceId := "aa", connected := true } }
  heap := Finmap.singleton 1
    { link := .wifi "peer" "aa"
      adapter := .object { kind, sockfd := 5, sockfdRequest := 6, sockfdListen := 7,
                           connected := true } }
  openFds := [5, 6, 7]
  used := [1]
  removed := []
  deleted := []

def SharedState.onePeer : SharedState := .peerWith (.wifi .router)

theorem SharedState.peerWith_settled (kind : AdapterKind) : (peerWith kind).Settled where
  nodup := List.nodup_singleton 1
  live x hx := by
    cases List.mem_singleton.mp hx
    simp [adapterOf, peerWith]
  allocated x hx := List.mem_singleton.mpr ((Finmap.mem_singleton x 1 _).mp hx)
  removed := rfl
  deleted := rfl

theorem SharedState.onePeer_settled : SharedState.onePeer.Settled := peerWith_settled _

/-- A thread that sends has pinned the socket when another one comes to destroy it. -/
def sendThenDestroy (reuse : Bool) : List (Op (socketSystem reuse)) :=
  .start 0 (.bratislavaSend (some 1)) :: List.replicate 6 (.run 0 {}) ++
    .start 1 (.bratislavaDestroy (some 1)) :: List.replicate 11 (.run 1 {})

theorem pins_protect_send : (machine (socketSystem false)).Always
    (fun w => ∀ t x, Pinned w t x → Alive w.state x) (World.quiet .onePeer)
    (sendThenDestroy false) := by
  refine (pins_protect SharedState.onePeer_settled ?_ (by decide +kernel)).1
  intro t f hmem
  simp [sendThenDestroy] at hmem
  rcases hmem with ⟨_, rfl⟩ | ⟨_, rfl⟩ <;> trivial

end SensorLib
