import SensorLib.Socket.PeerPrograms

/-! # One handle for each device

As long as the id of every link that is looked for leads to the socket of its
device, no device gets a second handle, and no handle is left without a config.
-/

namespace SensorLib

open Threads Runs BratislavaSocketRegistry Peers

variable {reuse : Bool}

/-- A call of `bratislavaSocket` has its result and is about to release the creation lock. -/
def Returning (w : World (socketSystem reuse)) (t : Tid) (link : BratislavaLink)
    (bsock : Option SocketPtr) : Prop :=
  w.thread t = some (.bratislavaSocket link,
    .unlock .bsockCreation .exclusive (.unlock .bsockDeletion .shared (.pure (.handle bsock))))

/-- No two handles are for one device, the entry of every handle leads to a config, and a call
returns the registered handle of its device. -/
structure OneHandlePerDevice (w : World (socketSystem reuse)) : Prop where
  unique : ∀ x y b c, w.state.heap.lookup x = some b → w.state.heap.lookup y = some c →
    b.link.device = c.link.device → x = y
  live : ∀ x p, w.state.registry.sockToConfig.lookup x = some p → p ∈ w.state.registry.configs
  returned : ∀ t link bsock, Returning w t link bsock →
    ∃ x ∈ w.state.registry.sockets, bsock = some x ∧
      ∀ y ∈ w.state.registry.sockets, w.state.peerOf y = some link.device → y = x

/-- When a call takes the creation lock for a link, the id of the link leads to the socket of its
device. -/
def resolvesLink (w : World (socketSystem reuse)) : Op (socketSystem reuse) → Bool
  | .start .. => true
  | .run t _ =>
    match w.thread t with
    | some (f, .lock .bsockCreation _ _) =>
      match f.link with
      | some link => decide (w.state.Resolves link)
      | none => true
    | _ => true

/-- Nobody is in a call: the registry is well formed, the live handles are the registered ones,
and no two of them are for one device. -/
abbrev SharedState.OneForEach (s : SharedState) : Prop := Consistent s .idle

/-- What every world of a run is like. -/
def Peering (w : World (socketSystem reuse)) : Prop :=
  ∃ G, (peerDiscipline reuse).Follows Kept w G

theorem SharedState.OneForEach.peering {s : SharedState} (hs : s.OneForEach) :
    Peering (World.quiet s : World (socketSystem reuse)) := by
  refine ⟨fun _ => {}, Discipline.follows_quiet ⟨⟨.idle, ⟨fun _ => Or.inl rfl, ?_⟩, hs⟩, ?_, ?_, ?_, ?_⟩⟩
  · exact fun hne => absurd rfl hne
  · exact fun t hne => absurd rfl hne
  · exact fun t hin => hin.elim
  · exact fun t x hx => by cases hx
  · exact fun t => ⟨fun x hx => (by cases hx), fun x d hx => (by cases hx), fun x hx => by cases hx⟩

variable {w : World (socketSystem reuse)}

/-- In a quiet world the state is as it is between calls. -/
theorem Peering.oneForEach {s : SharedState}
    (h : Peering (World.quiet s : World (socketSystem reuse))) : s.OneForEach := by
  obtain ⟨G, hG⟩ := h
  obtain ⟨stage, ⟨-, hsome⟩, hc⟩ := hG.invariant.consistent
  have hstage : stage = .idle := by
    by_contra hne
    obtain ⟨t, ht⟩ := hsome hne
    exact List.not_mem_nil (hG.invariant.busy t (ht ▸ hne))
  subst hstage
  exact hc

theorem Peering.oneHandlePerDevice (h : Peering w) : OneHandlePerDevice w := by
  obtain ⟨G, hG⟩ := h
  obtain ⟨stage, -, hc⟩ := hG.invariant.consistent
  refine ⟨fun x y b c hx hy hdevice => ?_, fun x p hx => ?_, fun t link bsock hthread => ?_⟩
  · refine hc.unique x y (getDeviceID c.link) ?_ ?_
    · rw [SharedState.deviceOf, hx, Option.map_some, getDeviceID_of_device hdevice]
    · rw [SharedState.deviceOf, hy, Option.map_some]
  · obtain ⟨c, hp, -⟩ := hc.registry.socketLive x p hx
    exact Finmap.mem_of_lookup_eq_some hp
  · obtain ⟨hmem, -, -, -, -, hfinished⟩ := hG.obeys hthread
    obtain ⟨x, hanswer, heq⟩ := hfinished link rfl
    have hstage : (G t).stage = .settled x link := by
      have hanswer' : (G t).stage.answer = some (x, link) := hanswer
      cases hst : (G t).stage with
      | settled y link' =>
        rw [hst] at hanswer'
        cases hanswer'
        rfl
      | _ =>
        rw [hst] at hanswer'
        cases hanswer'
    have hsettled := hG.invariant.consistent_of_creating
      (Discipline.excludes_of_exclusion hG.exclusion) hmem
    rw [hstage] at hsettled
    cases heq
    exact ⟨x, hsettled.stage.1, rfl, fun y _ hy => hsettled.stage.2 y hy⟩

theorem meets_resolves {op : Op (socketSystem reuse)}
    (hcall : ∀ t f, op = .start t f → f.OnPeers) (hresolves : resolvesLink w op = true) :
    Discipline.Meets Call.OnPeers Assumed w op := by
  cases op with
  | start t f => exact hcall t f rfl
  | run t e =>
    intro f p hthread link hlink hhead
    cases p with
    | lock l m k =>
      cases hhead
      simp only [resolvesLink, hthread, hlink, decide_eq_true_eq] at hresolves
      exact hresolves
    | pure | unlock | act | call => cases hhead

/-- The socket of a link that resolves is found under the id of the link. -/
theorem SharedState.OneForEach.named {s : SharedState} (hs : s.OneForEach) {link : BratislavaLink}
    (hresolves : s.Resolves link) {x : SocketPtr} (hpeer : s.peerOf x = some link.device) :
    ∃ c, s.registry.getConfigId link.linkID = some c ∧ c.socket = some x := by
  have hresolving : Consistent s (.resolving link) := hs.restage rfl rfl hresolves
  have hfound := hresolving.resolve.stage
  simp only [lookedUp, if_true] at hfound
  split at hfound
  · obtain ⟨-, hone, hnamed⟩ := hfound
    rwa [hone x hpeer]
  · exact absurd (deviceOf_of_peerOf hpeer) (hfound x)

/-- One thread is in a call of `bratislavaSocket`, which is about to return `bsock`. -/
def answering (reuse : Bool) (s : SharedState) (t : Tid) (link : BratislavaLink)
    (bsock : Option SocketPtr) : World (socketSystem reuse) :=
  World.alone s t (.bratislavaSocket link) (.pure (.handle bsock)) []

/-- A call that nobody disturbs returns the registered socket of its device, and changes nothing. -/
def FindsRegistered (reuse : Bool) (s : SharedState) : Prop :=
  ∀ link x, s.Resolves link → s.peerOf x = some link.device → ∀ t e,
    (machine (socketSystem reuse)).Legal (World.quiet s)
        (.start t (.bratislavaSocket link) :: List.replicate 12 (.run t e)) ∧
      (machine (socketSystem reuse)).run (World.quiet s)
          (.start t (.bratislavaSocket link) :: List.replicate 12 (.run t e)) =
        answering reuse s t link (some x)

/-- The call returns the socket that the id of its link names. -/
theorem found_at_once {s : SharedState} {link : BratislavaLink} {c : BratislavaSocketConfig}
    {x : SocketPtr} (hget : s.registry.getConfigId link.linkID = some c)
    (hsocket : c.socket = some x) (t : Tid) (e : Choice) :
    (machine (socketSystem reuse)).Legal (World.quiet s)
        (.start t (.bratislavaSocket link) :: List.replicate 12 (.run t e)) ∧
      (machine (socketSystem reuse)).run (World.quiet s)
          (.start t (.bratislavaSocket link) :: List.replicate 12 (.run t e)) =
        answering reuse s t link (some x) := by
  have hstep : ∀ {w w' w'' : World (socketSystem reuse)} {op : Op (socketSystem reuse)} {ops},
      w.enabled op = true ∧ w.next op = w' →
      (machine (socketSystem reuse)).Legal w' ops ∧
        (machine (socketSystem reuse)).run w' ops = w'' →
      (machine (socketSystem reuse)).Legal w (op :: ops) ∧
        (machine (socketSystem reuse)).run w (op :: ops) = w'' := by
    rintro w w' w'' op ops ⟨hop, rfl⟩ ⟨hlegal, hrun⟩
    exact ⟨⟨hop, hlegal⟩, hrun⟩
  have hread : (s.exec reuse (.getConfigId link.linkID) e) = some (some c, s) := by
    rw [SharedState.exec, hget]
  -- With the field in place, the instructions of the call come out by computation.
  cases c
  cases hsocket
  refine hstep ⟨rfl, World.alone_start⟩ ?_
  refine hstep (World.alone_lock (by simp)) ?_
  refine hstep (World.alone_lock (by simp)) ?_
  refine hstep (World.alone_lock (by simp)) ?_
  refine hstep (World.alone_lock (by simp)) ?_
  refine hstep (World.alone_act hread) ?_
  refine hstep World.alone_unlock ?_
  refine hstep World.alone_unlock ?_
  refine hstep (World.alone_lock (by simp)) ?_
  refine hstep (World.alone_act hread) ?_
  refine hstep World.alone_unlock ?_
  refine hstep World.alone_unlock ?_
  refine hstep World.alone_unlock ?_
  exact ⟨trivial, rfl⟩

/-- The calls of the run are on links of supported types, and each link resolves when the
creation lock is taken for it. -/
theorem one_handle_per_device {s : SharedState} (hs : s.OneForEach)
    {ops : List (Op (socketSystem reuse))} (hcalls : Calls Call.OnPeers ops)
    (hlegal : (machine (socketSystem reuse)).Legal (World.quiet s) ops)
    (hresolves : (machine (socketSystem reuse)).Each (fun w op => resolvesLink w op = true)
      (World.quiet s) ops) :
    (machine (socketSystem reuse)).Always OneHandlePerDevice (World.quiet s) ops ∧
      ∀ s', (machine (socketSystem reuse)).run (World.quiet s) ops = World.quiet s' →
        FindsRegistered reuse s' := by
  have hstarts := hcalls.each (World.quiet s)
  have heach := Machine.Each.and (Machine.Each.and hlegal hstarts) hresolves
  have hstep : ∀ (w : World (socketSystem reuse)) (op : Op (socketSystem reuse)), Peering w →
      (w.enabled op = true ∧ ∀ t f, op = .start t f → f.OnPeers) ∧ resolvesLink w op = true →
      Peering (w.next op) := by
    intro w op hw hop
    exact Discipline.Follows.step peers_sound peers_cover hw
      ⟨hop.1.1, meets_resolves hop.1.2 hop.2⟩
  refine ⟨Machine.Each.always (M := machine (socketSystem reuse)) (I := Peering) hstep
    (fun w hw => hw.oneHandlePerDevice) heach hs.peering, fun s' hquiet link x hlink hpeer t e => ?_⟩
  have hw := Machine.Each.invariant (M := machine (socketSystem reuse)) (I := Peering) hstep heach
    hs.peering
  rw [hquiet] at hw
  obtain ⟨c, hget, hsocket⟩ := hw.oneForEach.named hlink hpeer
  exact found_at_once hget hsocket t e

def SharedState.noSockets : SharedState where
  registry := .empty
  heap := ∅
  openFds := []
  used := []
  removed := []
  deleted := []

theorem SharedState.noSockets_oneForEach : SharedState.noSockets.OneForEach where
  registry := empty_wellFormed
  nodup := List.nodup_nil
  live x := by simp [noSockets, BratislavaSocketRegistry.empty, Stage.outside, Finmap.notMem_empty]
  outside x hx := by cases hx
  wifi x a d ha := by cases ha
  devices x c hx := by simp [noSockets, BratislavaSocketRegistry.empty, getConfigSocket] at hx
  unique x y d hx := by cases hx
  stage := trivial

/-- Two threads ask for the socket of one device, and one of them destroys it. -/
def socketThenDestroy : List (Op (socketSystem false)) :=
  .start 0 (.bratislavaSocket (.wifi "aa" "aa")) :: .start 1 (.bratislavaSocket (.wifi "aa" "aa")) ::
    .run 1 {} :: List.replicate 18 (.run 0 { address := 1 }) ++ List.replicate 12 (.run 1 {}) ++
    .start 0 (.bratislavaDestroy (some 1)) :: List.replicate 43 (.run 0 {})

theorem one_handle_socket_then_destroy :
    (machine (socketSystem false)).Always OneHandlePerDevice (World.quiet .noSockets)
        socketThenDestroy ∧
      ∀ s', (machine (socketSystem false)).run (World.quiet .noSockets) socketThenDestroy =
        World.quiet s' → FindsRegistered false s' := by
  refine one_handle_per_device SharedState.noSockets_oneForEach ?_ (by decide +kernel)
    (by decide +kernel)
  intro t f hmem
  simp [socketThenDestroy] at hmem
  rcases hmem with ⟨_, rfl⟩ | ⟨_, rfl⟩ | ⟨_, rfl⟩
  · exact Or.inr rfl
  · exact Or.inr rfl
  · trivial

/-- The id of the link is not the MAC address, so a second call makes a second handle. Then the
first one is destroyed. -/
def socketTwiceThenDestroy : List (Op (socketSystem false)) :=
  .start 0 (.bratislavaSocket (.wifi "peer" "aa")) :: List.replicate 18 (.run 0 { address := 1 }) ++
    .start 0 (.bratislavaSocket (.wifi "peer" "aa")) ::
    List.replicate 18 (.run 0 { address := 2 }) ++
    .start 0 (.bratislavaDestroy (some 1)) :: List.replicate 43 (.run 0 {})

/-- The entry of the second handle leads to the config that went with the first. -/
theorem second_handle_loses_config : ¬ ∀ ops : List (Op (socketSystem false)),
    Calls Call.OnPeers ops →
    (machine (socketSystem false)).Legal (World.quiet .noSockets) ops →
    (machine (socketSystem false)).Always OneHandlePerDevice (World.quiet .noSockets) ops := by
  intro h
  have hcalls : Calls Call.OnPeers socketTwiceThenDestroy := by
    intro t f hmem
    simp [socketTwiceThenDestroy] at hmem
    rcases hmem with ⟨_, rfl⟩ | ⟨_, rfl⟩
    · exact Or.inr rfl
    · trivial
  have hone := (h socketTwiceThenDestroy hcalls (by decide +kernel)).last
  have hentry : ((machine (socketSystem false)).run (World.quiet .noSockets)
      socketTwiceThenDestroy).state.registry.sockToConfig.lookup 2 = some 1 := by decide +kernel
  have hfreed : 1 ∉ ((machine (socketSystem false)).run (World.quiet .noSockets)
      socketTwiceThenDestroy).state.registry.configs := by decide +kernel
  generalize (machine (socketSystem false)).run (World.quiet .noSockets) socketTwiceThenDestroy = w
    at hone hentry hfreed
  exact hfreed (hone.live 2 1 hentry)

end SensorLib
