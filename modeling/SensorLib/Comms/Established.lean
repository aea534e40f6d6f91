import SensorLib.Comms.Connections

/-! # Links whose connections are established

The client publishes its link after the answer of the server, which closes its
end of the connection right after it.
-/

namespace SensorLib.Comms

open Threads Runs Handshakes

variable {w : World hostSystem} {G : Tid → Stage} {t : Tid} {this : RuntimePtr} {link : ActiveLink}
  {e : HostChoice}

/-- The server has accepted the connection of the link, and not closed its end. -/
def Established (link : ActiveLink) (w : World hostSystem) : Prop :=
  ∃ c, w.state.connectionOf link.link.socketFd = some c ∧
    (w.state.connections c).serverEnd = .accepted

/-- The next step of the server's thread is the close of the connection of the link. -/
def AboutToClose (link : ActiveLink) (w : World hostSystem) : Prop :=
  ∃ c t k, w.state.connectionOf link.link.socketFd = some c ∧
    w.thread t = some (.bluetoothServerLoop, .act (.server (.close c)) k)

/-- Both runtimes run, and the link is published and was not dropped. -/
structure Up (this : RuntimePtr) (link : ActiveLink) (w : World hostSystem) : Prop where
  server : w.state.running = true
  client : ∃ runtime, w.state.client.runtimes.lookup this = some runtime ∧ runtime.running = true ∧
    link ∈ runtime.activeLinks

/-- The thread of the server makes a step. -/
def ServerSteps (w : World hostSystem) : Op hostSystem → Prop
  | .start .. => False
  | .run t _ => ∃ p, w.thread t = some (.bluetoothServerLoop, p)

namespace Handshakes

def Stage.OfServer : Stage → Prop
  | .starting | .server | .serving _ | .closing _ => True
  | .idle | .asking _ | .answered _ => False

theorem ofServer_acted (g : Stage) (a : HostAct) (x : a.Answer) :
    (acted g a x).OfServer ↔ g.OfServer := by
  unfold acted
  split
  · split <;> rfl
  all_goals rfl

theorem ofServer_of_serves {g : Stage} (hg : g.Serves) : g.OfServer := by
  cases g with
  | server | serving | closing => trivial
  | _ => exact hg.elim

theorem not_ofServer {g : Stage} {a : RuntimeAct} (hmay : MayActClient g a) : ¬ g.OfServer := by
  cases g with
  | idle | asking | answered => exact id
  | starting | server | serving | closing => cases a <;> cases hmay

/-- A thread of the client reconnects its own socket only, and closes no end of the server. -/
theorem execClient_ends {g : Stage} {a : RuntimeAct} {x : a.Answer} {s s' : Hosts}
    (hmay : MayActClient g a) (hexec : s.execClient e (.method this a) = some (x, s')) :
    (∀ fd, g.fd ≠ some fd → s'.connectionOf fd = s.connectionOf fd) ∧
      ∀ c, c < s.made → (s'.connections c).serverEnd = (s.connections c).serverEnd := by
  have hset : ∀ c' (y : Connection), y.serverEnd = (s.connections c').serverEnd → ∀ c,
      ((s.setConnection c' y).connections c).serverEnd = (s.connections c).serverEnd := by
    intro c' y hy c
    by_cases hcc : c = c'
    · subst hcc
      rw [show (s.setConnection c y).connections c = y from Function.update_self _ _ _, hy]
    · rw [show (s.setConnection c' y).connections c = _ from Function.update_of_ne hcc _ _]
  cases a with
  | connect socketFd =>
    have hasking : g = .asking socketFd := hmay
    simp only [Hosts.execClient] at hexec
    split at hexec
    · split at hexec <;> cases hexec
      refine ⟨fun fd hfd => Function.update_of_ne ?_ _ _, fun c hc => ?_⟩
      · rintro rfl
        exact hfd (hasking ▸ rfl)
      · rw [show (s.connect socketFd).connections c = s.connections c from
          Function.update_of_ne hc.ne _ _]
    · cases hexec
      exact ⟨fun _ _ => rfl, fun _ _ => rfl⟩
  | send socketFd =>
    simp only [Hosts.execClient] at hexec
    split at hexec
    · obtain ⟨c, hc, hrun⟩ := Option.map_eq_some_iff.mp hexec
      cases hrun
      refine ⟨fun _ _ => rfl, fun c' _ => hset c _ ?_ c'⟩
      rfl
    · cases hexec
      exact ⟨fun _ _ => rfl, fun _ _ => rfl⟩
  | recv socketFd =>
    simp only [Hosts.execClient] at hexec
    split at hexec
    · obtain ⟨c, hc, hrun⟩ := Option.bind_eq_some_iff.mp hexec
      unfold Hosts.recvReply at hrun
      split at hrun <;> cases hrun
      refine ⟨fun _ _ => rfl, fun c' _ => hset c _ ?_ c'⟩
      rfl
    · cases hexec
      exact ⟨fun _ _ => rfl, fun _ _ => rfl⟩
  | _ =>
    obtain ⟨out, -, heq⟩ := Option.map_eq_some_iff.mp hexec
    cases heq
    exact ⟨fun _ _ => rfl, fun _ _ => rfl⟩

/-- What is known of the threads in every run. The loop of the server runs in one of them. -/
structure Shaking (this : RuntimePtr) (w : World hostSystem) (G : Tid → Stage) : Prop where
  follows : (handshakeDiscipline this).FollowsAtRest (fun g => g = .idle ∨ g = .server) (Shaken this)
    w G
  labelled : ∀ t f p, w.thread t = some (f, p) → (f = .bluetoothServerLoop ↔ (G t).OfServer)

theorem shaking_start {s : CommsState} (hs : s.JustStarted this) :
    Shaking this (World.quiet (Y := hostSystem) { client := s }) fun _ => .idle := by
  obtain ⟨runtime, hruntime, hlinks, -⟩ := hs.runtime
  refine ⟨⟨Discipline.follows_quiet ⟨runtime, hruntime, ?_, ?_⟩, fun _ _ => Or.inl rfl⟩,
    fun t f p hthread => (by cases hthread)⟩
  · show Owned s.sockets runtime.activeLinks _
    rw [hlinks, hs.sockets]
    exact ⟨Descriptors.Sane.nil, nofun, nofun, nofun, nofun⟩
  · rw [hlinks]
    exact ⟨fun _ _ => rfl, nofun, nofun, nofun, fun c hc => absurd rfl hc, nofun, nofun,
      fun _ _ hg => hg.elim, fun _ hg => hg.elim⟩

namespace Shaking

theorem next (h : Shaking this w G) {op : Op hostSystem} (hop : w.enabled op = true)
    (hcall : ∀ t f, op = .start t f → f.Shakes this) :
    Shaking this (w.next op) ((handshakeDiscipline this).track w G op) := by
  refine ⟨h.follows.next handshakes_sound handshakes_cover hop ?_, ?_⟩
  · cases op with
    | start t f => exact hcall t f rfl
    | run t e => exact fun _ _ _ => trivial
  · refine Discipline.track_labelled (D := handshakeDiscipline this)
      (R := fun f g => f = .bluetoothServerLoop ↔ g.OfServer) (fun f s => ?_)
      (fun _ _ _ _ _ _ hg => hg) (fun _ _ _ _ _ hg => hg)
      (fun f h g a x hg => hg.trans (ofServer_acted g a x).symm) h.labelled hop
    show f = .bluetoothServerLoop ↔
      (if f = .bluetoothServerLoop then Stage.starting else .idle).OfServer
    by_cases hf : f = .bluetoothServerLoop
    · simp [hf, Stage.OfServer]
    · simp [hf, Stage.OfServer]

/-- While the connection of a published link is established, a thread is about to close it. -/
theorem closing (h : Shaking this w G) (hup : Up this link w) (hest : Established link w) :
    ∃ u c, w.state.connectionOf link.link.socketFd = some c ∧ G u = .closing c := by
  obtain ⟨runtime, hruntime, -, hlink⟩ := hup.client
  obtain ⟨c, hc, haccepted⟩ := hest
  obtain ⟨runtime', hruntime', -, hwired⟩ := h.follows.invariant
  obtain rfl : runtime' = runtime := Option.some.inj (hruntime'.symm.trans hruntime)
  obtain ⟨c', hc', hreplied⟩ := hwired.linked link hlink
  obtain rfl : c' = c := Option.some.inj (hc'.symm.trans hc)
  rcases hwired.replied c' hreplied with hclosed | ⟨u, hu⟩
  · rw [haccepted] at hclosed
    cases hclosed
  · exact ⟨u, c', hc, hu⟩

/-- The connection of a published link is established while its close is the next step of the
server, and at no other time. -/
theorem established_iff_aboutToClose (h : Shaking this w G) (hup : Up this link w) :
    Established link w ↔ AboutToClose link w := by
  constructor
  · intro hest
    obtain ⟨u, c, hc, hu⟩ := h.closing hup hest
    have hbusy : w.thread u ≠ none := by
      intro hnone
      have hrest := h.follows.rest u hnone
      rw [hu] at hrest
      rcases hrest with hidle | hserver
      · cases hidle
      · cases hserver
    obtain ⟨⟨f, p⟩, hthread⟩ := Option.ne_none_iff_exists'.mp hbusy
    obtain rfl : f = .bluetoothServerLoop := (h.labelled u f p hthread).mpr (hu ▸ trivial)
    have hobeys := h.follows.toFollows.obeys hthread
    rw [hu] at hobeys
    -- Nothing but the close may be done at this stage.
    cases p with
    | pure r => cases hobeys.2
    | lock l m k => exact hobeys.1.elim
    | unlock l m k => exact hobeys.2.1.elim
    | call f k => cases hobeys.1.2
    | act a k =>
      have hmay := hobeys.1
      cases a with
      | client a =>
        cases a with
        | method runtime a => exact absurd trivial (not_ofServer hmay.2)
        | _ => exact hmay.elim
      | server a =>
        cases a with
        | close c' =>
          obtain rfl : c = c' := Option.some.inj hmay
          exact ⟨c, u, k, hc, hthread⟩
        | _ => cases hmay
  · rintro ⟨c, u, k, hc, hthread⟩
    obtain ⟨runtime, -, -, hwired⟩ := h.follows.invariant
    exact ⟨c, hc, hwired.held u c (h.follows.toFollows.obeys hthread).1⟩

/-- The next step of the server closes the connection of a published link. -/
theorem not_established (h : Shaking this w G) (hup : Up this link w) (hest : Established link w)
    (hop : w.enabled (.run t e) = true) (hserver : ServerSteps w (.run t e)) :
    ¬ Established link (w.next (.run t e)) := by
  obtain ⟨u, c, hc, hu⟩ := h.closing hup hest
  obtain ⟨p, hthread⟩ := hserver
  obtain ⟨runtime, -, -, hwired⟩ := h.follows.invariant
  have hof : (G t).OfServer := (h.labelled t _ p hthread).mp rfl
  have hclosing : (G t).Serves → G t = .closing c := by
    intro hserves
    rw [hwired.unique t u hserves (hu ▸ trivial), hu]
  have hserver : G t ≠ .server := by
    intro heq
    have hne := hclosing (heq ▸ trivial)
    rw [heq] at hne
    cases hne
  have hobeys := h.follows.toFollows.obeys hthread
  cases p with
  | pure r => exact absurd hobeys.2 hserver
  | lock l m k => exact hobeys.1.elim
  | unlock l m k => exact hobeys.2.1.elim
  | call f k => exact absurd hobeys.1.2 hserver
  | act a k =>
    have hmay := hobeys.1
    cases a with
    | client a =>
      cases a with
      | method runtime a => exact absurd hof (not_ofServer hmay.2)
      | _ => exact hmay.elim
    | server a =>
      cases a with
      | begin =>
        have hbegun := hwired.begun u (hu ▸ trivial)
        simp [World.enabled, hthread, Hosts.exec, Hosts.execServer, hbegun] at hop
      | stopRunning =>
        rw [show G t = .idle from hmay] at hof
        exact hof.elim
      | isRunning | openServer | bind | listen | accept | closeServer => exact absurd hmay hserver
      | recv c' | getsockname c' | send c' reply =>
        have heq : G t = .serving c' := hmay
        have hne := hclosing (heq ▸ trivial)
        rw [heq] at hne
        cases hne
      | close c' =>
        have hclient : (G t).client = some c' := hmay
        rw [hclosing (Stage.of_client hclient).1] at hclient
        cases hclient
        have hstate : (w.next (.run t e)).state =
            w.state.setConnection c { w.state.connections c with serverEnd := .closed } := by
          simp [World.next, hthread, Hosts.exec, Hosts.execServer]
        rintro ⟨x, hx, haccepted⟩
        rw [hstate] at hx haccepted
        obtain rfl : c = x := Option.some.inj (hc.symm.trans hx)
        simp [Hosts.setConnection] at haccepted

/-- Only the server closes the connection of a published link. -/
theorem established (h : Shaking this w G) (hup : Up this link w) (hest : Established link w)
    {op : Op hostSystem} (hop : w.enabled op = true) (hserver : ¬ ServerSteps w op) :
    Established link (w.next op) := by
  cases op with
  | start t f => exact hest
  | run t e =>
    have hran := World.ran hop
    generalize w.next (.run t e) = w' at hran
    cases hran with
    | done | lock | unlock | call => exact hest
    | @act f a k x s' hthread hexec =>
      have hof : ¬ (G t).OfServer := by
        intro hof
        obtain rfl := (h.labelled t f _ hthread).mpr hof
        exact hserver ⟨_, hthread⟩
      have hmay := (h.follows.toFollows.obeys hthread).1
      obtain ⟨runtime, hruntime, howned, hwired⟩ := h.follows.invariant
      obtain ⟨runtime', hruntime', -, hlink⟩ := hup.client
      obtain rfl : runtime = runtime' := Option.some.inj (hruntime.symm.trans hruntime')
      obtain ⟨c, hc, haccepted⟩ := hest
      cases a with
      | server a =>
        cases a with
        | stopRunning =>
          cases hexec
          exact ⟨c, hc, haccepted⟩
        | close c' => exact absurd (ofServer_of_serves (Stage.of_client hmay).1) hof
        | _ =>
          rw [show G t = _ from hmay] at hof
          exact absurd trivial hof
      | client a =>
        cases a with
        | method runtime a =>
          obtain ⟨rfl, hmay⟩ := hmay
          obtain ⟨hnames, hends⟩ := execClient_ends hmay hexec
          refine ⟨c, (hnames _ (howned.apart link hlink t)).trans hc, ?_⟩
          exact (hends c (hwired.named _ _ hc)).trans haccepted
        | _ => exact hmay.elim

end Shaking

end Handshakes

theorem established_iff {s : CommsState} (hs : s.JustStarted this)
    {before during : List (Op hostSystem)} (hcalls : Calls (HostCall.Shakes this) (before ++ during))
    (hlegal : (machine hostSystem).Legal (World.quiet { client := s }) (before ++ during))
    (hup : (machine hostSystem).Always (Up this link)
      ((machine hostSystem).run (World.quiet { client := s }) before) during) :
    (machine hostSystem).Always (Established link)
        ((machine hostSystem).run (World.quiet { client := s }) before) during ↔
      AboutToClose link ((machine hostSystem).run (World.quiet { client := s }) before) ∧
        (machine hostSystem).Each (fun w op => ¬ ServerSteps w op)
          ((machine hostSystem).run (World.quiet { client := s }) before) during := by
  have hstep : ∀ w op, (∃ G, Shaking this w G) → (w.enabled op = true ∧
      ∀ t f, op = .start t f → f.Shakes this) → ∃ G, Shaking this (w.next op) G :=
    fun w op ⟨G, hG⟩ hop => ⟨_, hG.next hop.1 hop.2⟩
  have heach := Machine.Each.and hlegal (hcalls.each _)
  obtain ⟨hbefore, hduring⟩ := (Machine.each_append _ _ _).mp heach
  have hG : ∃ G, Shaking this ((machine hostSystem).run (World.quiet { client := s }) before) G :=
    Machine.Each.invariant hstep hbefore ⟨_, shaking_start hs⟩
  generalize (machine hostSystem).run (World.quiet { client := s }) before = w at *
  have hiff : Established link w → ((machine hostSystem).Always (Established link) w during ↔
      (machine hostSystem).Each (fun w op => ¬ ServerSteps w op) w during) := by
    refine Machine.Each.always_iff_each (M := machine hostSystem) (I := fun w => ∃ G, Shaking this w G)
      (fun w op hG _ hop _ => hstep w op hG hop.1) ?_ (Machine.Each.and hduring hup.each) hG
    rintro w op ⟨G, hG⟩ hest ⟨⟨hop, -⟩, hup⟩
    refine ⟨fun hnext hserver => ?_, fun hserver => hG.established hup hest hop hserver⟩
    cases op with
    | start t f => exact hserver
    | run t e => exact hG.not_established hup hest hop hserver hnext
  obtain ⟨G, hshaking⟩ := hG
  have hclose := hshaking.established_iff_aboutToClose hup.head
  constructor
  · intro halways
    exact ⟨hclose.mp halways.head, (hiff halways.head).mp halways⟩
  · rintro ⟨habout, hserver⟩
    exact (hiff (hclose.mpr habout)).mpr hserver

/-- The server listens, a client connects, is answered and publishes its link. -/
def shakeHands : List (Op hostSystem) :=
  .start 0 .bluetoothServerLoop :: List.replicate 6 (.run 0 {}) ++
    .start 1 (.handshake 0 ⟨"aa"⟩) :: .run 1 { fd := 5 } :: List.replicate 3 (.run 1 {}) ++
    .run 0 { accepted := .client 0 } :: List.replicate 3 (.run 0 {}) ++ List.replicate 2 (.run 1 {})

def shakenLink : ActiveLink := bluetoothLink ⟨"aa"⟩ 5

/-- `Up` where it can be computed. -/
def isUp (this : RuntimePtr) (link : ActiveLink) (w : World hostSystem) : Bool :=
  w.state.running &&
    match w.state.client.runtimes.lookup this with
    | some runtime => runtime.running && decide (link ∈ runtime.activeLinks)
    | none => false

theorem up_of_isUp (h : isUp this link w = true) : Up this link w := by
  obtain ⟨hserver, hclient⟩ := Bool.and_eq_true_iff.mp h
  refine ⟨hserver, ?_⟩
  split at hclient
  · rename_i runtime hruntime
    obtain ⟨hrunning, hlink⟩ := Bool.and_eq_true_iff.mp hclient
    exact ⟨runtime, hruntime, hrunning, of_decide_eq_true hlink⟩
  · cases hclient

theorem shakenLink_up : (machine hostSystem).Always (Up 0 shakenLink)
    ((machine hostSystem).run (World.quiet { client := .startedWith {} }) shakeHands)
    [.run 1 {}, .run 0 {}] := by
  have hup : (machine hostSystem).Always (fun w => isUp 0 shakenLink w = true)
      ((machine hostSystem).run (World.quiet { client := .startedWith {} }) shakeHands)
      [.run 1 {}, .run 0 {}] := by decide +kernel
  exact hup.mono fun _ => up_of_isUp

theorem shakes_shakeHands : Calls (HostCall.Shakes 0) (shakeHands ++ [.run 1 {}, .run 0 {}]) := by
  intro t f hmem
  simp [shakeHands] at hmem
  rcases hmem with ⟨-, rfl⟩ | ⟨-, rfl⟩ <;> trivial

/-- The thread of the handshake goes on, and then that of the server. -/
theorem established_iff_server_steps : (machine hostSystem).Always (Established shakenLink)
      ((machine hostSystem).run (World.quiet { client := .startedWith {} }) shakeHands)
      [.run 1 {}, .run 0 {}] ↔
    AboutToClose shakenLink
        ((machine hostSystem).run (World.quiet { client := .startedWith {} }) shakeHands) ∧
      (machine hostSystem).Each (fun w op => ¬ ServerSteps w op)
        ((machine hostSystem).run (World.quiet { client := .startedWith {} }) shakeHands)
        [.run 1 {}, .run 0 {}] :=
  established_iff (CommsState.justStarted_startedWith {}) shakes_shakeHands (by decide +kernel)
    shakenLink_up

/-- The connection of a published link stays established while both runtimes run. -/
def StaysEstablished : Prop :=
  ∀ (this : RuntimePtr) (link : ActiveLink) (s : CommsState), s.JustStarted this →
    ∀ before during : List (Op hostSystem), Calls (HostCall.Shakes this) (before ++ during) →
      (machine hostSystem).Legal (World.quiet { client := s }) (before ++ during) →
      (machine hostSystem).Always (Up this link)
        ((machine hostSystem).run (World.quiet { client := s }) before) during →
      (machine hostSystem).Always (Established link)
        ((machine hostSystem).run (World.quiet { client := s }) before) during

theorem published_link_closed : ¬ StaysEstablished := by
  intro h
  have hlast := (h 0 shakenLink _ (CommsState.justStarted_startedWith {}) shakeHands _
    shakes_shakeHands (by decide +kernel) shakenLink_up).last
  obtain ⟨c, hc, haccepted⟩ := hlast
  have hof : ((machine hostSystem).run
      ((machine hostSystem).run (World.quiet { client := .startedWith {} }) shakeHands)
      [.run 1 {}, .run 0 {}]).state.connectionOf 5 = some 0 := by decide +kernel
  have hclosed : (((machine hostSystem).run
      ((machine hostSystem).run (World.quiet { client := .startedWith {} }) shakeHands)
      [.run 1 {}, .run 0 {}]).state.connections 0).serverEnd = .closed := by decide +kernel
  obtain rfl : 0 = c := Option.some.inj (hof.symm.trans hc)
  rw [hclosed] at haccepted
  cases haccepted

end SensorLib.Comms
