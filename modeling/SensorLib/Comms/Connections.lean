import SensorLib.Comms.Handshakes

/-! # The connections of two hosts

Each socket of the client is with one thread or one link. Only the thread of the
server acts on the other ends.
-/

namespace SensorLib.Comms

open Threads Descriptors

namespace Handshakes

variable {T : Table} {links : List ActiveLink} {link : ActiveLink} {fds : Tid → Option Int}
  {fd : Int} {s s' : Hosts} {G : Tid → Stage} {g : Stage} {t : Tid} {c : ConnectionId}
  {this : RuntimePtr}

/-! ## The sockets of the client -/

/-- No two of the threads and the links have one socket. -/
structure Owned (T : Table) (links : List ActiveLink) (fds : Tid → Option Int) : Prop where
  sane : Sane T
  isLive : ∀ t fd, fds t = some fd → fd ∈ live T
  alone : ∀ t u fd, fds t = some fd → fds u = some fd → t = u
  linked : ∀ link ∈ links, link.link.socketFd ∈ live T
  apart : ∀ link ∈ links, ∀ t, fds t ≠ some link.link.socketFd

namespace Owned

theorem opened (h : Owned T links fds) (hfd : 0 ≤ fd) (hnew : fd ∉ live T) :
    Owned (opened T fd) links (Function.update fds t (some fd)) where
  sane := h.sane.opened hfd hnew
  isLive u n hn := by
    rw [live_opened, List.mem_cons]
    by_cases hu : u = t
    · subst hu
      rw [Function.update_self, Option.some.injEq] at hn
      exact Or.inl hn.symm
    · rw [Function.update_of_ne hu] at hn
      exact Or.inr (h.isLive u n hn)
  alone u v n hu hv := by
    have hother : ∀ x, x ≠ t → Function.update fds t (some fd) x = some n → n ≠ fd := by
      intro x hx hn heq
      rw [Function.update_of_ne hx] at hn
      exact hnew (heq ▸ h.isLive x n hn)
    have hself : ∀ x, x = t → Function.update fds t (some fd) x = some n → n = fd := by
      rintro x rfl hn
      rw [Function.update_self, Option.some.injEq] at hn
      exact hn.symm
    by_cases hut : u = t <;> by_cases hvt : v = t
    · exact hut.trans hvt.symm
    · exact absurd (hself u hut hu) (hother v hvt hv)
    · exact absurd (hself v hvt hv) (hother u hut hu)
    · rw [Function.update_of_ne hut] at hu
      rw [Function.update_of_ne hvt] at hv
      exact h.alone u v n hu hv
  linked link hlink := List.mem_cons_of_mem _ (h.linked link hlink)
  apart link hlink u hn := by
    by_cases hu : u = t
    · subst hu
      rw [Function.update_self, Option.some.injEq] at hn
      exact hnew (hn ▸ h.linked link hlink)
    · rw [Function.update_of_ne hu] at hn
      exact h.apart link hlink u hn

/-- A thread has no socket any more. -/
theorem dropped (h : Owned T links fds) : Owned T links (Function.update fds t none) := by
  have hold : ∀ u n, Function.update fds t none u = some n → fds u = some n := by
    intro u n hn
    by_cases hu : u = t
    · subst hu
      rw [Function.update_self] at hn
      cases hn
    · rwa [Function.update_of_ne hu] at hn
  exact ⟨h.sane, fun u n hn => h.isLive u n (hold u n hn),
    fun u v n hu hv => h.alone u v n (hold u n hu) (hold v n hv), h.linked,
    fun link hlink u hn => h.apart link hlink u (hold u _ hn)⟩

theorem closed (h : Owned T links fds) (ht : fds t = some fd) :
    Owned (closed fd T) links (Function.update fds t none) := by
  have hlive := h.sane.live_closed (h.isLive t fd ht)
  refine ⟨h.sane.closed (h.isLive t fd ht), fun u n hn => ?_, h.dropped.alone, fun link hlink => ?_,
    h.dropped.apart⟩
  · refine (hlive n).mpr ⟨h.dropped.isLive u n hn, ?_⟩
    rintro rfl
    have hu : u ≠ t := by
      rintro rfl
      rw [Function.update_self] at hn
      cases hn
    rw [Function.update_of_ne hu] at hn
    exact hu (h.alone u t n hn ht)
  · exact (hlive _).mpr ⟨h.linked link hlink, fun heq => h.apart link hlink t (heq ▸ ht)⟩

theorem published (h : Owned T links fds) (ht : fds t = some link.link.socketFd) :
    Owned T (links ++ [link]) (Function.update fds t none) := by
  refine ⟨h.sane, h.dropped.isLive, h.dropped.alone, fun link' hlink' => ?_, fun link' hlink' u hn => ?_⟩
  · rcases List.mem_append.mp hlink' with hlink' | hlink'
    · exact h.linked link' hlink'
    · obtain rfl := List.mem_singleton.mp hlink'
      exact h.isLive t _ ht
  · rcases List.mem_append.mp hlink' with hlink' | hlink'
    · exact h.dropped.apart link' hlink' u hn
    · obtain rfl := List.mem_singleton.mp hlink'
      have hu : u ≠ t := by
        rintro rfl
        rw [Function.update_self] at hn
        cases hn
      rw [Function.update_of_ne hu] at hn
      exact hu (h.alone u t _ hn ht)

end Owned

/-! ## The connections -/

/-- The client of the socket has an answer. -/
def Hosts.Answers (s : Hosts) (fd : Int) : Prop :=
  ∃ c, s.connectionOf fd = some c ∧ (s.connections c).replied = true

structure Wired (s : Hosts) (links : List ActiveLink) (G : Tid → Stage) : Prop where
  unmade : ∀ c, s.made ≤ c → s.connections c = {}
  named : ∀ fd c, s.connectionOf fd = some c → c < s.made
  answered : ∀ t fd, G t = .answered fd → Hosts.Answers s fd
  linked : ∀ link ∈ links, Hosts.Answers s link.link.socketFd
  inFlight : ∀ c, (s.connections c).toClient ≠ [] → (s.connections c).replied = true
  replied : ∀ c, (s.connections c).replied = true →
    (s.connections c).serverEnd = .closed ∨ ∃ t, G t = .closing c
  held : ∀ t c, (G t).client = some c → (s.connections c).serverEnd = .accepted
  unique : ∀ t u, (G t).Serves → (G u).Serves → t = u
  begun : ∀ t, (G t).Serves → s.begun = true

/-- Messages are taken, and others sent to the server. -/
structure Connection.Carries (x y : Connection) : Prop where
  serverEnd : y.serverEnd = x.serverEnd
  replied : y.replied = x.replied
  toClient : y.toClient ≠ [] → x.toClient ≠ []

theorem Connection.Carries.refl (x : Connection) : Connection.Carries x x := ⟨rfl, rfl, id⟩

/-- The thread stays a client, or the server with the same connection. -/
structure Stage.Stays (g g' : Stage) : Prop where
  client : g'.client = g.client
  serves : g'.Serves → g.Serves
  answered : ∀ fd, g' = .answered fd → g = .answered fd
  closing : ∀ c, g = .closing c → g' = .closing c

theorem Stage.Stays.refl (g : Stage) : Stage.Stays g g := ⟨rfl, id, fun _ => id, fun _ => id⟩

namespace Wired

theorem answers_of (hconnections : ∀ c, Connection.Carries (s.connections c) (s'.connections c))
    (hof : s'.connectionOf = s.connectionOf) (h : Hosts.Answers s fd) : Hosts.Answers s' fd := by
  obtain ⟨c, hc, hreplied⟩ := h
  exact ⟨c, hof ▸ hc, (hconnections c).replied.trans hreplied⟩

theorem carry (h : Wired s links G)
    (hconnections : ∀ c, Connection.Carries (s.connections c) (s'.connections c))
    (hunmade : ∀ c, s'.made ≤ c → s'.connections c = {}) (hmade : s'.made = s.made)
    (hof : s'.connectionOf = s.connectionOf) (hbegun : s'.begun = s.begun)
    (hg : Stage.Stays (G t) g) :
    Wired s' links (Function.update G t g) := by
  have hclient : ∀ u, (Function.update G t g u).client = (G u).client := by
    intro u
    by_cases hu : u = t
    · subst hu
      rw [Function.update_self, hg.client]
    · rw [Function.update_of_ne hu]
  have hserves : ∀ u, (Function.update G t g u).Serves → (G u).Serves := by
    intro u
    by_cases hu : u = t
    · subst hu
      rw [Function.update_self]
      exact hg.serves
    · rw [Function.update_of_ne hu]
      exact id
  refine ⟨hunmade, fun n x hx => ?_, fun u fd hu => ?_, fun link hlink => ?_, fun x hx => ?_,
    fun x hx => ?_, fun u x hu => ?_, fun u v hu hv => h.unique u v (hserves u hu) (hserves v hv),
    fun u hu => hbegun.trans (h.begun u (hserves u hu))⟩
  · rw [hmade]
    exact h.named n x (hof ▸ hx)
  · by_cases hut : u = t
    · subst hut
      rw [Function.update_self] at hu
      exact answers_of hconnections hof (h.answered u fd (hg.answered fd hu))
    · rw [Function.update_of_ne hut] at hu
      exact answers_of hconnections hof (h.answered u fd hu)
  · exact answers_of hconnections hof (h.linked link hlink)
  · exact (hconnections x).replied.trans (h.inFlight x ((hconnections x).toClient hx))
  · rw [(hconnections x).replied] at hx
    rw [(hconnections x).serverEnd]
    refine (h.replied x hx).imp_right fun ⟨u, hu⟩ => ⟨u, ?_⟩
    by_cases hut : u = t
    · subst hut
      rw [Function.update_self]
      exact hg.closing x hu
    · rw [Function.update_of_ne hut, hu]
  · rw [hclient] at hu
    rw [(hconnections x).serverEnd]
    exact h.held u x hu

theorem carryOne (h : Wired s links G) {y : Connection}
    (hy : Connection.Carries (s.connections c) y) (hc : c < s.made) :
    Wired (s.setConnection c y) links G := by
  have hrest : ∀ x, x ≠ c → (s.setConnection c y).connections x = s.connections x :=
    fun x hx => Function.update_of_ne hx _ _
  have hcarry : Wired (s.setConnection c y) links (Function.update G 0 (G 0)) :=
    h.carry (fun x => ?_) (fun x hx => ?_) rfl rfl rfl (Stage.Stays.refl _)
  · rwa [Function.update_eq_self] at hcarry
  · by_cases hxc : x = c
    · subst hxc
      rw [show (s.setConnection x y).connections x = y from Function.update_self _ _ _]
      exact hy
    · rw [hrest x hxc]
      exact Connection.Carries.refl _
  · have hlt : c < x := lt_of_lt_of_le hc hx
    rw [hrest x hlt.ne']
    exact h.unmade x hx

/-- A socket that nobody has an answer on is connected. -/
theorem connect (h : Wired s links G) (hasked : ∀ t, G t ≠ .answered fd)
    (hlinks : ∀ link ∈ links, link.link.socketFd ≠ fd) : Wired (s.connect fd) links G := by
  have hold : ∀ x, x ≠ s.made → (s.connect fd).connections x = s.connections x :=
    fun x hx => Function.update_of_ne hx _ _
  have hnew : (s.connect fd).connections s.made = {} := Function.update_self _ _ _
  have hmade : ∀ x, (s.connections x).replied = true → x ≠ s.made := by
    rintro x hx rfl
    rw [h.unmade _ le_rfl] at hx
    cases hx
  have hanswers : ∀ n, n ≠ fd → Hosts.Answers s n → Hosts.Answers (s.connect fd) n := by
    rintro n hn ⟨x, hof, hx⟩
    refine ⟨x, (Function.update_of_ne hn _ _).trans hof, ?_⟩
    rw [hold x (hmade x hx)]
    exact hx
  have hreplied : ∀ x, ((s.connect fd).connections x).replied = true →
      x ≠ s.made ∧ (s.connections x).replied = true := by
    intro x hx
    by_cases hxm : x = s.made
    · subst hxm
      rw [hnew] at hx
      cases hx
    · rw [hold x hxm] at hx
      exact ⟨hxm, hx⟩
  refine ⟨fun x hx => ?_, fun n x hx => ?_, fun u n hu => ?_, fun link hlink => ?_, fun x hx => ?_,
    fun x hx => ?_, fun u x hu => ?_, h.unique, h.begun⟩
  · have hlt : s.made < x := hx
    rw [hold x hlt.ne']
    exact h.unmade x hlt.le
  · by_cases hn : n = fd
    · subst hn
      rw [show (s.connect n).connectionOf n = some s.made from Function.update_self _ _ _] at hx
      cases hx
      exact Nat.lt_succ_self _
    · rw [show (s.connect fd).connectionOf n = s.connectionOf n from Function.update_of_ne hn _ _] at hx
      exact Nat.lt_succ_of_lt (h.named n x hx)
  · refine hanswers n ?_ (h.answered u n hu)
    rintro rfl
    exact hasked u hu
  · exact hanswers _ (hlinks link hlink) (h.linked link hlink)
  · by_cases hxm : x = s.made
    · subst hxm
      rw [hnew] at hx
      exact absurd rfl hx
    · rw [hold x hxm] at hx ⊢
      exact h.inFlight x hx
  · obtain ⟨hxm, hx⟩ := hreplied x hx
    rw [hold x hxm]
    exact h.replied x hx
  · have hxm : x ≠ s.made := by
      rintro rfl
      have hend := h.held u _ hu
      rw [h.unmade _ le_rfl] at hend
      cases hend
    rw [hold x hxm]
    exact h.held u x hu

/-- A client has received an answer. -/
theorem learn (h : Wired s links G) (ht : G t = .asking fd) (hanswers : Hosts.Answers s fd) :
    Wired s links (Function.update G t (.answered fd)) := by
  have hother : ∀ u g, Function.update G t (.answered fd) u = g → (∀ n, g ≠ .answered n) →
      G u = g := by
    intro u g hu hg
    by_cases hut : u = t
    · subst hut
      rw [Function.update_self] at hu
      exact absurd hu.symm (hg fd)
    · rwa [Function.update_of_ne hut] at hu
  have hclient : ∀ u, (Function.update G t (.answered fd) u).client = (G u).client := by
    intro u
    by_cases hut : u = t
    · subst hut
      rw [Function.update_self, ht]
      rfl
    · rw [Function.update_of_ne hut]
  have hserves : ∀ u, (Function.update G t (.answered fd) u).Serves → (G u).Serves := by
    intro u hu
    by_cases hut : u = t
    · subst hut
      rw [Function.update_self] at hu
      exact hu.elim
    · rwa [Function.update_of_ne hut] at hu
  refine ⟨h.unmade, h.named, fun u n hu => ?_, h.linked, h.inFlight, fun x hx => ?_,
    fun u x hu => ?_, fun u v hu hv => h.unique u v (hserves u hu) (hserves v hv),
    fun u hu => h.begun u (hserves u hu)⟩
  · by_cases hut : u = t
    · subst hut
      rw [Function.update_self] at hu
      cases hu
      exact hanswers
    · rw [Function.update_of_ne hut] at hu
      exact h.answered u n hu
  · refine (h.replied x hx).imp_right fun ⟨u, hu⟩ => ⟨u, ?_⟩
    rw [Function.update_of_ne, hu]
    rintro rfl
    rw [ht] at hu
    cases hu
  · exact h.held u x ((hclient u).symm.trans hu)

theorem published (h : Wired s links G) (ht : G t = .answered link.link.socketFd) :
    Wired s (links ++ [link]) (Function.update G t .idle) := by
  have hanswers := h.answered t _ ht
  have hstays : Stage.Stays (G t) .idle := by
    rw [ht]
    exact ⟨rfl, nofun, nofun, nofun⟩
  have hcarry := h.carry (fun c => Connection.Carries.refl _) h.unmade rfl rfl rfl hstays
  refine ⟨hcarry.unmade, hcarry.named, hcarry.answered, fun link' hlink' => ?_, hcarry.inFlight, hcarry.replied,
    hcarry.held, hcarry.unique, hcarry.begun⟩
  rcases List.mem_append.mp hlink' with hlink' | hlink'
  · exact h.linked link' hlink'
  · obtain rfl := List.mem_singleton.mp hlink'
    exact hanswers

/-- The loop of the server begins, once. -/
theorem begin (h : Wired s links G) (hbegun : s.begun = false) (ht : G t = .starting) :
    Wired { s with begun := true } links (Function.update G t .server) := by
  have hnobody : ∀ u, ¬ (G u).Serves := by
    intro u hu
    rw [h.begun u hu] at hbegun
    cases hbegun
  have hother : ∀ u, u ≠ t → Function.update G t .server u = G u :=
    fun u hu => Function.update_of_ne hu _ _
  have hself : Function.update G t .server t = .server := Function.update_self _ _ _
  have hserves : ∀ u, (Function.update G t .server u).Serves → u = t := by
    intro u hu
    by_contra hut
    rw [hother u hut] at hu
    exact hnobody u hu
  refine ⟨h.unmade, h.named, fun u n hu => ?_, h.linked, h.inFlight, fun x hx => ?_,
    fun u x hu => ?_, fun u v hu hv => (hserves u hu).trans (hserves v hv).symm, fun _ _ => rfl⟩
  · by_cases hut : u = t
    · subst hut
      rw [hself] at hu
      cases hu
    · rw [hother u hut] at hu
      exact h.answered u n hu
  · refine (h.replied x hx).imp_right fun ⟨u, hu⟩ => ⟨u, ?_⟩
    rw [hother, hu]
    rintro rfl
    rw [ht] at hu
    cases hu
  · by_cases hut : u = t
    · subst hut
      rw [hself] at hu
      cases hu
    · rw [hother u hut] at hu
      exact h.held u x hu

/-- The server acts on one of its connections. -/
theorem serve (h : Wired s links G) {y : Connection} (ht : (G t).Serves) (hg : g.Serves)
    (hmade : c < s.made) (hreplied : (s.connections c).replied = true → y.replied = true)
    (hflight : y.toClient ≠ [] → y.replied = true)
    (hclosing : y.replied = true → y.serverEnd = .closed ∨ g = .closing c)
    (hclient : ∀ x, g.client = some x → x = c ∧ y.serverEnd = .accepted)
    (hother : ∀ x, G t = .closing x → x = c) :
    Wired (s.setConnection c y) links (Function.update G t g) := by
  have hself : (s.setConnection c y).connections c = y := Function.update_self _ _ _
  have hrest : ∀ x, x ≠ c → (s.setConnection c y).connections x = s.connections x :=
    fun x hx => Function.update_of_ne hx _ _
  have hanswers : ∀ n, Hosts.Answers s n → Hosts.Answers (s.setConnection c y) n := by
    rintro n ⟨x, hof, hx⟩
    refine ⟨x, hof, ?_⟩
    by_cases hxc : x = c
    · subst hxc
      rw [hself]
      exact hreplied hx
    · rw [hrest x hxc]
      exact hx
  have hserves : ∀ u, (Function.update G t g u).Serves → u = t := by
    intro u hu
    by_contra hut
    rw [Function.update_of_ne hut] at hu
    exact hut (h.unique u t hu ht)
  refine ⟨fun x hx => ?_, h.named, fun u n hu => ?_,
    fun link hlink => hanswers _ (h.linked link hlink),
    fun x hx => ?_, fun x hx => ?_, fun u x hu => ?_,
    fun u v hu hv => (hserves u hu).trans (hserves v hv).symm,
    fun u hu => h.begun t ht⟩
  · have hxc : x ≠ c := (lt_of_lt_of_le hmade hx).ne'
    rw [hrest x hxc]
    exact h.unmade x hx
  · by_cases hut : u = t
    · subst hut
      rw [Function.update_self] at hu
      rw [hu] at hg
      exact hg.elim
    · rw [Function.update_of_ne hut] at hu
      exact hanswers n (h.answered u n hu)
  · by_cases hxc : x = c
    · subst hxc
      rw [hself] at hx ⊢
      exact hflight hx
    · rw [hrest x hxc] at hx ⊢
      exact h.inFlight x hx
  · by_cases hxc : x = c
    · subst hxc
      rw [hself] at hx ⊢
      exact (hclosing hx).imp_right fun heq => ⟨t, by rw [Function.update_self, heq]⟩
    · rw [hrest x hxc] at hx ⊢
      refine (h.replied x hx).imp_right fun ⟨u, hu⟩ => ?_
      obtain rfl : u = t := h.unique u t (hu ▸ trivial) ht
      exact absurd (hother x hu) hxc
  · have hut : u = t := by
      refine hserves u ?_
      cases hstage : Function.update G t g u with
      | serving | closing => trivial
      | _ =>
        rw [hstage] at hu
        cases hu
    subst hut
    rw [Function.update_self] at hu
    obtain ⟨rfl, haccepted⟩ := hclient x hu
    rw [hself]
    exact haccepted

end Wired

/-! ## Steps -/

def Shaken (this : RuntimePtr) (s : Hosts) (_ : Tid → Held hostSignature) (G : Tid → Stage) : Prop :=
  ∃ runtime, s.client.runtimes.lookup this = some runtime ∧
    Owned s.client.sockets runtime.activeLinks (fun t => (G t).fd) ∧ Wired s runtime.activeLinks G

variable {H : Tid → Held hostSignature} {e : HostChoice} {runtime runtime' : CommsRuntime}

theorem fds_update : (fun u => (Function.update G t g u).fd) =
    Function.update (fun u => (G u).fd) t g.fd :=
  funext fun u => Function.apply_update (fun _ => Stage.fd) G t g u

theorem Stage.Stays.ask : Stage.Stays .idle (.asking fd) := ⟨rfl, nofun, nofun, nofun⟩

/-- The socket of the client is no longer needed. -/
theorem Stage.Stays.leave (hg : g.fd = some fd) : Stage.Stays g .idle := by
  cases g with
  | asking | answered => exact ⟨rfl, nofun, nofun, nofun⟩
  | _ => cases hg

/-- Only the client process changes, and not its links. -/
theorem Shaken.client {client : CommsState} (hruntime : client.runtimes.lookup this = some runtime')
    (hlinks : runtime'.activeLinks = runtime.activeLinks)
    (howned : Owned client.sockets runtime.activeLinks (fun u => (Function.update G t g u).fd))
    (hwired : Wired s runtime.activeLinks G) (hstays : Stage.Stays (G t) g) :
    Shaken this { s with client } H (Function.update G t g) :=
  ⟨runtime', hruntime, hlinks ▸ howned,
    hlinks ▸ hwired.carry (fun _ => Connection.Carries.refl _) hwired.unmade rfl rfl rfl hstays⟩

/-- Only the connections change, and what the server knows of them. -/
theorem Shaken.rewire (h : Shaken this s H G) (hclient : s'.client = s.client)
    (hfd : g.fd = (G t).fd)
    (hwired : ∀ links, Owned s.client.sockets links (fun t => (G t).fd) → Wired s links G →
      Wired s' links (Function.update G t g)) : Shaken this s' H (Function.update G t g) := by
  obtain ⟨runtime, hruntime, howned, hold⟩ := h
  refine ⟨runtime, hclient ▸ hruntime, ?_, hwired _ howned hold⟩
  rw [hclient, fds_update, hfd, Function.update_eq_self]
  exact howned

theorem shaken_client (h : Shaken this s H G) {a : RuntimeAct} {x : a.Answer}
    (hmay : MayActClient (G t) a) (hexec : s.execClient e (.method this a) = some (x, s')) :
    Shaken this s' H (Function.update G t (acted (G t) (.client (.method this a)) x)) := by
  obtain ⟨runtime, hruntime, howned, hwired⟩ := id h
  have hkept : Owned s.client.sockets runtime.activeLinks
      (fun u => (Function.update G t (G t) u).fd) := by
    rw [Function.update_eq_self]
    exact howned
  cases a with
  | socket =>
    have hidle : G t = .idle := hmay
    simp only [Hosts.execClient, CommsState.exec, hruntime, CommsState.execMethod] at hexec
    split at hexec
    · rename_i hfresh
      cases hexec
      have hstage : acted (G t) (.client (.method this .socket)) e.fd =
          if e.fd < 0 then .idle else .asking e.fd := by
        rw [hidle]
        rfl
      rw [hstage]
      by_cases hneg : e.fd < 0
      · simp only [if_pos hneg]
        rw [hidle] at hkept
        exact Shaken.client hruntime rfl hkept hwired (hidle ▸ Stage.Stays.refl _)
      · simp only [if_neg hneg]
        refine Shaken.client hruntime rfl ?_ hwired (hidle ▸ Stage.Stays.ask)
        have hnew := hfresh.resolve_left fun heq => hneg (heq ▸ by decide)
        rw [fds_update]
        exact howned.opened hnew.1 hnew.2
    · cases hexec
  | setRemote socketFd address =>
    have hasking : G t = .asking socketFd := hmay
    have hstage : ∀ x, acted (G t) (.client (.method this (.setRemote socketFd address))) x = G t := by
      rw [hasking]
      exact fun _ => rfl
    rw [hstage]
    simp only [Hosts.execClient, CommsState.exec, hruntime, CommsState.execMethod] at hexec
    cases hexec
    exact Shaken.client hruntime rfl hkept hwired (Stage.Stays.refl _)
  | connect socketFd =>
    have hasking : G t = .asking socketFd := hmay
    have hstage : ∀ x, acted (G t) (.client (.method this (.connect socketFd))) x = G t := by
      rw [hasking]
      exact fun _ => rfl
    rw [hstage]
    simp only [Hosts.execClient] at hexec
    split at hexec
    · split at hexec <;> cases hexec
      refine h.rewire rfl rfl fun links howned hwired => ?_
      rw [Function.update_eq_self]
      refine hwired.connect (fun u hu => ?_) fun link hlink heq => ?_
      · have hut : u = t := howned.alone u t socketFd (by rw [hu]; rfl) (by rw [hasking]; rfl)
        subst hut
        rw [hasking] at hu
        cases hu
      · refine howned.apart link hlink t ?_
        rw [hasking, heq]
        rfl
    · cases hexec
      exact h.rewire rfl rfl fun links howned hwired => by rwa [Function.update_eq_self]
  | send socketFd =>
    have hasking : G t = .asking socketFd := hmay
    have hstage : ∀ x, acted (G t) (.client (.method this (.send socketFd))) x = G t := by
      rw [hasking]
      exact fun _ => rfl
    rw [hstage]
    simp only [Hosts.execClient] at hexec
    split at hexec
    · obtain ⟨c, hc, hrun⟩ := Option.map_eq_some_iff.mp hexec
      cases hrun
      refine h.rewire rfl rfl fun links howned hwired => ?_
      rw [Function.update_eq_self]
      exact hwired.carryOne ⟨rfl, rfl, id⟩ (hwired.named _ _ hc)
    · cases hexec
      exact h.rewire rfl rfl fun links howned hwired => by rwa [Function.update_eq_self]
  | recv socketFd =>
    have hasking : G t = .asking socketFd := hmay
    simp only [Hosts.execClient] at hexec
    split at hexec
    · obtain ⟨c, hc, hrun⟩ := Option.bind_eq_some_iff.mp hexec
      unfold Hosts.recvReply at hrun
      split at hrun <;> cases hrun
      rename_i reply replies hreplies
      have hstage : ∀ x, acted (G t) (.client (.method this (.recv socketFd))) (some x) =
          .answered socketFd := by
        rw [hasking]
        exact fun _ => rfl
      have hflight : (s.connections c).toClient ≠ [] := by
        rw [hreplies]
        exact List.cons_ne_nil _ _
      rw [hstage]
      refine h.rewire rfl (hasking ▸ rfl) fun links howned hwired => ?_
      have hcarried := hwired.carryOne (c := c)
        (y := { s.connections c with toClient := replies }) ⟨rfl, rfl, fun _ => hflight⟩
        (hwired.named _ _ hc)
      refine hcarried.learn hasking ⟨c, hc, ?_⟩
      rw [show (s.setConnection c { s.connections c with toClient := replies }).connections c = _
        from Function.update_self _ _ _]
      exact hwired.inFlight c hflight
    · cases hexec
      have hstage : acted (G t) (.client (.method this (.recv socketFd))) none = G t := by
        rw [hasking]
        rfl
      rw [hstage]
      exact h.rewire rfl rfl fun links howned hwired => by rwa [Function.update_eq_self]
  | close socketFd =>
    have hstage : ∀ x, acted (G t) (.client (.method this (.close socketFd))) x = .idle := by
      cases hg : G t with
      | asking | answered => exact fun _ => rfl
      | _ =>
        rw [hg] at hmay
        cases hmay
    rw [hstage]
    simp only [Hosts.execClient, CommsState.exec, hruntime, CommsState.execMethod] at hexec
    cases hexec
    refine Shaken.client hruntime rfl ?_ hwired (Stage.Stays.leave hmay)
    rw [fds_update]
    exact howned.closed hmay
  | publish link =>
    have hanswered : G t = .answered link.link.socketFd := hmay
    have hfd : (G t).fd = some link.link.socketFd := hanswered ▸ rfl
    rw [hanswered]
    simp only [Hosts.execClient, CommsState.exec, hruntime, CommsState.execMethod] at hexec
    split at hexec
    · cases hexec
      refine Shaken.client hruntime rfl ?_ hwired (Stage.Stays.leave hfd)
      have hclosed : closeIfOpen s.client.sockets link.link.socketFd =
          closed link.link.socketFd s.client.sockets :=
        if_pos (howned.sane.nonneg_of_live (howned.isLive t _ hfd))
      rw [fds_update, hclosed]
      exact howned.closed hfd
    · cases hexec
      refine ⟨runtime.pushLink link, Finmap.lookup_insert _, ?_, ?_⟩
      · rw [fds_update]
        exact howned.published hfd
      · have hpublished := hwired.published hanswered
        exact ⟨hpublished.unmade, hpublished.named, hpublished.answered, hpublished.linked,
          hpublished.inFlight, hpublished.replied, hpublished.held, hpublished.unique,
          hpublished.begun⟩
  | linkDiscovered callback link =>
    have hidle : G t = .idle := hmay
    have hstage : ∀ x, acted (G t) (.client (.method this (.linkDiscovered callback link))) x =
        G t := by
      rw [hidle]
      exact fun _ => rfl
    rw [hstage]
    simp only [Hosts.execClient, CommsState.exec, hruntime, CommsState.execMethod] at hexec
    cases hexec
    exact Shaken.client hruntime rfl hkept hwired (Stage.Stays.refl _)
  | stopRunning =>
    have hidle : G t = .idle := hmay
    have hstage : ∀ x, acted (G t) (.client (.method this .stopRunning)) x = G t := by
      rw [hidle]
      exact fun _ => rfl
    rw [hstage]
    simp only [Hosts.execClient, CommsState.exec, hruntime, CommsState.execMethod] at hexec
    cases hexec
    exact Shaken.client (Finmap.lookup_insert _) rfl hkept hwired (Stage.Stays.refl _)
  | _ => exact hmay.elim

theorem Hosts.setConnection_self (s : Hosts) (c : ConnectionId) :
    s.setConnection c (s.connections c) = s := by
  rw [Hosts.setConnection, Function.update_eq_self]

/-- Nothing changes that the connections depend on. -/
theorem Shaken.keep (h : Shaken this s H G) (hclient : s'.client = s.client)
    (hconnections : s'.connections = s.connections) (hmade : s'.made = s.made)
    (hof : s'.connectionOf = s.connectionOf) (hbegun : s'.begun = s.begun) (hg : g = G t) :
    Shaken this s' H (Function.update G t g) := by
  subst hg
  refine h.rewire hclient rfl fun links _ hwired => hwired.carry (fun c => ?_) (fun c hc => ?_) hmade
    hof hbegun (Stage.Stays.refl _)
  · rw [hconnections]
    exact Connection.Carries.refl _
  · rw [hconnections]
    exact hwired.unmade c (hmade ▸ hc)

theorem Wired.client_lt (h : Wired s links G) (ht : (G t).client = some c) : c < s.made := by
  by_contra hge
  have hend := h.held t c ht
  rw [h.unmade c (Nat.not_lt.mp hge)] at hend
  cases hend

/-- The server closes the connection that it is concerned with. -/
theorem Stage.of_client (hg : g.client = some c) :
    g.Serves ∧ g.fd = none ∧ ∀ x, acted g (.server (.close c)) x = .server := by
  cases g with
  | serving | closing => exact ⟨trivial, rfl, fun _ => rfl⟩
  | _ => cases hg

theorem shaken_server (h : Shaken this s H G) {a : ServerAct} {x : a.Answer}
    (hmay : MayActServer (G t) a) (hexec : s.execServer e a = some (x, s')) :
    Shaken this s' H (Function.update G t (acted (G t) (.server a) x)) := by
  cases a with
  | begin =>
    have hstarting : G t = .starting := hmay
    simp only [Hosts.execServer] at hexec
    split at hexec <;> cases hexec
    rename_i hbegun
    have hfd : (G t).fd = none := by rw [hstarting]; rfl
    rw [hstarting]
    exact h.rewire rfl hfd.symm fun links _ hwired =>
      hwired.begin (Bool.not_eq_true _ ▸ hbegun) hstarting
  | stopRunning =>
    have hidle : G t = .idle := hmay
    cases hexec
    exact h.keep rfl rfl rfl rfl rfl (hidle ▸ rfl)
  | isRunning | openServer | bind | listen | closeServer =>
    have hserver : G t = .server := hmay
    cases hexec
    exact h.keep rfl rfl rfl rfl rfl (hserver ▸ rfl)
  | accept =>
    have hserver : G t = .server := hmay
    have hfd : (G t).fd = none := by rw [hserver]; rfl
    simp only [Hosts.execServer] at hexec
    split at hexec
    · rename_i c haccepted
      split at hexec <;> cases hexec
      rename_i hwaiting
      rw [hserver]
      refine h.rewire rfl hfd.symm fun links _ hwired => ?_
      have hnot : ¬ (s.connections c).replied = true := by
        intro hreplied
        rcases hwired.replied c hreplied with hclosed | ⟨u, hu⟩
        · rw [hwaiting.2] at hclosed
          cases hclosed
        · have hend := hwired.held u c (hu ▸ rfl)
          rw [hwaiting.2] at hend
          cases hend
      refine hwired.serve (hserver ▸ trivial) trivial hwaiting.1 id (hwired.inFlight c)
        (fun hreplied => absurd hreplied hnot) (fun x hx => ?_) fun x hx => ?_
      · cases hx
        exact ⟨rfl, rfl⟩
      · rw [hserver] at hx
        cases hx
    · rename_i accepted hnone
      cases hexec
      refine h.keep rfl rfl rfl rfl rfl ?_
      rw [hserver]
      cases haccepted : e.accepted with
      | client c => exact absurd haccepted (hnone c)
      | again | failed => rfl
  | recv c =>
    have hserving : G t = .serving c := hmay
    have hstage : ∀ x, acted (G t) (.server (.recv c)) x = G t := by
      rw [hserving]
      exact fun _ => rfl
    rw [hstage]
    simp only [Hosts.execServer] at hexec
    split at hexec
    · split at hexec <;> cases hexec
      refine h.rewire rfl rfl fun links _ hwired => ?_
      rw [Function.update_eq_self]
      exact hwired.carryOne ⟨rfl, rfl, id⟩ (hwired.client_lt (t := t) (hserving ▸ rfl))
    · cases hexec
      exact h.keep rfl rfl rfl rfl rfl rfl
  | getsockname c =>
    have hserving : G t = .serving c := hmay
    cases hexec
    exact h.keep rfl rfl rfl rfl rfl (hserving ▸ rfl)
  | send c reply =>
    have hserving : G t = .serving c := hmay
    have hclient : ∀ {y : Connection}, y.serverEnd = (s.connections c).serverEnd →
        ∀ links, Wired s links G → ∀ x, (Stage.closing c).client = some x →
          x = c ∧ y.serverEnd = .accepted := by
      intro y hy links hwired x hx
      cases hx
      exact ⟨rfl, hy.trans (hwired.held t c (hserving ▸ rfl))⟩
    have hother : ∀ x, G t = .closing x → x = c := by
      intro x hx
      rw [hserving] at hx
      cases hx
    have hfd : (G t).fd = none := by rw [hserving]; rfl
    rw [hserving]
    simp only [Hosts.execServer] at hexec
    split at hexec <;> cases hexec
    · refine h.rewire rfl hfd.symm fun links _ hwired => ?_
      exact hwired.serve (hserving ▸ trivial) trivial (hwired.client_lt (t := t) (hserving ▸ rfl))
        (fun _ => rfl) (fun _ => rfl) (fun _ => Or.inr rfl) (hclient rfl links hwired) hother
    · refine h.rewire rfl hfd.symm fun links _ hwired => ?_
      have hserved := hwired.serve (g := .closing c) (y := s.connections c) (hserving ▸ trivial) trivial
        (hwired.client_lt (t := t) (hserving ▸ rfl)) id (hwired.inFlight c) (fun _ => Or.inr rfl)
        (hclient rfl links hwired) hother
      rwa [Hosts.setConnection_self] at hserved
  | close c =>
    have hclient : (G t).client = some c := hmay
    obtain ⟨hserves, hfd, hstage⟩ := Stage.of_client hclient
    rw [hstage]
    cases hexec
    refine h.rewire rfl hfd.symm fun links _ hwired => ?_
    refine hwired.serve hserves trivial (hwired.client_lt hclient) id (hwired.inFlight c)
      (fun _ => Or.inl rfl) (fun x hx => by cases hx) fun x hx => ?_
    rw [hx] at hclient
    exact Option.some.inj hclient

theorem handshakes_sound : (handshakeDiscipline this).SoundAtRest
    (fun g => g = .idle ∨ g = .server) (Shaken this) fun _ _ _ _ _ => True where
  rest f r g hg := by
    by_cases hf : f = .bluetoothServerLoop
    · exact Or.inr (by simpa only [hf, if_true] using hg)
    · exact Or.inl (by simpa only [hf, if_false] using hg)
  start s H G t f h _ hrest := by
    have hstays : ∀ g, g = .idle ∨ g = .starting → Stage.Stays (G t) g ∧ g.fd = (G t).fd := by
      rcases hrest with heq | heq <;> rw [heq] <;> rintro _ (rfl | rfl) <;>
        exact ⟨⟨rfl, nofun, nofun, nofun⟩, rfl⟩
    have hinitial : (if f = .bluetoothServerLoop then Stage.starting else .idle) = .idle ∨
        (if f = .bluetoothServerLoop then Stage.starting else .idle) = .starting := by
      split
      · exact Or.inr rfl
      · exact Or.inl rfl
    obtain ⟨hkeeps, hfd⟩ := hstays _ hinitial
    exact h.rewire rfl hfd fun links _ hwired =>
      hwired.carry (fun _ => Connection.Carries.refl _) hwired.unmade rfl rfl rfl hkeeps
  lock s H G t f l m _ h _ hmay := hmay.elim
  unlock s H G t l m _ h _ hmay := hmay.elim
  call f p h g := by
    rintro ⟨rfl, rfl⟩
    exact obeys_rounds
  act s H G t f a e x s' _ h _ hmay hexec := by
    refine ⟨trivial, ?_⟩
    cases a with
    | server a => exact shaken_server h hmay hexec
    | client a =>
      cases a with
      | method runtime a =>
        obtain ⟨rfl, hmay⟩ := hmay
        exact shaken_client h hmay hexec
      | _ => exact hmay.elim

end Handshakes

end SensorLib.Comms
