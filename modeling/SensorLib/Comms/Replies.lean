import SensorLib.Comms.Datagrams
import SensorLib.Comms.ScanRuns

/-! # Replies of the UDP servers

A server replies to whatever arrives. The replies stay bounded by the hello
datagrams exactly when nothing else is on its way to a server in the beginning.
-/

namespace SensorLib.Comms

open Threads Runs

namespace Replies

/-- What a thread of a server has received and not yet replied to. -/
inductive Stage
  | client
  | server
  | answering (request : Datagram)
  deriving DecidableEq

def MayAct (g : Stage) : NetworkAct → Prop
  | .client _ (.method ..) => g = .client
  | .client .. => False
  | .server _ (.sendto request _) => g = .answering request
  | .server _ .localInterfaceMac => ∃ request, g = .answering request
  | .server .. => g = .server

def acted (g : Stage) : (a : NetworkAct) → a.Answer → Stage
  | .server _ .recvmsg, .datagram request => .answering request
  | .server _ (.sendto ..), _ => .server
  | _, _ => g

end Replies

open Replies

@[reducible] def replyDiscipline : Discipline networkSystem where
  Ghost := Stage
  initial
    | .udpServerLoop _, _ => .server
    | _, _ => .client
  mayLock _ _ _ _ _ := False
  locked _ _ g _ _ := g
  mayUnlock _ _ _ _ := False
  unlocked _ g _ _ := g
  mayAct _ _ g a := MayAct g a
  answers _ _ _ _ := True
  acted _ g a x := Replies.acted g a x
  mayCall _ p _ g := (∃ host, p = .udpServerRounds host) ∧ g = .server
  returns _ h g _ h' g' := h' = h ∧ g' = g
  finished _ _ g := g = .client ∨ g = .server

/-- The handshakes and the servers of the hosts. -/
def NetworkCall.Talks : NetworkCall → Prop
  | .handshake .. | .udpServerLoop _ => True
  | .client .. | .udpServerRounds _ => False

namespace Replies

variable {f : NetworkCall} {h : Held networkSignature} {host : String} {this : RuntimePtr}

/-! ## The programs -/

/-- A program of a runtime that only runs its methods. -/
def Methods {α : Type} (p : Program α) : Prop :=
  Prog.Only (S := commsSignature) (fun a : CommsAct => ∃ this a', a = .method this a') p

theorem keeps_onHost {α : Type} {p : Program α} (hp : Methods p) :
    replyDiscipline.Keeps f (onHost host p) h .client := by
  induction p with
  | pure a => exact ⟨rfl, rfl⟩
  | act a k ih =>
    obtain ⟨⟨this, a', rfl⟩, hk⟩ := hp
    exact ⟨rfl, fun x _ => ih x (hk x)⟩
  | lock | unlock | call => exact hp.elim

theorem methods_attemptHandshake (address : String) (link : Int → ActiveLink) :
    Methods (CommsRuntime.attemptHandshake this address link) := by
  have hgiveUp : ∀ socketFd, Methods (CommsRuntime.giveUp this socketFd) :=
    fun socketFd => ⟨⟨_, _, rfl⟩, fun _ => trivial⟩
  refine ⟨⟨_, _, rfl⟩, fun (socketFd : Int) => ?_⟩
  show Methods (if socketFd < 0 then _ else _)
  split
  · trivial
  · refine ⟨⟨_, _, rfl⟩, fun remote => ?_⟩
    cases remote with
    | false => exact hgiveUp socketFd
    | true =>
      refine ⟨⟨_, _, rfl⟩, fun connected => ?_⟩
      cases connected with
      | false => exact hgiveUp socketFd
      | true =>
        refine ⟨⟨_, _, rfl⟩, fun sent => ?_⟩
        cases sent with
        | false => exact hgiveUp socketFd
        | true =>
          refine ⟨⟨_, _, rfl⟩, fun received => ?_⟩
          cases received with
          | none => exact hgiveUp socketFd
          | some buffer =>
            show Methods (if startsWithReplyPrefix buffer then _ else _)
            split
            · trivial
            · exact hgiveUp socketFd

theorem methods_tryPeer (candidate : WifiCandidate) :
    Methods (CommsRuntime.tryPeer this true (.wifi candidate)) := by
  refine Prog.Only.bind (methods_attemptHandshake _ _) fun activeLink => ?_
  cases activeLink with
  | none => trivial
  | some activeLink =>
    refine ⟨⟨_, _, rfl⟩, fun callback => ?_⟩
    cases callback with
    | none => trivial
    | some callback => exact ⟨⟨_, _, rfl⟩, fun _ => trivial⟩

theorem keeps_rounds : replyDiscipline.Keeps f (udpServerRounds host) h .server := by
  have hagain : replyDiscipline.Keeps f
      (Prog.invoke (S := networkSignature) (.udpServerRounds host)) h .server :=
    ⟨⟨⟨host, rfl⟩, rfl⟩, fun _ _ _ hreturns => hreturns⟩
  refine ⟨rfl, fun running _ => ?_⟩
  cases running with
  | false => exact ⟨rfl, rfl⟩
  | true =>
    refine ⟨rfl, fun arrival _ => ?_⟩
    cases arrival with
    | datagram request => exact ⟨⟨request, rfl⟩, fun _ _ => ⟨rfl, fun _ _ => hagain⟩⟩
    | again => exact hagain
    | failed => exact ⟨rfl, rfl⟩

theorem keeps_udpServerLoop : replyDiscipline.Keeps f (udpServerLoop host) h .server := by
  have hclose : replyDiscipline.Keeps f (udp host .closeServer) h .server :=
    ⟨rfl, fun _ _ => ⟨rfl, rfl⟩⟩
  refine ⟨rfl, fun opened _ => ?_⟩
  cases opened with
  | false => exact ⟨rfl, rfl⟩
  | true =>
    refine ⟨rfl, fun bound _ => ?_⟩
    cases bound with
    | false => exact hclose
    | true =>
      refine ⟨⟨⟨host, rfl⟩, rfl⟩, ?_⟩
      rintro _ _ _ ⟨rfl, rfl⟩
      exact hclose

theorem replies_cover : replyDiscipline.Covers NetworkCall.Talks := by
  intro f s hf
  cases f with
  | handshake host this candidate =>
    refine Discipline.Keeps.bind (keeps_onHost (methods_tryPeer candidate)) fun _ => ?_
    exact ⟨rfl, Or.inl rfl⟩
  | udpServerLoop host =>
    exact keeps_udpServerLoop.mono fun _ _ _ ⟨hh, hg⟩ => ⟨hh, Or.inr hg⟩
  | client | udpServerRounds => exact hf.elim

end Replies

/-- A datagram to a server that carries the hello text, and does not come from a server. -/
def Datagram.Clean (d : Datagram) : Prop :=
  d.destination.port = kUdpPort → d.payload = kHelloPayload ∧ d.source.port ≠ kUdpPort

/-- The hosts with the datagrams that are in flight in the beginning. -/
def Network.start (clients : String → CommsState) (datagrams : List Datagram) : Network where
  clients
  inFlight := datagrams
  sent := datagrams

def toServers (datagrams : List Datagram) : Nat :=
  datagrams.countP fun d => d.destination.port = kUdpPort

def hellos (datagrams : List Datagram) : Nat :=
  datagrams.countP fun d => d.payload = kHelloPayload

namespace Replies

variable {s s' : Network} {H : Tid → Held networkSignature} {G : Tid → Stage} {g : Stage} {t : Tid}
  {d : Datagram} {e : NetworkChoice}

/-- The hello datagrams pay for the replies, for those to be sent and for what is on its way. -/
structure Steady (s : Network) (G : Tid → Stage) : Prop where
  clean : ∀ d ∈ s.inFlight, d.Clean
  ports : ∀ x socket, s.sockets x = some socket → socket.port ≠ kUdpPort
  answering : ∀ t d, G t = .answering d → d.payload = kHelloPayload ∧ d.source.port ≠ kUdpPort
  replies : ∀ d ∈ s.replies, d.payload = kHelloPayload
  ledger : ∃ busy : Finset Tid, (∀ t, t ∈ busy ↔ ∃ d, G t = .answering d) ∧
    s.replies.length + busy.card + toServers s.inFlight ≤ hellos s.sent

theorem toServers_erase (hd : d ∈ s.inFlight) (hport : d.destination.port = kUdpPort) :
    toServers (s.inFlight.erase d) + 1 = toServers s.inFlight := by
  have hpos : 0 < toServers s.inFlight :=
    List.countP_pos_iff.mpr ⟨d, hd, decide_eq_true hport⟩
  have herase : toServers (s.inFlight.erase d) = toServers s.inFlight - 1 := by
    rw [toServers, List.countP_erase, if_pos ⟨hd, decide_eq_true hport⟩]
    rfl
  omega

namespace Steady

theorem stage (h : Steady s G) (ht : ∀ d, G t ≠ .answering d) (hg : ∀ d, g ≠ .answering d) :
    Steady s (Function.update G t g) := by
  have hsame : ∀ u d, Function.update G t g u = .answering d ↔ G u = .answering d := by
    intro u d
    by_cases hu : u = t
    · subst hu
      rw [Function.update_self]
      exact iff_of_false (hg d) (ht d)
    · rw [Function.update_of_ne hu]
  obtain ⟨busy, hbusy, hle⟩ := h.ledger
  refine ⟨h.clean, h.ports, fun u d hu => h.answering u d ((hsame u d).mp hu), h.replies, busy,
    fun u => ?_, hle⟩
  rw [hbusy u]
  exact exists_congr fun d => (hsame u d).symm

/-- A datagram is lost, or taken by a client. -/
theorem take (h : Steady s G) (d : Datagram) : Steady (s.take d) G := by
  obtain ⟨busy, hbusy, hle⟩ := h.ledger
  have hcount : toServers (s.inFlight.erase d) ≤ toServers s.inFlight :=
    List.Sublist.countP_le List.erase_sublist
  refine ⟨fun x hx => h.clean x (List.mem_of_mem_erase hx), h.ports, h.answering, h.replies, busy,
    hbusy, ?_⟩
  show s.replies.length + busy.card + toServers (s.inFlight.erase d) ≤ hellos s.sent
  omega

/-- A server has received a datagram. -/
theorem receive (h : Steady s G) (hd : d ∈ s.inFlight) (hport : d.destination.port = kUdpPort)
    (ht : G t = .server) : Steady (s.take d) (Function.update G t (.answering d)) := by
  obtain ⟨busy, hbusy, hle⟩ := h.ledger
  have hclean := h.clean d hd hport
  have hcount := toServers_erase hd hport
  have hnotin : t ∉ busy := by
    intro hin
    obtain ⟨x, hx⟩ := (hbusy t).mp hin
    rw [ht] at hx
    cases hx
  refine ⟨(h.take d).clean, h.ports, fun u x hu => ?_, h.replies, insert t busy, fun u => ?_, ?_⟩
  · by_cases hut : u = t
    · subst hut
      rw [Function.update_self] at hu
      cases hu
      exact hclean
    · rw [Function.update_of_ne hut] at hu
      exact h.answering u x hu
  · rw [Finset.mem_insert]
    by_cases hut : u = t
    · subst hut
      rw [Function.update_self]
      exact iff_of_true (Or.inl rfl) ⟨d, rfl⟩
    · rw [Function.update_of_ne hut, hbusy u]
      exact ⟨fun hu => hu.resolve_left hut, Or.inr⟩
  · rw [Finset.card_insert_of_notMem hnotin]
    show s.replies.length + (busy.card + 1) + toServers (s.inFlight.erase d) ≤ hellos s.sent
    omega

/-- A client has sent the hello text. -/
theorem hello (h : Steady s G) {source destination : Endpoint} (hport : source.port ≠ kUdpPort) :
    Steady (s.send ⟨source, destination, kHelloPayload⟩) G := by
  obtain ⟨busy, hbusy, hle⟩ := h.ledger
  refine ⟨fun x hx => ?_, h.ports, h.answering, h.replies, busy, hbusy, ?_⟩
  · rcases List.mem_cons.mp hx with rfl | hx
    · exact fun _ => ⟨rfl, hport⟩
    · exact h.clean x hx
  · have hservers : toServers (⟨source, destination, kHelloPayload⟩ :: s.inFlight) ≤
        toServers s.inFlight + 1 := by
      rw [toServers, List.countP_cons]
      split
      · exact le_rfl
      · exact Nat.le_succ _
    have hhellos : hellos (⟨source, destination, kHelloPayload⟩ :: s.sent) = hellos s.sent + 1 :=
      List.countP_cons_of_pos (decide_eq_true rfl)
    show s.replies.length + busy.card +
      toServers (⟨source, destination, kHelloPayload⟩ :: s.inFlight) ≤
        hellos (⟨source, destination, kHelloPayload⟩ :: s.sent)
    omega

/-- A server is done with a datagram. -/
theorem done (h : Steady s G) (ht : G t = .answering d) : Steady s (Function.update G t .server) ∧
    ∃ busy : Finset Tid, (∀ u, u ∈ busy ↔ ∃ x, Function.update G t .server u = .answering x) ∧
      s.replies.length + 1 + busy.card + toServers s.inFlight ≤ hellos s.sent := by
  obtain ⟨busy, hbusy, hle⟩ := h.ledger
  have hin : t ∈ busy := (hbusy t).mpr ⟨d, ht⟩
  have hcard := Finset.card_erase_add_one hin
  have hrest : ∀ u, u ∈ busy.erase t ↔ ∃ x, Function.update G t .server u = .answering x := by
    intro u
    rw [Finset.mem_erase]
    by_cases hut : u = t
    · subst hut
      rw [Function.update_self]
      exact iff_of_false (fun hu => hu.1 rfl) fun ⟨x, hx⟩ => by cases hx
    · rw [Function.update_of_ne hut, hbusy u]
      exact ⟨fun hu => hu.2, fun hu => ⟨hut, hu⟩⟩
  have hle' : s.replies.length + 1 + (busy.erase t).card + toServers s.inFlight ≤ hellos s.sent := by
    omega
  refine ⟨⟨h.clean, h.ports, fun u x hu => ?_, h.replies, busy.erase t, hrest, by omega⟩,
    busy.erase t, hrest, hle'⟩
  by_cases hut : u = t
  · subst hut
    rw [Function.update_self] at hu
    cases hu
  · rw [Function.update_of_ne hut] at hu
    exact h.answering u x hu

/-- A server has replied to a client. -/
theorem reply (h : Steady s G) (ht : G t = .answering d) {source : Endpoint} (payload : String) :
    Steady { s.send ⟨source, d.source, payload⟩ with replies := d :: s.replies }
      (Function.update G t .server) := by
  obtain ⟨hpayload, hport⟩ := h.answering t d ht
  obtain ⟨hdone, busy, hbusy, hle⟩ := h.done ht
  refine ⟨fun x hx => ?_, hdone.ports, hdone.answering, fun x hx => ?_, busy, hbusy, ?_⟩
  · rcases List.mem_cons.mp hx with rfl | hx
    · exact fun heq => absurd heq hport
    · exact h.clean x hx
  · rcases List.mem_cons.mp hx with rfl | hx
    · exact hpayload
    · exact h.replies x hx
  · have hservers : toServers (⟨source, d.source, payload⟩ :: s.inFlight) = toServers s.inFlight :=
      List.countP_cons_of_neg (by simpa using hport)
    have hhellos : hellos s.sent ≤ hellos (⟨source, d.source, payload⟩ :: s.sent) :=
      List.Sublist.countP_le (List.sublist_cons_self _ _)
    show (d :: s.replies).length + busy.card + toServers (⟨source, d.source, payload⟩ :: s.inFlight) ≤
      hellos (⟨source, d.source, payload⟩ :: s.sent)
    rw [List.length_cons]
    omega

theorem setSocket (h : Steady s G) {host : String} {socketFd : Int} {socket : ClientSocket}
    (hport : socket.port ≠ kUdpPort) : Steady (s.setSocket host socketFd socket) G := by
  refine ⟨h.clean, fun x socket' hx => ?_, h.answering, h.replies, h.ledger⟩
  by_cases hxs : x = (host, socketFd)
  · subst hxs
    rw [show (s.setSocket host socketFd socket).sockets (host, socketFd) = some socket from
      Function.update_self _ _ _] at hx
    cases hx
    exact hport
  · rw [show (s.setSocket host socketFd socket).sockets x = s.sockets x from
      Function.update_of_ne hxs _ _] at hx
    exact h.ports x socket' hx

end Steady

theorem steady_client {host : String} {this : RuntimePtr} (h : Steady s G) {a : RuntimeAct}
    {x : a.Answer} (hexec : s.execClient host e (.method this a) = some (x, s')) : Steady s' G := by
  cases a with
  | setRemote socketFd address =>
    simp only [Network.execClient] at hexec
    split at hexec <;> cases hexec
    · exact h.setSocket (show (0 : Nat) ≠ kUdpPort by decide)
    · exact h
  | connect socketFd =>
    simp only [Network.execClient] at hexec
    split at hexec
    · split at hexec
      · cases hexec
      · rename_i hport
        obtain ⟨socket, -, hrun⟩ := Option.map_eq_some_iff.mp hexec
        cases hrun
        exact h.setSocket hport
    · cases hexec
      exact h
  | send socketFd =>
    simp only [Network.execClient] at hexec
    split at hexec
    · obtain ⟨socket, hsocket, hrun⟩ := Option.map_eq_some_iff.mp hexec
      cases hrun
      exact h.hello (h.ports _ socket hsocket)
    · cases hexec
      exact h
  | recv socketFd =>
    simp only [Network.execClient] at hexec
    obtain ⟨socket, -, hrun⟩ := Option.bind_eq_some_iff.mp hexec
    unfold Network.recvReply at hrun
    split at hrun
    · split at hrun <;> cases hrun
      exact h.take _
    · cases hrun
      exact h
  | _ =>
    obtain ⟨out, -, heq⟩ := Option.map_eq_some_iff.mp hexec
    cases heq
    exact ⟨h.clean, h.ports, h.answering, h.replies, h.ledger⟩

theorem steady_server {host : String} (h : Steady s G) {a : UdpAct} {x : a.Answer}
    (hmay : MayAct (G t) (.server host a)) (hexec : s.execServer host e a = some (x, s')) :
    Steady s' (Function.update G t (acted (G t) (.server host a) x)) := by
  have hkeep : Steady s (Function.update G t (G t)) := by rwa [Function.update_eq_self]
  cases a with
  | openServer | bind | isRunning | closeServer | localInterfaceMac =>
    cases hexec
    exact hkeep
  | recvmsg =>
    simp only [Network.execServer] at hexec
    split at hexec
    · split at hexec <;> cases hexec
      rename_i hd
      exact h.receive hd.1 (hd.2 ▸ rfl) hmay
    · rename_i arrival hnone
      cases hexec
      have hstage : acted (G t) (.server host .recvmsg) e.arrival = G t := by
        cases harrival : e.arrival with
        | datagram d => exact absurd harrival (hnone d)
        | again | failed => rfl
      rwa [hstage]
  | sendto request reply =>
    have ht : G t = .answering request := hmay
    simp only [Network.execServer] at hexec
    split at hexec <;> cases hexec
    · exact h.reply ht reply
    · exact (h.done ht).1

theorem replies_sound : replyDiscipline.SoundAtRest (fun g => g = .client ∨ g = .server)
    (fun s _ G => Steady s G) fun _ _ _ _ _ => True where
  rest _ _ _ hg := hg
  start s H G t f h _ hrest := by
    refine h.stage (fun d hd => ?_) fun d hd => ?_
    · rcases hrest with heq | heq <;> rw [heq] at hd <;> cases hd
    · cases f <;> cases hd
  lock s H G t f l m _ h _ hmay := hmay.elim
  unlock s H G t l m _ h _ hmay := hmay.elim
  call f p h g := by
    rintro ⟨⟨host, rfl⟩, rfl⟩
    exact keeps_rounds
  act s H G t f a e x s' _ h _ hmay hexec := by
    refine ⟨trivial, ?_⟩
    cases a with
    | server host a => exact steady_server h hmay hexec
    | client host a =>
      show Steady s' (Function.update G t (G t))
      rw [Function.update_eq_self]
      cases a with
      | method this a => exact steady_client h hexec
      | _ => exact hmay.elim

/-! ## Runs -/

theorem follows_start {clients : String → CommsState} {datagrams : List Datagram}
    (hclean : ∀ d ∈ datagrams, d.Clean) :
    replyDiscipline.FollowsAtRest (fun g => g = .client ∨ g = .server) (fun s _ G => Steady s G)
      (World.quiet (.start clients datagrams)) fun _ => .client := by
  have hledger : toServers datagrams ≤ hellos datagrams :=
    List.countP_mono_left fun d hd hport =>
      decide_eq_true (hclean d hd (of_decide_eq_true hport)).1
  refine ⟨Discipline.follows_quiet ⟨hclean, nofun, nofun, nofun, ∅, fun t => ?_, ?_⟩,
    fun _ _ => Or.inl rfl⟩
  · exact iff_of_false (Finset.notMem_empty t) fun ⟨d, hd⟩ => by cases hd
  · rw [Finset.card_empty]
    show 0 + 0 + toServers datagrams ≤ hellos datagrams
    omega

end Replies

/-- Replies go to hello datagrams only, and there are no more of them. -/
structure RepliesBounded (w : World networkSystem) : Prop where
  hello : ∀ d ∈ w.state.replies, d.payload = kHelloPayload
  count : w.state.replies.length ≤ hellos w.state.sent

/-- One round of a server that has not started yet, for a datagram that is in flight. -/
def serveOnce (t : Tid) (d : Datagram) : List (Op networkSystem) :=
  .start t (.udpServerLoop d.destination.host) :: List.replicate 4 (.run t {}) ++
    .run t { arrival := .datagram d } :: List.replicate 2 (.run t {})

namespace Replies

/-- The datagram that answers `d`, where no interface is found. -/
def answer (d : Datagram) : Datagram := ⟨d.destination, d.source, kReplyPrefix ++ ""⟩

/-- Whatever is on its way to a server may be replied to. -/
theorem serveOnce_run {w : World networkSystem} (ht : w.thread t = none) (hd : d ∈ w.state.inFlight)
    (hport : d.destination.port = kUdpPort) :
    (machine networkSystem).Legal w (serveOnce t d) ∧
      ((machine networkSystem).run w (serveOnce t d)).state.replies = d :: w.state.replies ∧
      answer d ∈ ((machine networkSystem).run w (serveOnce t d)).state.inFlight ∧
      ∀ u, u ≠ t → ((machine networkSystem).run w (serveOnce t d)).thread u = w.thread u := by
  have hdest : d.destination = ⟨d.destination.host, kUdpPort⟩ := by rw [← hport]
  refine ⟨?_, ?_, ?_, fun u hu => ?_⟩
  · simp [serveOnce, Machine.Legal, Machine.Each, machine, World.enabled, World.next, ht,
      NetworkCall.body, udpServerLoop, udp, Prog.perform, Network.exec, Network.execServer,
      udpServerRounds, Prog.invoke, World.setThread, hd, ← hdest]
  · simp [serveOnce, Machine.run, machine, World.next, NetworkCall.body, udpServerLoop, udp,
      Prog.perform, Network.exec, Network.execServer, udpServerRounds, Prog.invoke, World.setThread,
      hd, ← hdest, Network.send, Network.take]
  · simp [serveOnce, Machine.run, machine, World.next, NetworkCall.body, udpServerLoop, udp,
      Prog.perform, Network.exec, Network.execServer, udpServerRounds, Prog.invoke, World.setThread,
      hd, ← hdest, Network.send, Network.take, answer]
  · simp [serveOnce, Machine.run, machine, World.next, NetworkCall.body, udpServerLoop, udp,
      Prog.perform, Network.exec, Network.execServer, udpServerRounds, Prog.invoke, World.setThread,
      hd, ← hdest, Network.send, Network.take, hu]

theorem talks_serveOnce : Calls NetworkCall.Talks (serveOnce t d) := by
  intro u f hmem
  simp [serveOnce] at hmem
  obtain ⟨-, rfl⟩ := hmem
  trivial

end Replies

theorem replies_bounded_iff (clients : String → CommsState) (datagrams : List Datagram) :
    (∀ ops : List (Op networkSystem), Calls NetworkCall.Talks ops →
      (machine networkSystem).Legal (World.quiet (.start clients datagrams)) ops →
      (machine networkSystem).Always RepliesBounded (World.quiet (.start clients datagrams)) ops) ↔
    ∀ d ∈ datagrams, d.Clean := by
  constructor
  · intro hbounded d hd hport
    have hserved := serveOnce_run (t := 0) (w := World.quiet (.start clients datagrams)) rfl hd hport
    generalize hw : (machine networkSystem).run (World.quiet (.start clients datagrams))
      (serveOnce 0 d) = w at hserved
    obtain ⟨hlegal, hreplies, hanswer, hthread⟩ := hserved
    have hfirst := (hbounded _ talks_serveOnce hlegal).last
    rw [hw] at hfirst
    refine ⟨hfirst.hello d (hreplies ▸ List.mem_cons_self), fun hsource => ?_⟩
    -- A server answers the answer, which is not the hello text.
    obtain ⟨hlegal', hreplies', -, -⟩ := serveOnce_run (t := 1) (hthread 1 (by decide)) hanswer hsource
    have hsecond := (hbounded (serveOnce 0 d ++ serveOnce 1 (answer d)) ?_ ?_).last
    · rw [Machine.run_append, hw] at hsecond
      exact absurd (hsecond.hello (answer d) (hreplies' ▸ List.mem_cons_self)) (by
        show kReplyPrefix ++ "" ≠ kHelloPayload
        decide)
    · intro t f hmem
      exact (List.mem_append.mp hmem).elim (talks_serveOnce t f) (talks_serveOnce t f)
    · exact (Machine.each_append _ _ _).mpr ⟨hlegal, hw ▸ hlegal'⟩
  · intro hclean ops hcalls hlegal
    refine Machine.Each.always (M := machine networkSystem)
      (I := fun w => ∃ G, replyDiscipline.FollowsAtRest (fun g => g = .client ∨ g = .server)
        (fun s _ G => Steady s G) w G) ?_ (fun w ⟨G, hG⟩ => ?_)
      (Machine.Each.and hlegal (hcalls.each _)) ⟨_, follows_start hclean⟩
    · rintro w op ⟨G, hG⟩ ⟨hop, hcall⟩
      refine ⟨_, hG.next replies_sound replies_cover hop ?_⟩
      cases op with
      | start t f => exact hcall t f rfl
      | run t e => exact fun _ _ _ => trivial
    · have hsteady := hG.invariant
      obtain ⟨busy, -, hle⟩ := hsteady.ledger
      exact ⟨hsteady.replies, by omega⟩

/-- A datagram that no client has sent, from one server to another. -/
def strayDatagram : Datagram := ⟨⟨"10.0.0.1", kUdpPort⟩, ⟨"10.0.0.2", kUdpPort⟩, ""⟩

/-- Whatever is in flight, servers reply to hello datagrams only. -/
def RepliesAlwaysBounded : Prop :=
  ∀ (clients : String → CommsState) (datagrams : List Datagram) (ops : List (Op networkSystem)),
    Calls NetworkCall.Talks ops →
      (machine networkSystem).Legal (World.quiet (.start clients datagrams)) ops →
      (machine networkSystem).Always RepliesBounded (World.quiet (.start clients datagrams)) ops

theorem servers_answer_each_other : ¬ RepliesAlwaysBounded := by
  intro h
  have hlegal : (machine networkSystem).Legal
      (World.quiet (.start (fun _ => .startedWith {}) [strayDatagram]))
      (serveOnce 0 strayDatagram ++ serveOnce 1 (answer strayDatagram)) := by decide +kernel
  have hreplies : ((machine networkSystem).run
      (World.quiet (.start (fun _ => .startedWith {}) [strayDatagram]))
      (serveOnce 0 strayDatagram ++ serveOnce 1 (answer strayDatagram))).state.replies =
        [answer strayDatagram, strayDatagram] := by decide +kernel
  have hcalls : Calls NetworkCall.Talks
      (serveOnce 0 strayDatagram ++ serveOnce 1 (answer strayDatagram)) := fun t f hmem =>
    (List.mem_append.mp hmem).elim (talks_serveOnce t f) (talks_serveOnce t f)
  have hbounded := (h _ _ _ hcalls hlegal).last.hello strayDatagram (by rw [hreplies]; decide)
  exact absurd hbounded (by decide)

end SensorLib.Comms
