import SensorLib.Base.Lookup
import SensorLib.Comms.Connections
import SensorLib.Comms.Replies
import SensorLib.Threads.Paths

/-! # Links whose hosts have answered

A client takes what comes from the address that its socket is connected to. As
long as no reply is on its way in the beginning, that is the answer of a server
to what the client has sent.
-/

namespace SensorLib.Comms

open Threads Runs Descriptors

namespace Correspondence

/-- How far an attempt has come: its socket is open, has the address of the peer, is connected, and
has received something. -/
inductive Step
  | ready
  | opened (socketFd : Int)
  | bound (socketFd : Int)
  | connected (socketFd : Int)
  | answered (socketFd : Int)
  deriving DecidableEq

def Step.fd : Step → Option Int
  | .ready => none
  | .opened fd | .bound fd | .connected fd | .answered fd => some fd

/-- The socket that is known to have the address of the peer. -/
def Step.boundFd : Step → Option Int
  | .bound fd | .connected fd => some fd
  | _ => none

inductive Stage
  | idle
  | trying (host address : String) (step : Step)
  | server (host : String)
  | answering (host : String) (request : Datagram)
  deriving DecidableEq

/-- The socket that a thread has on a host. -/
def Stage.fdOn (host : String) : Stage → Option Int
  | .trying host' _ step => if host' = host then step.fd else none
  | _ => none

/-- The thread has no socket and owes no reply. -/
def Stage.AtRest : Stage → Prop
  | .idle | .trying _ _ .ready | .server _ => True
  | _ => False

def MayTry (candidate : WifiCandidate) : Step → RuntimeAct → Prop
  | .ready, .socket | .ready, .linkDiscovered .. => True
  | .opened fd, .setRemote fd' address => fd' = fd ∧ address = candidate.ipAddress
  | .bound fd, .connect fd' | .connected fd, .send fd' | .connected fd, .recv fd' => fd' = fd
  | step, .close fd => step.fd = some fd
  | .answered fd, .publish link => link = wifiLink candidate fd
  | _, _ => False

def Step.acted : Step → (a : RuntimeAct) → a.Answer → Step
  | .ready, .socket, fd => if fd < 0 then .ready else .opened fd
  | .opened fd, .setRemote .., true => .bound fd
  | .bound fd, .connect _, true => .connected fd
  | .connected fd, .recv _, some _ => .answered fd
  | _, .close _, _ | _, .publish _, _ => .ready
  | step, _, _ => step

def MayServe (g : Stage) (host : String) : UdpAct → Prop
  | .sendto request _ => g = .answering host request
  | .localInterfaceMac => ∃ request, g = .answering host request
  | _ => g = .server host

def acted : Stage → (a : NetworkAct) → a.Answer → Stage
  | .trying host address step, .client _ (.method _ a), x => .trying host address (step.acted a x)
  | .server host, .server _ .recvmsg, .datagram request => .answering host request
  | .answering host _, .server _ (.sendto ..), _ => .server host
  | g, _, _ => g

end Correspondence

open Correspondence

@[reducible] def answerDiscipline : Discipline networkSystem where
  Ghost := Stage
  initial
    | .handshake host _ candidate, _ => .trying host candidate.ipAddress .ready
    | .udpServerLoop host, _ => .server host
    | _, _ => .idle
  mayLock _ _ _ _ _ := False
  locked _ _ g _ _ := g
  mayUnlock _ _ _ _ := False
  unlocked _ g _ _ := g
  mayAct f _ g
    | .client host (.method this a) => ∃ candidate step, f = .handshake host this candidate ∧
        g = .trying host candidate.ipAddress step ∧ MayTry candidate step a
    | .client .. => False
    | .server host a => MayServe g host a
  answers _ _ _ _ := True
  acted _ g a x := Correspondence.acted g a x
  mayCall _ p _ g := ∃ host, p = .udpServerRounds host ∧ g = .server host
  returns _ h g _ h' g' := h' = h ∧ g' = g
  finished _ _ g := g.AtRest

namespace Correspondence

variable {f : NetworkCall} {h : Held networkSignature} {host : String} {this : RuntimePtr}
  {candidate : WifiCandidate}

/-! ## The programs -/

theorem obeys_tryPeer (hf : f = .handshake host this candidate) :
    answerDiscipline.Keeps f (onHost host (CommsRuntime.tryPeer this true (.wifi candidate))) h
      (.trying host candidate.ipAddress .ready) := by
  have hmay : ∀ (a : RuntimeAct) (step : Step), MayTry candidate step a →
      answerDiscipline.mayAct f h (.trying host candidate.ipAddress step) (.client host (.method this a)) :=
    fun a step ha => ⟨candidate, step, hf, rfl, ha⟩
  have hgiveUp : ∀ (fd : Int) (step : Step) (k : Option ActiveLink → Program Unit),
      step.fd = some fd → k none = pure () → answerDiscipline.Obeys f
        (onHost host ((CommsRuntime.giveUp this fd).bind k)) h
        (.trying host candidate.ipAddress step)
        fun _ h' g' => h' = h ∧ g' = .trying host candidate.ipAddress .ready := by
    intro fd step k hstep hk
    have hclose : MayTry candidate step (.close fd) := by
      cases step <;> exact hstep
    constructor
    · exact hmay _ _ hclose
    · intro x _
      show answerDiscipline.Obeys f (onHost host (k none)) h _ _
      rw [hk]
      constructor
      · rfl
      · cases step <;> rfl
  refine ⟨hmay _ _ trivial, fun (fd : Int) _ => ?_⟩
  show answerDiscipline.Obeys f (onHost host (Prog.bind (if fd < 0 then _ else _) _)) h
    (.trying host candidate.ipAddress (if fd < 0 then .ready else .opened fd)) _
  by_cases hfd : fd < 0
  · rw [if_pos hfd, if_pos hfd]
    exact ⟨rfl, rfl⟩
  rw [if_neg hfd, if_neg hfd]
  refine ⟨hmay _ _ ⟨rfl, rfl⟩, fun remote _ => ?_⟩
  cases remote with
  | false => exact hgiveUp fd _ _ rfl rfl
  | true =>
    refine ⟨hmay _ _ rfl, fun connected _ => ?_⟩
    cases connected with
    | false => exact hgiveUp fd _ _ rfl rfl
    | true =>
      refine ⟨hmay _ _ rfl, fun sent _ => ?_⟩
      cases sent with
      | false => exact hgiveUp fd _ _ rfl rfl
      | true =>
        refine ⟨hmay _ _ rfl, fun received _ => ?_⟩
        cases received with
        | none => exact hgiveUp fd _ _ rfl rfl
        | some buffer =>
          show answerDiscipline.Obeys f
            (onHost host (Prog.bind (if startsWithReplyPrefix buffer then _ else _) _)) h _ _
          split
          · refine ⟨hmay _ _ rfl, fun callback _ => ?_⟩
            cases callback with
            | none => exact ⟨rfl, rfl⟩
            | some callback => exact ⟨hmay _ _ trivial, fun _ _ => ⟨rfl, rfl⟩⟩
          · exact hgiveUp fd _ _ rfl rfl

theorem keeps_rounds : answerDiscipline.Keeps f (udpServerRounds host) h (.server host) := by
  have hagain : answerDiscipline.Keeps f
      (Prog.invoke (S := networkSignature) (.udpServerRounds host)) h (.server host) :=
    ⟨⟨host, rfl, rfl⟩, fun _ _ _ hreturns => hreturns⟩
  refine ⟨rfl, fun running _ => ?_⟩
  cases running with
  | false => exact ⟨rfl, rfl⟩
  | true =>
    refine ⟨rfl, fun arrival _ => ?_⟩
    cases arrival with
    | datagram request => exact ⟨⟨request, rfl⟩, fun _ _ => ⟨rfl, fun _ _ => hagain⟩⟩
    | again => exact hagain
    | failed => exact ⟨rfl, rfl⟩

theorem keeps_udpServerLoop : answerDiscipline.Keeps f (udpServerLoop host) h (.server host) := by
  have hclose : answerDiscipline.Keeps f (udp host .closeServer) h (.server host) :=
    ⟨rfl, fun _ _ => ⟨rfl, rfl⟩⟩
  refine ⟨rfl, fun opened _ => ?_⟩
  cases opened with
  | false => exact ⟨rfl, rfl⟩
  | true =>
    refine ⟨rfl, fun bound _ => ?_⟩
    cases bound with
    | false => exact hclose
    | true =>
      refine ⟨⟨host, rfl, rfl⟩, ?_⟩
      rintro _ _ _ ⟨rfl, rfl⟩
      exact hclose

theorem answers_cover : answerDiscipline.Covers NetworkCall.Talks := by
  intro f s hf
  cases f with
  | handshake host this candidate =>
    apply Discipline.Keeps.bind (obeys_tryPeer rfl)
    intro _
    exact ⟨rfl, trivial⟩
  | udpServerLoop host =>
    apply keeps_udpServerLoop.mono
    rintro _ _ _ ⟨hh, rfl⟩
    exact ⟨hh, trivial⟩
  | client | udpServerRounds => exact hf.elim

end Correspondence

/-- A server on the host has replied to a datagram from such an endpoint. -/
def ServerReplied (s : Network) (client : Endpoint) (server : String) : Prop :=
  ∃ request ∈ s.replies, request.source = client ∧ request.destination = ⟨server, kUdpPort⟩

/-- A server at the address has replied to the hello text that came from the host, unless it was a
datagram that was in flight in the beginning. -/
def AnsweredHello (datagrams : List Datagram) (s : Network) (host address : String) : Prop :=
  ∃ request ∈ s.replies, request.source.host = host ∧ request.destination = ⟨address, kUdpPort⟩ ∧
    (request ∈ datagrams ∨ request.payload = kHelloPayload)

/-- No reply of a server to a client is on its way. -/
def NoReplies (datagrams : List Datagram) : Prop :=
  ∀ d ∈ datagrams, d.source.port = kUdpPort → d.destination.port = kUdpPort

namespace Correspondence

variable {datagrams : List Datagram} {s s' : Network} {H : Tid → Held networkSignature}
  {G : Tid → Stage} {g : Stage} {t : Tid} {d : Datagram} {e : NetworkChoice} {host address : String}
  {fd : Int}

/-! ## The datagrams -/

/-- The datagrams that a server may come to reply to. -/
def Plain (datagrams : List Datagram) (d : Datagram) : Prop :=
  d ∈ datagrams ∨ d.payload = kHelloPayload ∨ d.source.port = kUdpPort

/-- It was there in the beginning, or is a hello datagram, or a reply. -/
def Traced (datagrams : List Datagram) (s : Network) (d : Datagram) : Prop :=
  d ∈ datagrams ∨ d.payload = kHelloPayload ∧ d.destination.port = kUdpPort ∨
    d.source.port = kUdpPort ∧ ServerReplied s d.destination d.source.host

theorem Traced.plain (h : Traced datagrams s d) : Plain datagrams d := by
  rcases h with hold | ⟨hhello, -⟩ | ⟨hport, -⟩
  · exact Or.inl hold
  · exact Or.inr (Or.inl hhello)
  · exact Or.inr (Or.inr hport)

theorem Traced.mono (h : Traced datagrams s d) (hreplies : ∀ x ∈ s.replies, x ∈ s'.replies) :
    Traced datagrams s' d := by
  apply h.imp_right
  apply Or.imp_right
  rintro ⟨hport, request, hrequest, hends⟩
  exact ⟨hport, request, hreplies _ hrequest, hends⟩

theorem AnsweredHello.mono (h : AnsweredHello datagrams s host address)
    (hreplies : ∀ x ∈ s.replies, x ∈ s'.replies) : AnsweredHello datagrams s' host address := by
  obtain ⟨request, hrequest, hends⟩ := h
  exact ⟨request, hreplies _ hrequest, hends⟩

structure Traffic (datagrams : List Datagram) (s : Network) (G : Tid → Stage) : Prop where
  flight : ∀ d ∈ s.inFlight, Traced datagrams s d
  replies : ∀ d ∈ s.replies, Plain datagrams d
  answering : ∀ t host d, G t = .answering host d → d.destination = ⟨host, kUdpPort⟩ ∧ Plain datagrams d
  ports : ∀ x socket, s.sockets x = some socket → socket.port ≠ kUdpPort

namespace Traffic

/-- A thread does not come to owe a reply. -/
theorem stage (h : Traffic datagrams s G)
    (hg : ∀ host d, g = .answering host d → G t = .answering host d) :
    Traffic datagrams s (Function.update G t g) := by
  refine ⟨h.flight, h.replies, ?_, h.ports⟩
  intro u host d hu
  by_cases hut : u = t
  · subst hut
    rw [Function.update_self] at hu
    exact h.answering u host d (hg host d hu)
  · rw [Function.update_of_ne hut] at hu
    exact h.answering u host d hu

theorem clients (h : Traffic datagrams s G) (clients : String → CommsState) :
    Traffic datagrams { s with clients } G :=
  ⟨h.flight, h.replies, h.answering, h.ports⟩

theorem take (h : Traffic datagrams s G) (d : Datagram) : Traffic datagrams (s.take d) G :=
  ⟨fun x hx => h.flight x (List.mem_of_mem_erase hx), h.replies, h.answering, h.ports⟩

theorem setSocket (h : Traffic datagrams s G) {socket : ClientSocket} (hport : socket.port ≠ kUdpPort) :
    Traffic datagrams (s.setSocket host fd socket) G := by
  refine ⟨h.flight, h.replies, h.answering, ?_⟩
  intro x socket' hx
  by_cases hxs : x = (host, fd)
  · subst hxs
    rw [show (s.setSocket host fd socket).sockets (host, fd) = some socket from
      Function.update_self _ _ _] at hx
    cases hx
    exact hport
  · rw [show (s.setSocket host fd socket).sockets x = s.sockets x from
      Function.update_of_ne hxs _ _] at hx
    exact h.ports x socket' hx

theorem hello (h : Traffic datagrams s G) {source : Endpoint} :
    Traffic datagrams (s.send ⟨source, ⟨address, kUdpPort⟩, kHelloPayload⟩) G := by
  refine ⟨?_, h.replies, h.answering, h.ports⟩
  intro x hx
  rcases List.mem_cons.mp hx with rfl | hx
  · exact Or.inr (Or.inl ⟨rfl, rfl⟩)
  · exact h.flight x hx

/-- A server has received a datagram. -/
theorem receive (h : Traffic datagrams s G) (hd : d ∈ s.inFlight)
    (hdestination : d.destination = ⟨host, kUdpPort⟩) :
    Traffic datagrams (s.take d) (Function.update G t (.answering host d)) := by
  refine ⟨(h.take d).flight, h.replies, ?_, h.ports⟩
  intro u host' x hu
  by_cases hut : u = t
  · subst hut
    rw [Function.update_self] at hu
    cases hu
    exact ⟨hdestination, (h.flight d hd).plain⟩
  · rw [Function.update_of_ne hut] at hu
    exact h.answering u host' x hu

/-- A server has replied to what it has received. -/
theorem reply (h : Traffic datagrams s G) (ht : G t = .answering host d) (payload : String) :
    Traffic datagrams { s.send ⟨⟨host, kUdpPort⟩, d.source, payload⟩ with replies := d :: s.replies }
      G := by
  obtain ⟨hdestination, hplain⟩ := h.answering t host d ht
  refine ⟨?_, ?_, h.answering, h.ports⟩
  · intro x hx
    rcases List.mem_cons.mp hx with rfl | hx
    · exact Or.inr (Or.inr ⟨rfl, d, List.mem_cons_self, rfl, hdestination⟩)
    · exact (h.flight x hx).mono fun y hy => List.mem_cons_of_mem _ hy
  · intro x hx
    rcases List.mem_cons.mp hx with rfl | hx
    · exact hplain
    · exact h.replies x hx

/-- What a client takes on its own port is the answer to what it has sent. -/
theorem answered (h : Traffic datagrams s G) (hstray : NoReplies datagrams) (hd : d ∈ s.inFlight)
    {port : Nat} (hport : port ≠ kUdpPort) (hdestination : d.destination = ⟨host, port⟩)
    (hsource : d.source = ⟨address, kUdpPort⟩) : AnsweredHello datagrams s host address := by
  have hserver : d.source.port = kUdpPort := by rw [hsource]
  have hclient : d.destination.port ≠ kUdpPort := by
    rw [hdestination]
    exact hport
  rcases h.flight d hd with hold | ⟨-, hto⟩ | ⟨-, request, hrequest, hfrom, hto⟩
  · exact absurd (hstray d hold hserver) hclient
  · exact absurd hto hclient
  · rw [hsource] at hto
    rw [hdestination] at hfrom
    refine ⟨request, hrequest, by rw [hfrom], hto, ?_⟩
    rcases h.replies request hrequest with hold | hhello | hother
    · exact Or.inl hold
    · exact Or.inr hhello
    · rw [hfrom] at hother
      exact absurd hother hport

end Traffic

/-! ## The sockets of the clients -/

def fdsOf (G : Tid → Stage) (host : String) : Tid → Option Int := fun t => (G t).fdOn host

theorem fdsOf_update : fdsOf (Function.update G t g) host =
    Function.update (fdsOf G host) t (g.fdOn host) := by
  funext u
  by_cases hu : u = t
  · subst hu
    simp [fdsOf]
  · simp [fdsOf, hu]

/-- A socket that is in an attempt has one thread, and the address that the attempt is to. -/
structure Sockets (s : Network) (G : Tid → Stage) : Prop where
  owned : ∀ host, Handshakes.Owned (s.clients host).sockets [] (fdsOf G host)
  remote : ∀ t host address step fd, G t = .trying host address step → step.boundFd = some fd →
    ∃ socket, s.sockets (host, fd) = some socket ∧ socket.remote = address

theorem Step.fd_of_boundFd {step : Step} (h : step.boundFd = some fd) : step.fd = some fd := by
  cases step with
  | bound | connected => exact h
  | _ => cases h

theorem Sockets.update (h : Sockets s G)
    (howned : ∀ host, Handshakes.Owned (s'.clients host).sockets []
      (Function.update (fdsOf G host) t (g.fdOn host)))
    (hkeep : ∀ u ≠ t, ∀ host fd, (G u).fdOn host = some fd →
      s'.sockets (host, fd) = s.sockets (host, fd))
    (hnew : ∀ host address step fd, g = .trying host address step → step.boundFd = some fd →
      ∃ socket, s'.sockets (host, fd) = some socket ∧ socket.remote = address) :
    Sockets s' (Function.update G t g) := by
  constructor
  · intro host
    rw [fdsOf_update]
    exact howned host
  · intro u host address step fd hu hstep
    by_cases hut : u = t
    · subst hut
      rw [Function.update_self] at hu
      exact hnew host address step fd hu hstep
    · rw [Function.update_of_ne hut] at hu
      have hfd : (G u).fdOn host = some fd := by
        rw [hu]
        simpa [Stage.fdOn] using Step.fd_of_boundFd hstep
      rw [hkeep u hut host fd hfd]
      exact h.remote u host address step fd hu hstep

/-- The sockets stay as they are, and so does that of the thread. -/
theorem Sockets.keep (h : Sockets s G) (hclients : ∀ host, (s'.clients host).sockets = (s.clients host).sockets)
    (hsockets : s'.sockets = s.sockets) (hfd : ∀ host, g.fdOn host = (G t).fdOn host)
    (hnew : ∀ host address step fd, g = .trying host address step → step.boundFd = some fd →
      ∃ step', G t = .trying host address step' ∧ step'.boundFd = some fd) :
    Sockets s' (Function.update G t g) := by
  apply h.update
  · intro host
    rw [hclients, hfd]
    have hsame : Function.update (fdsOf G host) t ((G t).fdOn host) = fdsOf G host :=
      Function.update_eq_self t (fdsOf G host)
    rw [hsame]
    exact h.owned host
  · intro u _ host fd _
    rw [hsockets]
  · intro host address step fd hg hstep
    obtain ⟨step', ht, hstep'⟩ := hnew host address step fd hg hstep
    rw [hsockets]
    exact h.remote t host address step' fd ht hstep'

/-- What an act on one host does to the table of the sockets there. -/
theorem Sockets.onHost (h : Sockets s G) {client : CommsState} {step : Step}
    (howned : Handshakes.Owned client.sockets [] (Function.update (fdsOf G host) t step.fd))
    (ht : ∃ step', G t = .trying host address step') (hstep : step.boundFd = none) :
    Sockets { s with clients := Function.update s.clients host client }
      (Function.update G t (.trying host address step)) := by
  obtain ⟨step', ht⟩ := ht
  apply h.update
  · intro host'
    by_cases hhost : host' = host
    · subst hhost
      simpa [Stage.fdOn] using howned
    · have hother : (Stage.trying host address step).fdOn host' = (G t).fdOn host' := by
        simp [ht, Stage.fdOn, Ne.symm hhost]
      have hsame : Function.update (fdsOf G host') t ((G t).fdOn host') = fdsOf G host' :=
        Function.update_eq_self t (fdsOf G host')
      rw [hother, hsame]
      simpa [hhost] using h.owned host'
  · intro u _ host' fd _
    rfl
  · intro host' address' step'' fd hg hbound
    cases hg
    rw [hstep] at hbound
    cases hbound

/-- The address of the socket of a thread is set, or its port. -/
theorem Sockets.setSocket (h : Sockets s G) {step step' : Step} {socket : ClientSocket}
    (ht : G t = .trying host address step) (hstep : step.fd = some fd) (hstep' : step'.fd = some fd)
    (hremote : socket.remote = address) :
    Sockets (s.setSocket host fd socket) (Function.update G t (.trying host address step')) := by
  have hfd : (G t).fdOn host = some fd := by simp [ht, Stage.fdOn, hstep]
  apply h.update
  · intro host'
    have hsame : (Stage.trying host address step').fdOn host' = fdsOf G host' t := by
      simp [fdsOf, ht, Stage.fdOn, hstep, hstep']
    rw [hsame, Function.update_eq_self]
    exact h.owned host'
  · intro u hu host' fd' hfd'
    apply Function.update_of_ne
    rintro heq
    cases heq
    exact hu ((h.owned host).alone u t fd hfd' hfd)
  · intro host' address' step'' fd' hg hbound
    cases hg
    have hsame := Step.fd_of_boundFd hbound
    rw [hstep', Option.some.injEq] at hsame
    subst hsame
    exact ⟨socket, Function.update_self _ _ _, hremote⟩

/-! ## The links -/

/-- Who has received something was answered, and so was every link, which a call of `K` has made. -/
structure Proven (K : NetworkCall → Prop) (datagrams : List Datagram) (s : Network)
    (G : Tid → Stage) : Prop where
  answered : ∀ t host address fd, G t = .trying host address (.answered fd) →
    AnsweredHello datagrams s host address
  links : ∀ host r c, (s.clients host).runtimes.lookup r = some c → ∀ link ∈ c.activeLinks,
    ∃ candidate fd, K (.handshake host r candidate) ∧ link = wifiLink candidate fd ∧
      AnsweredHello datagrams s host candidate.ipAddress

variable {K : NetworkCall → Prop}

theorem Proven.update (h : Proven K datagrams s G) (hreplies : ∀ x ∈ s.replies, x ∈ s'.replies)
    (hg : ∀ host address fd, g = .trying host address (.answered fd) →
      AnsweredHello datagrams s' host address)
    (hlinks : ∀ host r c, (s'.clients host).runtimes.lookup r = some c → ∀ link ∈ c.activeLinks,
      (∃ c', (s.clients host).runtimes.lookup r = some c' ∧ link ∈ c'.activeLinks) ∨
      ∃ candidate fd, K (.handshake host r candidate) ∧ link = wifiLink candidate fd ∧
        AnsweredHello datagrams s' host candidate.ipAddress) :
    Proven K datagrams s' (Function.update G t g) := by
  constructor
  · intro u host address fd hu
    by_cases hut : u = t
    · subst hut
      rw [Function.update_self] at hu
      exact hg host address fd hu
    · rw [Function.update_of_ne hut] at hu
      exact AnsweredHello.mono (h.answered u host address fd hu) hreplies
  · intro host r c hc link hlink
    rcases hlinks host r c hc link hlink with ⟨c', hc', hold⟩ | hnew
    · obtain ⟨candidate, fd, hcall, hwifi, hanswered⟩ := h.links host r c' hc' link hold
      exact ⟨candidate, fd, hcall, hwifi, AnsweredHello.mono hanswered hreplies⟩
    · exact hnew

/-- An act that leaves the runtimes as they are. -/
theorem Proven.keep (h : Proven K datagrams s G) (hreplies : ∀ x ∈ s.replies, x ∈ s'.replies)
    (hruntimes : ∀ host, (s'.clients host).runtimes = (s.clients host).runtimes)
    (hg : ∀ host address fd, g = .trying host address (.answered fd) →
      AnsweredHello datagrams s' host address) : Proven K datagrams s' (Function.update G t g) := by
  apply h.update hreplies hg
  intro host r c hc link hlink
  rw [hruntimes] at hc
  exact Or.inl ⟨c, hc, hlink⟩

structure Corresponds (K : NetworkCall → Prop) (datagrams : List Datagram) (s : Network)
    (G : Tid → Stage) : Prop where
  traffic : Traffic datagrams s G
  sockets : Sockets s G
  proven : Proven K datagrams s G

/-! ## What the acts keep -/

variable {step : Step}

theorem fd_of_mayTry_close (h : MayTry candidate step (.close fd)) : step.fd = some fd := by
  cases step <;> exact h

@[simp] theorem acted_close {x : Unit} : step.acted (.close fd) x = .ready := by
  cases step <;> rfl

@[simp] theorem acted_publish {link : ActiveLink} {x : Option Callback} :
    step.acted (.publish link) x = .ready := by
  cases step <;> rfl

/-- An act of a client that is not on the network. -/
theorem exec_local {a : RuntimeAct} {x : a.Answer}
    (hexec : ((s.clients host).exec e.toChoice (.method this a)).map (fun (x, client) =>
      (x, { s with clients := Function.update s.clients host client })) = some (x, s')) :
    ∃ c client, (s.clients host).runtimes.lookup this = some c ∧
      (s.clients host).execMethod this c e.toChoice a = some (x, client) ∧
      s' = { s with clients := Function.update s.clients host client } := by
  obtain ⟨⟨x', client'⟩, hrun, heq⟩ := Option.map_eq_some_iff.mp hexec
  cases heq
  cases hc : (s.clients host).runtimes.lookup this with
  | none => simp [CommsState.exec, hc] at hrun
  | some c =>
    simp only [CommsState.exec, hc] at hrun
    exact ⟨c, client', rfl, hrun, rfl⟩

/-- A thread has a socket no more, or a new one. -/
theorem Corresponds.onHost (h : Corresponds K datagrams s G) {client : CommsState} {step' : Step}
    (ht : G t = .trying host address step) (hstep : step'.boundFd = none)
    (hanswered : ∀ fd, step' ≠ .answered fd)
    (howned : Handshakes.Owned client.sockets [] (Function.update (fdsOf G host) t step'.fd))
    (hlinks : ∀ r c, client.runtimes.lookup r = some c → ∀ link ∈ c.activeLinks,
      (∃ c', (s.clients host).runtimes.lookup r = some c' ∧ link ∈ c'.activeLinks) ∨
      ∃ candidate fd, K (.handshake host r candidate) ∧ link = wifiLink candidate fd ∧
        AnsweredHello datagrams s host candidate.ipAddress) :
    Corresponds K datagrams { s with clients := Function.update s.clients host client }
      (Function.update G t (.trying host address step')) := by
  constructor
  · apply (h.traffic.clients _).stage
    rintro host d hg
    cases hg
  · exact h.sockets.onHost howned ⟨step, ht⟩ hstep
  · refine h.proven.update (fun _ hx => hx) ?_ ?_
    · rintro host address fd hg
      cases hg
      exact absurd rfl (hanswered fd)
    · intro host' r c hc link hlink
      by_cases hhost : host' = host
      · subst hhost
        simp only [Function.update_self] at hc
        exact hlinks r c hc link hlink
      · simp only [Function.update_of_ne hhost] at hc
        exact Or.inl ⟨c, hc, hlink⟩

theorem corresponds_client (h : Corresponds K datagrams s G) (hstray : NoReplies datagrams)
    (hcall : K (.handshake host this candidate)) (ht : G t = .trying host candidate.ipAddress step)
    {a : RuntimeAct} (hmay : MayTry candidate step a) {x : a.Answer}
    (hexec : s.execClient host e (.method this a) = some (x, s')) :
    Corresponds K datagrams s'
      (Function.update G t (.trying host candidate.ipAddress (step.acted a x))) := by
  have hfd : fdsOf G host t = step.fd := by simp [fdsOf, ht, Stage.fdOn]
  -- The thread stays where it is, or only forgets.
  have hsame : Corresponds K datagrams s
      (Function.update G t (.trying host candidate.ipAddress step)) := by
    rwa [← ht, Function.update_eq_self]
  have hclosed : ∀ fd, step.fd = some fd →
      Handshakes.Owned (closed fd (s.clients host).sockets) [] (Function.update (fdsOf G host) t none) :=
    fun fd hstep => (h.sockets.owned host).closed (hfd.trans hstep)
  cases a with
  | socket =>
    cases step with
    | ready =>
      obtain ⟨c, client, hc, hrun, rfl⟩ := exec_local hexec
      simp only [CommsState.execMethod] at hrun
      split at hrun
      · rename_i hfresh
        cases hrun
        have hlinks : ∀ r c, (s.clients host).runtimes.lookup r = some c → ∀ link ∈ c.activeLinks,
            (∃ c', (s.clients host).runtimes.lookup r = some c' ∧ link ∈ c'.activeLinks) ∨
            ∃ candidate fd, K (.handshake host r candidate) ∧ link = wifiLink candidate fd ∧
              AnsweredHello datagrams s host candidate.ipAddress :=
          fun r c hc link hlink => Or.inl ⟨c, hc, hlink⟩
        by_cases hneg : e.fd < 0
        · have howned : Handshakes.Owned (s.clients host).sockets []
              (Function.update (fdsOf G host) t none) := (h.sockets.owned host).dropped
          simp only [Step.acted, if_pos hneg]
          exact h.onHost ht rfl (by simp) howned hlinks
        · obtain ⟨hnonneg, hnew⟩ : 0 ≤ e.fd ∧ e.fd ∉ live (s.clients host).sockets := by
            rcases hfresh with heq | hfresh
            · exact absurd (heq ▸ by decide) hneg
            · exact hfresh
          have howned := (h.sockets.owned host).opened (t := t) hnonneg hnew
          simp only [Step.acted, if_neg hneg]
          exact h.onHost ht rfl (by simp) howned hlinks
      · cases hrun
    | _ => exact hmay.elim
  | linkDiscovered callback link =>
    cases step with
    | ready =>
      obtain ⟨c, client, hc, hrun, rfl⟩ := exec_local hexec
      cases hrun
      have howned : Handshakes.Owned (s.clients host).sockets []
          (Function.update (fdsOf G host) t none) := (h.sockets.owned host).dropped
      exact h.onHost ht rfl (by simp [Step.acted]) howned fun r c hc link hlink => Or.inl ⟨c, hc, hlink⟩
    | _ => exact hmay.elim
  | close fd =>
    have hstep := fd_of_mayTry_close hmay
    obtain ⟨c, client, hc, hrun, rfl⟩ := exec_local hexec
    cases hrun
    rw [acted_close]
    exact h.onHost ht rfl (by simp) (hclosed fd hstep) fun r c hc link hlink => Or.inl ⟨c, hc, hlink⟩
  | publish link =>
    cases step with
    | answered fd =>
      obtain rfl : link = wifiLink candidate fd := hmay
      obtain ⟨c, client, hc, hrun, rfl⟩ := exec_local hexec
      rw [acted_publish]
      simp only [CommsState.execMethod] at hrun
      split at hrun
      · cases hrun
        have hnonneg := (h.sockets.owned host).sane.nonneg_of_live
          ((h.sockets.owned host).isLive t fd hfd)
        have howned := hclosed fd rfl
        refine h.onHost ht rfl (by simp) ?_ fun r c hc link hlink => Or.inl ⟨c, hc, hlink⟩
        show Handshakes.Owned (closeIfOpen _ fd) _ _
        rw [closeIfOpen, if_pos hnonneg]
        exact howned
      · cases hrun
        refine h.onHost ht rfl (by simp) (h.sockets.owned host).dropped ?_
        intro r c' hc' link hlink
        rcases Finmap.lookup_insert_eq_some.mp hc' with ⟨rfl, rfl⟩ | ⟨-, hold⟩
        · rcases List.mem_append.mp hlink with hlink | hlink
          · exact Or.inl ⟨c, hc, hlink⟩
          · obtain rfl := List.mem_singleton.mp hlink
            exact Or.inr ⟨candidate, fd, hcall, rfl, h.proven.answered t host _ fd ht⟩
        · exact Or.inl ⟨c', hold, hlink⟩
    | _ => exact hmay.elim
  | setRemote fd address =>
    cases step with
    | opened fd' =>
      obtain ⟨rfl, rfl⟩ := hmay
      simp only [Network.execClient] at hexec
      split at hexec <;> cases hexec
      · constructor
        · apply (h.traffic.setSocket _).stage
          · rintro host d hg
            cases hg
          · show (0 : Nat) ≠ kUdpPort
            decide
        · exact h.sockets.setSocket ht rfl rfl rfl
        · refine h.proven.keep (fun _ hx => hx) (fun _ => rfl) ?_
          rintro host address fd hg
          cases hg
      · exact hsame
    | _ => exact hmay.elim
  | connect fd =>
    cases step with
    | bound fd' =>
      obtain rfl : fd = fd' := hmay
      simp only [Network.execClient] at hexec
      split at hexec
      · split at hexec
        · cases hexec
        · rename_i hport
          obtain ⟨socket, hsocket, hrun⟩ := Option.map_eq_some_iff.mp hexec
          cases hrun
          obtain ⟨socket', hsocket', hremote⟩ := h.sockets.remote t host _ _ fd ht rfl
          rw [hsocket, Option.some.injEq] at hsocket'
          subst hsocket'
          constructor
          · apply (h.traffic.setSocket _).stage
            · rintro host d hg
              cases hg
            · exact hport
          · exact h.sockets.setSocket ht rfl rfl hremote
          · refine h.proven.keep (fun _ hx => hx) (fun _ => rfl) ?_
            rintro host address fd hg
            cases hg
      · cases hexec
        exact hsame
    | _ => exact hmay.elim
  | send fd =>
    cases step with
    | connected fd' =>
      simp only [Network.execClient] at hexec
      split at hexec
      · obtain ⟨socket, hsocket, hrun⟩ := Option.map_eq_some_iff.mp hexec
        cases hrun
        exact ⟨hsame.traffic.hello, ⟨hsame.sockets.owned, hsame.sockets.remote⟩,
          hsame.proven.answered, hsame.proven.links⟩
      · cases hexec
        exact hsame
    | _ => exact hmay.elim
  | recv fd =>
    cases step with
    | connected fd' =>
      obtain rfl : fd = fd' := hmay
      simp only [Network.execClient] at hexec
      obtain ⟨socket, hsocket, hrun⟩ := Option.bind_eq_some_iff.mp hexec
      obtain ⟨socket', hsocket', hremote⟩ := h.sockets.remote t host _ _ fd ht rfl
      rw [hsocket, Option.some.injEq] at hsocket'
      subst hsocket'
      unfold Network.recvReply at hrun
      split at hrun
      · rename_i d harrival
        split at hrun
        · rename_i hd
          obtain ⟨hd, hdestination, hsource⟩ := hd
          rw [hremote] at hsource
          have hanswered := h.traffic.answered hstray hd (h.traffic.ports _ _ hsocket) hdestination hsource
          split at hrun <;> cases hrun
          · exact ⟨hsame.traffic.take d, ⟨hsame.sockets.owned, hsame.sockets.remote⟩,
              hsame.proven.answered, hsame.proven.links⟩
          · constructor
            · apply (h.traffic.take d).stage
              rintro host d hg
              cases hg
            · refine h.sockets.keep (fun _ => rfl) rfl ?_ ?_
              · intro host'
                rw [ht]
                rfl
              · rintro host address step fd hg hbound
                cases hg
                cases hbound
            · refine h.proven.keep (fun _ hx => hx) (fun _ => rfl) ?_
              rintro host address fd hg
              cases hg
              exact hanswered
        · cases hrun
      · cases hrun
        exact hsame
    | _ => exact hmay.elim
  | _ => cases step <;> exact hmay.elim

/-- A thread that has no socket goes to a stage without one. -/
theorem Sockets.idle (h : Sockets s G) (hclients : s'.clients = s.clients) (hsockets : s'.sockets = s.sockets)
    (ht : ∀ host, (G t).fdOn host = none) (hg : ∀ host, g.fdOn host = none) :
    Sockets s' (Function.update G t g) := by
  refine h.keep (fun _ => by rw [hclients]) hsockets (fun host => (hg host).trans (ht host).symm) ?_
  rintro host address step fd rfl hbound
  have hnone := hg host
  simp [Stage.fdOn, Step.fd_of_boundFd hbound] at hnone

theorem corresponds_server (h : Corresponds K datagrams s G) {a : UdpAct}
    (hmay : MayServe (G t) host a) {x : a.Answer} (hexec : s.execServer host e a = some (x, s')) :
    Corresponds K datagrams s' (Function.update G t (acted (G t) (.server host a) x)) := by
  have hsame : Corresponds K datagrams s (Function.update G t (G t)) := by
    rwa [Function.update_eq_self]
  cases a with
  | openServer | bind | isRunning | closeServer =>
    have ht : G t = .server host := hmay
    cases hexec
    have hstage : ∀ a x, a ≠ .recvmsg → acted (.server host) (.server host a) x = .server host := by
      intro a x ha
      cases a <;> first | rfl | exact absurd rfl ha
    rw [ht, hstage _ _ (by simp), ← ht]
    exact hsame
  | localInterfaceMac =>
    obtain ⟨request, ht⟩ : ∃ request, G t = .answering host request := hmay
    cases hexec
    rw [ht]
    show Corresponds K datagrams s (Function.update G t (.answering host request))
    rw [← ht]
    exact hsame
  | recvmsg =>
    have ht : G t = .server host := hmay
    have hnone : ∀ host', (G t).fdOn host' = none := by
      intro host'
      rw [ht]
      rfl
    simp only [Network.execServer] at hexec
    split at hexec
    · split at hexec <;> cases hexec
      rename_i d harrival hd
      rw [ht]
      constructor
      · exact h.traffic.receive hd.1 hd.2
      · exact h.sockets.idle rfl rfl hnone fun _ => rfl
      · refine h.proven.keep (fun _ hx => hx) (fun _ => rfl) ?_
        rintro host address fd hg
        cases hg
    · rename_i arrival hother
      cases hexec
      have hstage : acted (.server host) (.server host .recvmsg) e.arrival = .server host := by
        cases harrival : e.arrival with
        | datagram d => exact absurd harrival (hother d)
        | again | failed => rfl
      rw [ht, hstage, ← ht]
      exact hsame
  | sendto request reply =>
    have ht : G t = .answering host request := hmay
    have hnone : ∀ host', (G t).fdOn host' = none := by
      intro host'
      rw [ht]
      rfl
    rw [ht]
    simp only [Network.execServer] at hexec
    split at hexec <;> cases hexec
    · constructor
      · apply (h.traffic.reply ht reply).stage
        rintro host d hg
        cases hg
      · exact h.sockets.idle rfl rfl hnone fun _ => rfl
      · refine h.proven.keep (fun _ hx => List.mem_cons_of_mem _ hx) (fun _ => rfl) ?_
        rintro host address fd hg
        cases hg
    · constructor
      · apply h.traffic.stage
        rintro host d hg
        cases hg
      · exact h.sockets.idle rfl rfl hnone fun _ => rfl
      · refine h.proven.keep (fun _ hx => hx) (fun _ => rfl) ?_
        rintro host address fd hg
        cases hg

theorem Stage.AtRest.fdOn (h : g.AtRest) (host : String) : g.fdOn host = none := by
  cases g with
  | idle | server => rfl
  | answering => exact h.elim
  | trying host' address step =>
    cases step with
    | ready => simp [Stage.fdOn, Step.fd]
    | _ => exact h.elim

theorem Corresponds.atRest (h : Corresponds K datagrams s G) (ht : (G t).AtRest) (hg : g.AtRest) :
    Corresponds K datagrams s (Function.update G t g) := by
  constructor
  · apply h.traffic.stage
    rintro host d rfl
    exact hg.elim
  · exact h.sockets.idle rfl rfl ht.fdOn hg.fdOn
  · refine h.proven.keep (fun _ hx => hx) (fun _ => rfl) ?_
    rintro host address fd rfl
    exact hg.elim

theorem corresponds_sound (hstray : NoReplies datagrams) :
    answerDiscipline.SoundAtRest Stage.AtRest (fun s _ G => Corresponds K datagrams s G)
      fun _ _ _ f _ => K f where
  rest _ _ _ hg := hg
  start s H G t f h _ hrest := by
    apply h.atRest hrest
    cases f <;> trivial
  lock s H G t f l m _ h _ hmay := hmay.elim
  unlock s H G t l m _ h _ hmay := hmay.elim
  call f p h g := by
    rintro ⟨host, rfl, rfl⟩
    exact keeps_rounds
  act s H G t f a e x s' _ h hcall hmay hexec := by
    constructor
    · trivial
    cases a with
    | server host a => exact corresponds_server h hmay hexec
    | client host a =>
      cases a with
      | method this a =>
        obtain ⟨candidate, step, rfl, ht, hmay⟩ := hmay
        have hclient := corresponds_client h hstray hcall ht hmay hexec
        show Corresponds K datagrams s' (Function.update G t (acted (G t) (.client host (.method this a)) x))
        rwa [ht]
      | _ => exact hmay.elim

/-! ## Runs -/

/-- The calls of the run are of the kind `K`, and every link was answered. -/
structure Answering (K : NetworkCall → Prop) (datagrams : List Datagram) (w : World networkSystem)
    (G : Tid → Stage) : Prop where
  follows : answerDiscipline.FollowsAtRest Stage.AtRest (fun s _ G => Corresponds K datagrams s G) w G
  calls : w.Runs K

theorem Answering.next {w : World networkSystem} (h : Answering K datagrams w G)
    (hstray : NoReplies datagrams) {op : Op networkSystem} (hop : w.enabled op = true)
    (hcall : ∀ t f, op = .start t f → f.Talks ∧ K f) :
    Answering K datagrams (w.next op) (answerDiscipline.track w G op) := by
  constructor
  · apply h.follows.next (corresponds_sound hstray) answers_cover hop
    cases op with
    | start t f => exact (hcall t f rfl).1
    | run t e => exact fun f p hthread => h.calls t f p hthread
  · exact h.calls.next hop fun t f heq => (hcall t f heq).2

end Correspondence

/-- No sockets, and no links. -/
structure CommsState.Unlinked (s : CommsState) : Prop where
  sockets : s.sockets = []
  links : ∀ r c, s.runtimes.lookup r = some c → c.activeLinks = []

theorem CommsState.unlinked_startedWith (callbacks : CallbackState) :
    (CommsState.startedWith callbacks).Unlinked where
  sockets := rfl
  links r c hc := by
    have hmem : r ∈ (CommsState.startedWith callbacks).runtimes := Finmap.mem_iff.mpr ⟨c, hc⟩
    obtain rfl : r = 0 := (Finmap.mem_singleton _ _ _).mp hmem
    have hfirst : c = { running := true, callbacks } :=
      Option.some.inj (hc.symm.trans Finmap.lookup_singleton_eq)
    rw [hfirst]

/-- Every link was made by a handshake of the run to a host where a server has answered. -/
def LinksAnswered (datagrams : List Datagram) (ops : List (Op networkSystem))
    (w : World networkSystem) : Prop :=
  ∀ host r c, (w.state.clients host).runtimes.lookup r = some c → ∀ link ∈ c.activeLinks,
    ∃ t candidate fd, (Op.start t (NetworkCall.handshake host r candidate) : Op networkSystem) ∈ ops ∧ link = wifiLink candidate fd ∧
      AnsweredHello datagrams w.state host candidate.ipAddress

/-- The hello datagram of the client, from the port that its socket has. -/
def asked : Datagram := ⟨⟨"10.0.0.1", 40000⟩, ⟨"10.0.0.2", kUdpPort⟩, kHelloPayload⟩

/-- A handshake, and the server that replies to it. -/
def askAndAnswer : List (Op networkSystem) :=
  [.start 0 (.handshake "10.0.0.1" 0 ⟨⟨"aa"⟩, "wlan0", "10.0.0.2"⟩), .run 0 { fd := 5 }, .run 0 {},
    .run 0 { port := 40000 }, .run 0 {}] ++ serveOnce 1 asked ++
  [.run 0 { arrival := .datagram (Replies.answer asked) }, .run 0 {}]

end SensorLib.Comms
