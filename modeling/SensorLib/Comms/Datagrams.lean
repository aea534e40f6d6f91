import SensorLib.Comms.Programs
import SensorLib.Threads.Discipline

/-! # Hosts that send datagrams to each other

Each host may run UDP servers and attempt Wi-Fi handshakes. A datagram in flight
is delivered at most once, at any time or never.
-/

namespace SensorLib.Comms

open Threads

def kUdpPort : Nat := 37020

structure Endpoint where
  host : String
  port : Nat
  deriving DecidableEq, Repr

structure Datagram where
  source : Endpoint
  destination : Endpoint
  payload : String
  deriving DecidableEq, Repr

/-- A socket of a client, with the address of its peer and the port that `connect` gave it. -/
structure ClientSocket where
  remote : String
  port : Nat := 0
  deriving DecidableEq, Repr

/-- The last two fields are history: all datagrams that were ever in flight, and those that a
server has replied to. -/
structure Network where
  clients : String → CommsState
  sockets : String × Int → Option ClientSocket := fun _ => none
  inFlight : List Datagram
  sent : List Datagram
  replies : List Datagram := []

/-- What `recvmsg` returns. -/
inductive Arrival
  | datagram (datagram : Datagram)
  | again
  | failed
  deriving DecidableEq, Repr

/-- What the environment chooses in a step. -/
structure NetworkChoice extends Choice where
  port : Nat := 0
  arrival : Arrival := .again
  localMac : String := ""

/-- The acts of `udp_server_loop`. The address of a reply is that of the request. -/
inductive UdpAct
  | openServer
  | bind
  | isRunning
  | recvmsg
  | localInterfaceMac
  | sendto (request : Datagram) (reply : String)
  | closeServer
  deriving DecidableEq

@[reducible] def UdpAct.Answer : UdpAct → Type
  | .openServer | .bind | .isRunning => Bool
  | .recvmsg => Arrival
  | .localInterfaceMac => String
  | .sendto .. | .closeServer => Unit

inductive NetworkAct
  | client (host : String) (act : CommsAct)
  | server (host : String) (act : UdpAct)
  deriving DecidableEq

@[reducible] def NetworkAct.Answer : NetworkAct → Type
  | .client _ act => act.Answer
  | .server _ act => act.Answer

/-- What threads of the hosts run. -/
inductive NetworkCall
  | client (host : String) (f : Call)
  | handshake (host : String) (this : RuntimePtr) (candidate : WifiCandidate)
  | udpServerLoop (host : String)
  | udpServerRounds (host : String)
  deriving DecidableEq, Repr

@[reducible] def networkSignature : Signature where
  Lock := Mutex
  Act := NetworkAct
  Answer := NetworkAct.Answer
  Label := NetworkCall
  Result := CallResult

abbrev NetworkProgram (α : Type) := Prog networkSignature α

/-- The programs of a runtime on one of the hosts. -/
def hostReading (host : String) : commsSignature.Reading networkSignature where
  lock l := l
  act := .client host
  answer _ x := x
  label := .client host
  result r := r

def onHost {α : Type} (host : String) (p : Program α) : NetworkProgram α :=
  p.translate (hostReading host)

def udp (host : String) (a : UdpAct) : NetworkProgram a.Answer :=
  Prog.perform (S := networkSignature) (.server host a)

/-! ## What the acts do -/

namespace Network

variable (s : Network) (host : String)

def send (datagram : Datagram) : Network :=
  { s with
    inFlight := datagram :: s.inFlight
    sent := datagram :: s.sent }

def take (datagram : Datagram) : Network :=
  { s with inFlight := s.inFlight.erase datagram }

def setSocket (socketFd : Int) (socket : ClientSocket) : Network :=
  { s with sockets := Function.update s.sockets (host, socketFd) (some socket) }

/-- A connected socket takes only what its peer has sent to it. An empty payload, an error and a
timeout are all answered by `none`. -/
def recvReply (e : NetworkChoice) (socket : ClientSocket) : Option (Option String × Network) :=
  match e.arrival with
  | .datagram d =>
    if d ∈ s.inFlight ∧ d.destination = ⟨host, socket.port⟩ ∧ d.source = ⟨socket.remote, kUdpPort⟩ then
      some (if d.payload.isEmpty then none else some d.payload, s.take d)
    else none
  | _ => some (none, s)

def execClient (e : NetworkChoice) : (act : CommsAct) → Option (act.Answer × Network)
  | .method _ (.setRemote socketFd address) =>
    if e.ok then some (true, s.setSocket host socketFd { remote := address }) else some (false, s)
  -- A client has a port of its own, which is not that of the servers.
  | .method _ (.connect socketFd) =>
    if e.ok then
      if e.port = kUdpPort then none
      else (s.sockets (host, socketFd)).map fun socket =>
        (true, s.setSocket host socketFd { socket with port := e.port })
    else some (false, s)
  | .method _ (.send socketFd) =>
    if e.ok then
      (s.sockets (host, socketFd)).map fun socket =>
        (true, s.send ⟨⟨host, socket.port⟩, ⟨socket.remote, kUdpPort⟩, kHelloPayload⟩)
    else some (false, s)
  | .method _ (.recv socketFd) => (s.sockets (host, socketFd)).bind (s.recvReply host e)
  | act =>
    ((s.clients host).exec e.toChoice act).map fun (x, client) =>
      (x, { s with clients := Function.update s.clients host client })

def execServer (e : NetworkChoice) : (act : UdpAct) → Option (act.Answer × Network)
  -- Whether `stop` was called is left to the environment.
  | .openServer | .bind | .isRunning => some (e.ok, s)
  | .recvmsg =>
    match e.arrival with
    | .datagram d =>
      if d ∈ s.inFlight ∧ d.destination = ⟨host, kUdpPort⟩ then some (.datagram d, s.take d) else none
    | arrival => some (arrival, s)
  | .localInterfaceMac => some (e.localMac, s)
  | .sendto request reply =>
    if e.ok then
      some ((), { s.send ⟨⟨host, kUdpPort⟩, request.source, reply⟩ with
                  replies := request :: s.replies })
    else some ((), s)
  | .closeServer => some ((), s)

def exec (e : NetworkChoice) : (act : NetworkAct) → Option (act.Answer × Network)
  | .client host act => s.execClient host e act
  | .server host act => s.execServer host e act

end Network

/-! ## What the threads run -/

/-- The `while` loop of a server. Nothing is asked of the datagram that it replies to. -/
def udpServerRounds (host : String) : NetworkProgram CallResult := do
  if ← udp host .isRunning then
    match ← udp host .recvmsg with
    | .datagram request =>
      let localMac ← udp host .localInterfaceMac
      udp host (.sendto request (kReplyPrefix ++ localMac))
      Prog.invoke (S := networkSignature) (.udpServerRounds host)
    | .again => Prog.invoke (S := networkSignature) (.udpServerRounds host)
    | .failed => pure .done
  else pure .done

def udpServerLoop (host : String) : NetworkProgram CallResult := do
  if ← udp host .openServer then
    if !(← udp host .bind) then udp host .closeServer
    else
      let _ ← Prog.invoke (S := networkSignature) (.udpServerRounds host)
      udp host .closeServer
  pure .done

def NetworkCall.body : NetworkCall → NetworkProgram CallResult
  | .client host f => onHost host f.body
  | .handshake host this candidate => do
    onHost host (CommsRuntime.tryPeer this true (.wifi candidate))
    pure .done
  | .udpServerLoop host => Comms.udpServerLoop host
  | .udpServerRounds host => Comms.udpServerRounds host

/-- The threads of all hosts. -/
@[reducible] def networkSystem : System networkSignature where
  State := Network
  Env := NetworkChoice
  exec act e s := s.exec e act
  body := NetworkCall.body
  reentrant _ := false

end SensorLib.Comms
