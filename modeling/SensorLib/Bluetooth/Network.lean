import SensorLib.Bluetooth.Ports
import SensorLib.Threads.World

/-! # Bluetooth devices that connect to each other

Any number of adapters on any number of devices. The system connects sockets by
address and PSM. Only adapters listen at the PSMs that are derived from addresses.

What an adapter has is a socket here and not the number of a descriptor. This is
what the code does as long as no number is closed that the system may have given
to another socket since. The runs that are looked at are those in which it is so.
-/

namespace SensorLib.Bluetooth

open Threads CString

abbrev AdapterId := Nat

/-- Which sockets the system has connected: the other one is that of an adapter, or of a program
that takes connection requests. -/
inductive DataSocket
  | closed
  | unconnected
  | connected (other : Option AdapterId)
  deriving DecidableEq, Repr

/-- The connections in the backlog come from adapters, each from one of their two sockets. -/
inductive ListeningSocket
  | closed
  | unbound
  | bound (addr : SockaddrL2)
  | listening (addr : SockaddrL2) (backlog : List (AdapterId × Channel))
  deriving DecidableEq, Repr

namespace ListeningSocket

def boundAddr : ListeningSocket → Option SockaddrL2
  | .bound addr | .listening addr _ => some addr
  | .closed | .unbound => none

def backlog : ListeningSocket → List (AdapterId × Channel)
  | .listening _ backlog => backlog
  | .closed | .unbound | .bound _ => []

end ListeningSocket

structure Endpoint where
  adapter : BluetoothAdapter
  connected : Bool := false
  sockfd : DataSocket := .unconnected
  sockfdRequest : DataSocket := .unconnected
  sockfdListen : ListeningSocket := .unbound
  deriving DecidableEq, Repr

def Endpoint.socket (ep : Endpoint) : Channel → DataSocket
  | .comms => ep.sockfd
  | .request => ep.sockfdRequest

def Endpoint.setSocket (ep : Endpoint) (channel : Channel) (socket : DataSocket) : Endpoint :=
  match channel with
  | .comms => { ep with sockfd := socket }
  | .request => { ep with sockfdRequest := socket }

/-- The adapters of all devices. -/
abbrev Network := List Endpoint

/-- The checks in front of a `connect`: there may be no time left, the socket may not be ready in
time, and then again there may be no time left. -/
inductive Wait
  | expired
  | notReady
  | expiredReady
  | ready
  deriving DecidableEq, Repr

/-- What the environment chooses in a step. -/
structure PairChoice where
  ok : Bool := true
  turn : Bool := false
  wait : Wait := .ready
  failure : Option ConnectErrno := none
  target : Option AdapterId := none
  psm : UInt16 := 0

inductive EndpointAct
  | setConnected (connected : Bool)
  | isConnected
  | isListener
  | timeLeft
  | wait (channel : Channel)
  | connect (channel : Channel)
  | setupRemoteAddr
  | bind
  | listen
  | accept
  | closeSocket
  | createSocket
  | isOpen
  | closeRequest
  | closeListening
  deriving DecidableEq

@[reducible] def EndpointAct.Answer : EndpointAct → Type
  | .isConnected | .isListener | .timeLeft | .bind | .listen | .accept | .isOpen => Bool
  | .wait _ => Wait
  | .connect _ => Option ConnectErrno
  | .setConnected _ | .setupRemoteAddr | .closeSocket | .createSocket | .closeRequest
  | .closeListening => Unit

inductive PairAct
  | turn
  | endpoint (this : AdapterId) (act : EndpointAct)
  deriving DecidableEq

@[reducible] def PairAct.Answer : PairAct → Type
  | .turn => Bool
  | .endpoint _ act => act.Answer

inductive PairCall
  | conn (this : AdapterId)
  | disconn (this : AdapterId)
  | destructor (this : AdapterId)
  deriving DecidableEq, Repr

@[reducible] def pairSignature : Signature where
  Lock := Empty
  Act := PairAct
  Answer := PairAct.Answer
  Label := PairCall
  Result := Int

abbrev PairProgram (α : Type) := Prog pairSignature α

def endpointAct (this : AdapterId) (a : EndpointAct) : PairProgram a.Answer :=
  Prog.perform (S := pairSignature) (.endpoint this a)

/-! ## What the acts do -/

/-- A PSM that the system lets a socket be bound to. -/
def L2capValid (psm : UInt16) : Prop := psm % 2 = 1 ∧ psm &&& 0x100 = 0

instance (psm : UInt16) : Decidable (L2capValid psm) :=
  inferInstanceAs (Decidable (psm % 2 = 1 ∧ psm &&& 0x100 = 0))

variable (lib : Libraries)

/-- The address that a socket dials. -/
def Endpoint.remote (ep : Endpoint) : Channel → SockaddrL2
  | .comms => ep.adapter.remoteAddr
  | .request => ⟨AF_BLUETOOTH, lib.htobs bratislavaPort, lib.str2ba ep.adapter.macAddress⟩

namespace Network

variable (s : Network) (this : AdapterId) (ep : Endpoint)

/-- A connection waits for `accept` at a socket that listens at the address. -/
def connect (e : PairChoice) (channel : Channel) : Option (Option ConnectErrno × Network) :=
  match e.failure with
  | some errno => some (some errno, s)
  | none =>
    if ep.socket channel = .unconnected then
      match e.target with
      | none =>
        if (ep.remote lib channel).psm = lib.htobs bratislavaPort then
          some (none, s.set this (ep.setSocket channel (.connected none)))
        else none
      | some other =>
        match s[other]? with
        | some ⟨adapter, connected, sockfd, sockfdRequest, .listening addr backlog⟩ =>
          if addr = ep.remote lib channel then
            some (none,
              (s.set other
                ⟨adapter, connected, sockfd, sockfdRequest, .listening addr (backlog ++ [(this, channel)])⟩).modify
                this (·.setSocket channel (.connected (some other))))
          else none
        | _ => none
    else none

def bind (e : PairChoice) : Option (Bool × Network) :=
  match ep.sockfdListen with
  | .unbound =>
    if e.ok then
      if lib.htobs e.psm = ep.adapter.localAddr.psm ∧ L2capValid e.psm ∧
          ∀ other ∈ s, other.sockfdListen.boundAddr ≠ some ep.adapter.localAddr then
        some (true, s.set this { ep with sockfdListen := .bound ep.adapter.localAddr })
      else none
    else some (false, s)
  | _ => some (false, s)

def accept (e : PairChoice) : Option (Bool × Network) :=
  if e.ok then
    match ep.sockfdListen with
    | .listening addr ((other, _) :: backlog) =>
      some (true,
        s.set this { ep with sockfd := .connected (some other), sockfdListen := .listening addr backlog })
    | _ => none
  else some (false, s)

def execEndpoint (e : PairChoice) : (a : EndpointAct) → Option (a.Answer × Network)
  | .setConnected connected => some ((), s.set this { ep with connected })
  | .isConnected => some (ep.connected, s)
  | .isListener => some (ep.adapter.isListener, s)
  | .timeLeft => some (e.ok, s)
  | .wait _ => some (e.wait, s)
  | .connect channel => s.connect lib this ep e channel
  | .setupRemoteAddr => some ((), s.set this { ep with adapter := ep.adapter.setupRemoteAddr lib })
  | .bind => s.bind lib this ep e
  | .listen =>
    match ep.sockfdListen with
    | .bound addr =>
      if e.ok then some (true, s.set this { ep with sockfdListen := .listening addr [] })
      else some (false, s)
    | _ => some (false, s)
  | .accept => s.accept this ep e
  | .closeSocket => some ((), s.set this { ep with sockfd := .closed })
  | .createSocket => some ((), s.set this { ep with sockfd := if e.ok then .unconnected else .closed })
  | .isOpen => some (decide (ep.sockfd ≠ .closed), s)
  | .closeRequest => some ((), s.set this { ep with sockfdRequest := .closed })
  | .closeListening => some ((), s.set this { ep with sockfdListen := .closed })

def exec (e : PairChoice) : (a : PairAct) → Option (a.Answer × Network)
  | .turn => some (e.turn, s)
  | .endpoint this a => s[this]?.bind fun ep => s.execEndpoint lib this ep e a

end Network

/-! ## What the threads run -/

namespace Adapters

/-- The loop of `SendConnectionRequest`, with the rounds that are left. Its result is not used. -/
def requestLoop (this : AdapterId) : Nat → PairProgram Unit
  | 0 => pure ()
  | rounds + 1 => do
    if ← endpointAct this .isConnected then pure ()
    else
      match ← endpointAct this (.wait .request) with
      | .expired => pure ()
      | .notReady => requestLoop this rounds
      | .expiredReady => endpointAct this .closeRequest
      | .ready =>
        match ← endpointAct this (.connect .request) with
        | some .ECONNREFUSED | some .EHOSTUNREACH | some .EHOSTDOWN | some .EINVAL =>
          if ← endpointAct this .timeLeft then requestLoop this rounds else pure ()
        | none | some .EISCONN | some .ETIMEDOUT | some .EAGAIN | some .other => pure ()

/-- The loop of `ConnectToPeer`. -/
def connectLoop (this : AdapterId) : Nat → PairProgram Unit
  | 0 => pure ()
  | rounds + 1 => do
    match ← endpointAct this (.wait .comms) with
    | .expired | .notReady | .expiredReady => pure ()
    | .ready =>
      match ← endpointAct this (.connect .comms) with
      | none => endpointAct this (.setConnected true)
      | some .ECONNREFUSED | some .EHOSTUNREACH | some .EHOSTDOWN =>
        if ← endpointAct this .timeLeft then connectLoop this rounds else pure ()
      | some .EINVAL =>
        endpointAct this .setupRemoteAddr
        if ← endpointAct this .timeLeft then connectLoop this rounds else pure ()
      | some .EISCONN | some .ETIMEDOUT | some .EAGAIN | some .other => pure ()

def sendConnectionRequest (this : AdapterId) : PairProgram Unit := requestLoop this maxRetries

def connectToPeer (this : AdapterId) : PairProgram Unit := connectLoop this maxRetries

def listenForPeer (this : AdapterId) : PairProgram Unit := do
  if ← endpointAct this .timeLeft then
    if ← endpointAct this .bind then
      if ← endpointAct this .listen then
        if ← endpointAct this .accept then endpointAct this (.setConnected true)

/-- The request runs in a thread of its own. -/
def conn (this : AdapterId) : PairProgram Int := do
  endpointAct this (.setConnected false)
  let isListener ← endpointAct this .isListener
  Prog.interleave (S := pairSignature) .turn (fun x => x) (sendConnectionRequest this)
    (if isListener then listenForPeer this else connectToPeer this)
  if ← endpointAct this .isConnected then pure 0 else pure (-1)

def disconn (this : AdapterId) : PairProgram Int := do
  endpointAct this (.setConnected false)
  endpointAct this .closeSocket
  endpointAct this .createSocket
  if ← endpointAct this .isOpen then pure 0 else pure (-1)

def destructor (this : AdapterId) : PairProgram Int := do
  endpointAct this .closeRequest
  endpointAct this .closeListening
  endpointAct this .closeSocket
  pure 0

end Adapters

def PairCall.body : PairCall → PairProgram Int
  | .conn this => Adapters.conn this
  | .disconn this => Adapters.disconn this
  | .destructor this => Adapters.destructor this

@[reducible] def pairSystem : System pairSignature where
  State := Network
  Env := PairChoice
  exec a e s := Network.exec lib s e a
  body := PairCall.body
  reentrant _ := false

/-! ## The runs -/

def PairCall.this : PairCall → AdapterId
  | .conn this | .disconn this | .destructor this => this

variable {lib} in
/-- A call starts on an adapter that no thread is in a call on. -/
def OneAtATime (w : World (pairSystem lib)) : Op (pairSystem lib) → Prop
  | .start _ f => ∀ t g p, w.thread t = some (g, p) → g.this ≠ f.this
  | .run .. => True

variable {lib} in
/-- The step is not the one by which `SendConnectionRequest` closes a socket whose number it keeps. -/
def KeepsRequest (w : World (pairSystem lib)) : Op (pairSystem lib) → Prop
  | .start .. => True
  | .run t _ => ∀ this k, w.thread t ≠ some (.conn this, .act (.endpoint this .closeRequest) k)

variable {lib} in
/-- A run in which the sockets of an adapter are its own. The calls on one adapter come one after
the other and the destructor last, and no request socket is closed before. -/
structure Orderly (w : World (pairSystem lib)) (ops : List (Op (pairSystem lib))) : Prop where
  oneAtATime : (machine (pairSystem lib)).Each OneAtATime w ops
  destructorLast : ∀ before after t this, ops = before ++ .start t (.destructor this) :: after →
    ∀ u f, .start u f ∈ after → f.this ≠ this
  keepsRequest : (machine (pairSystem lib)).Each KeepsRequest w ops

/-! ## The devices -/

/-- The devices that an adapter is between. The address of its own device can be read. -/
structure Placement where
  own : Bdaddr
  peer : Bdaddr
  hci : HciOutcome
  read : hci.Gives own

/-- An adapter after its constructor. A socket may not have been created. -/
structure Endpoint.New (p : Placement) (ep : Endpoint) : Prop where
  adapter : ep.adapter = .new lib (lib.ba2str p.peer) p.hci
  sockfd : ∀ other, ep.sockfd ≠ .connected other
  sockfdListen : ep.sockfdListen = .unbound ∨ ep.sockfdListen = .closed

structure Network.Started (population : List Placement) (s : Network) : Prop where
  length : s.length = population.length
  endpoints : ∀ i : AdapterId, ∀ p ∈ population[i]?, ∀ ep ∈ s[i]?, Endpoint.New lib p ep

/-- The adapters are for each other. -/
def Mirrored (population : List Placement) (i j : AdapterId) : Prop :=
  ∃ p ∈ population[i]?, ∃ q ∈ population[j]?, q.own = p.peer ∧ q.peer = p.own

/-- Every data socket that is connected leads to an adapter for which this one is the peer. -/
def Paired (population : List Placement) (s : Network) : Prop :=
  ∀ i ep other, s[i]? = some ep → ep.sockfd = .connected other →
    ∃ j ∈ other, Mirrored population i j

def Placement.Listens (p : Placement) : Prop := lib.ba2str p.own < lib.ba2str p.peer

/-- The number of the PSM at which the adapter listens, which is derived from the peer. -/
def Placement.port (p : Placement) : UInt16 := generateUniquePort lib (lib.ba2str p.peer)

/-- Where an adapter dials its peer, no adapter there listens for another device at that PSM. -/
def PortsDistinct (population : List Placement) : Prop :=
  ∀ p ∈ population, ∀ q ∈ population, ¬ p.Listens lib → q.Listens lib → q.own = p.peer →
    L2capValid (q.port lib) → q.port lib = generateUniquePort lib (lib.ba2str p.own) → q.peer = p.own

/-- As documented: an address is read from what is printed of it, and the byte order of a number can
be undone. -/
structure Libraries.Faithful : Prop where
  str2ba : ∀ a, lib.str2ba (lib.ba2str a) = a
  htobs : Function.Injective lib.htobs

end SensorLib.Bluetooth
