import SensorLib.Comms.Programs
import SensorLib.Threads.Discipline

/-! # Two hosts and the connections between them

One host attempts Bluetooth handshakes and publishes links, the other runs the
Bluetooth server. The socket calls of both act on the same connections, so that
an answer reaches the client only if the server has sent it.
-/

namespace SensorLib.Comms

open Threads

abbrev ConnectionId := Nat

/-- The end of a connection on the host of the server. -/
inductive ServerEnd
  | waiting
  | accepted
  | closed
  deriving DecidableEq, Repr

/-- The messages that are on their way. The last field is history: the server has sent one. -/
structure Connection where
  toServer : List String := []
  toClient : List String := []
  serverEnd : ServerEnd := .waiting
  replied : Bool := false
  deriving DecidableEq, Repr

/-- The state of both hosts. A number that the client has used for several sockets belongs to the
last of their connections. -/
structure Hosts where
  client : CommsState
  running : Bool := true
  begun : Bool := false
  listening : Bool := false
  connections : ConnectionId → Connection := fun _ => {}
  made : Nat := 0
  connectionOf : Int → Option ConnectionId := fun _ => none

/-- What `accept` returns. -/
inductive Accepted
  | client (connection : ConnectionId)
  | again
  | failed
  deriving DecidableEq, Repr

/-- What the environment chooses in a step, on either host. -/
structure HostChoice extends Choice where
  accepted : Accepted := .again
  address : Option String := some ""

/-- The acts of `bluetooth_server_loop`. Its descriptors are named by their connections. -/
inductive ServerAct
  | begin
  | isRunning
  | stopRunning
  | openServer
  | bind
  | listen
  | accept
  | recv (client : ConnectionId)
  | getsockname (client : ConnectionId)
  | send (client : ConnectionId) (reply : String)
  | close (client : ConnectionId)
  | closeServer
  deriving DecidableEq

@[reducible] def ServerAct.Answer : ServerAct → Type
  | .isRunning | .openServer | .bind | .listen | .recv _ => Bool
  | .accept => Accepted
  | .getsockname _ => Option String
  | .begin | .stopRunning | .send .. | .close _ | .closeServer => Unit

inductive HostAct
  | client (act : CommsAct)
  | server (act : ServerAct)
  deriving DecidableEq

@[reducible] def HostAct.Answer : HostAct → Type
  | .client act => act.Answer
  | .server act => act.Answer

/-- What threads of the two hosts run. -/
inductive HostCall
  | client (f : Call)
  | handshake (this : RuntimePtr) (device : BluetoothDeviceInfoBase)
  | stopClient (this : RuntimePtr)
  | bluetoothServerLoop
  | bluetoothServerRounds
  | stopServer
  deriving DecidableEq, Repr

@[reducible] def hostSignature : Signature where
  Lock := Mutex
  Act := HostAct
  Answer := HostAct.Answer
  Label := HostCall
  Result := CallResult

abbrev HostProgram (α : Type) := Prog hostSignature α

/-- The programs of a runtime on the host of the client. -/
def clientReading : commsSignature.Reading hostSignature where
  lock l := l
  act := .client
  answer _ x := x
  label := .client
  result r := r

def onClient {α : Type} (p : Program α) : HostProgram α := p.translate clientReading

def server (a : ServerAct) : HostProgram a.Answer :=
  Prog.perform (S := hostSignature) (.server a)

/-! ## What the acts do -/

namespace Hosts

variable (s : Hosts)

def setConnection (c : ConnectionId) (connection : Connection) : Hosts :=
  { s with connections := Function.update s.connections c connection }

/-- `connect` of a socket of the client: a connection that waits for `accept`. -/
def connect (socketFd : Int) : Hosts :=
  { s.setConnection s.made {} with
    connectionOf := Function.update s.connectionOf socketFd (some s.made)
    made := s.made + 1 }

/-- An end of file, an error or a timeout are all answered by `none`. -/
def recvReply (c : ConnectionId) : Option (Option String × Hosts) :=
  match (s.connections c).toClient with
  | [] => none
  | reply :: replies =>
    some (some reply, s.setConnection c { s.connections c with toClient := replies })

def execClient (e : HostChoice) : (act : CommsAct) → Option (act.Answer × Hosts)
  | .method _ (.connect socketFd) =>
    if e.ok then if s.listening then some (true, s.connect socketFd) else none else some (false, s)
  | .method _ (.send socketFd) =>
    if e.ok then
      (s.connectionOf socketFd).map fun c =>
        (true, s.setConnection c
          { s.connections c with toServer := (s.connections c).toServer ++ [kHelloPayload] })
    else some (false, s)
  | .method _ (.recv socketFd) =>
    if e.ok then (s.connectionOf socketFd).bind s.recvReply else some (none, s)
  | act => (s.client.exec e.toChoice act).map fun (x, client) => (x, { s with client })

def execServer (e : HostChoice) : (act : ServerAct) → Option (act.Answer × Hosts)
  -- `start` makes one thread that runs the loop.
  | .begin => if s.begun then none else some ((), { s with begun := true })
  | .isRunning => some (s.running, s)
  | .stopRunning => some ((), { s with running := false })
  | .openServer | .bind => some (e.ok, s)
  | .listen => some (e.ok, { s with listening := e.ok })
  | .accept =>
    match e.accepted with
    | .client c =>
      if c < s.made ∧ (s.connections c).serverEnd = .waiting then
        some (.client c, s.setConnection c { s.connections c with serverEnd := .accepted })
      else none
    | accepted => some (accepted, s)
  | .recv c =>
    if e.ok then
      match (s.connections c).toServer with
      | [] => none
      | message :: messages =>
        some (!message.isEmpty, s.setConnection c { s.connections c with toServer := messages })
    else some (false, s)
  | .getsockname _ => some (e.address, s)
  | .send c reply =>
    if e.ok then
      some ((), s.setConnection c
        { s.connections c with
          toClient := (s.connections c).toClient ++ [reply]
          replied := true })
    else some ((), s)
  | .close c => some ((), s.setConnection c { s.connections c with serverEnd := .closed })
  | .closeServer => some ((), { s with listening := false })

def exec (e : HostChoice) : (act : HostAct) → Option (act.Answer × Hosts)
  | .client act => s.execClient e act
  | .server act => s.execServer e act

end Hosts

/-! ## What the threads run -/

/-- The reply to one client. -/
def serveClient (clientFd : ConnectionId) : HostProgram Unit := do
  if ← server (.recv clientFd) then
    let localMac ← server (.getsockname clientFd)
    server (.send clientFd (kReplyPrefix ++ localMac.getD ""))
  server (.close clientFd)

/-- The `while` loop of the server. -/
def bluetoothServerRounds : HostProgram CallResult := do
  if ← server .isRunning then
    match ← server .accept with
    | .client clientFd =>
      serveClient clientFd
      Prog.invoke (S := hostSignature) .bluetoothServerRounds
    | .again => Prog.invoke (S := hostSignature) .bluetoothServerRounds
    | .failed => pure .done
  else pure .done

def bluetoothServerLoop : HostProgram CallResult := do
  server .begin
  if ← server .openServer then
    if !(← server .bind) then server .closeServer
    else if !(← server .listen) then server .closeServer
    else
      let _ ← Prog.invoke (S := hostSignature) .bluetoothServerRounds
      server .closeServer
  pure .done

/-- `stop` lowers `running_` first. Nothing is said of a link from then on. -/
def HostCall.body : HostCall → HostProgram CallResult
  | .client f => onClient f.body
  | .handshake this device => do
    onClient (CommsRuntime.tryPeer this true (.bluetooth device))
    pure .done
  | .stopClient this => do
    let _ ← onClient (method this .stopRunning)
    pure .done
  | .bluetoothServerLoop => Comms.bluetoothServerLoop
  | .bluetoothServerRounds => Comms.bluetoothServerRounds
  | .stopServer => do
    server .stopRunning
    pure .done

/-- The threads of both hosts. -/
@[reducible] def hostSystem : System hostSignature where
  State := Hosts
  Env := HostChoice
  exec act e s := s.exec e act
  body := HostCall.body
  reentrant _ := false

end SensorLib.Comms
