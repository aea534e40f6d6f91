import SensorLib.Comms.Hosts
import SensorLib.Comms.ScanRuns

/-! # Where the threads of two hosts stand

A client asks on its socket and is answered. The server serves one connection
after the other, and closes each.
-/

namespace SensorLib.Comms

open Threads Descriptors

namespace Handshakes

/-- Where a thread stands in a handshake or in the loop of the server. -/
inductive Stage
  | idle
  | asking (socketFd : Int)
  | answered (socketFd : Int)
  | starting
  | server
  | serving (clientFd : ConnectionId)
  | closing (clientFd : ConnectionId)
  deriving DecidableEq

def Stage.fd : Stage → Option Int
  | .asking socketFd | .answered socketFd => some socketFd
  | _ => none

def Stage.client : Stage → Option ConnectionId
  | .serving clientFd | .closing clientFd => some clientFd
  | _ => none

/-- The thread runs the loop of the server, and no other thread does. -/
def Stage.Serves : Stage → Prop
  | .server | .serving _ | .closing _ => True
  | _ => False

def MayActClient (g : Stage) : RuntimeAct → Prop
  | .socket | .stopRunning | .linkDiscovered .. => g = .idle
  | .setRemote socketFd _ | .connect socketFd | .send socketFd | .recv socketFd =>
    g = .asking socketFd
  | .close socketFd => g.fd = some socketFd
  | .publish link => g = .answered link.link.socketFd
  | _ => False

def MayActServer (g : Stage) : ServerAct → Prop
  | .begin => g = .starting
  | .stopRunning => g = .idle
  | .isRunning | .openServer | .bind | .listen | .accept | .closeServer => g = .server
  | .recv clientFd | .getsockname clientFd | .send clientFd _ => g = .serving clientFd
  | .close clientFd => g.client = some clientFd

def acted : Stage → (a : HostAct) → a.Answer → Stage
  | .idle, .client (.method _ .socket), socketFd => if socketFd < 0 then .idle else .asking socketFd
  | .asking socketFd, .client (.method _ (.recv _)), some _ => .answered socketFd
  | .asking _, .client (.method _ (.close _)), _ => .idle
  | .answered _, .client (.method _ (.close _)), _ => .idle
  | .answered _, .client (.method _ (.publish _)), _ => .idle
  | .starting, .server .begin, _ => .server
  | .server, .server .accept, .client clientFd => .serving clientFd
  | .serving clientFd, .server (.send ..), _ => .closing clientFd
  | .serving _, .server (.close _), _ => .server
  | .closing _, .server (.close _), _ => .server
  | g, _, _ => g

end Handshakes

open Handshakes

@[reducible] def handshakeDiscipline (this : RuntimePtr) : Discipline hostSystem where
  Ghost := Stage
  initial f _ := if f = .bluetoothServerLoop then .starting else .idle
  mayLock _ _ _ _ _ := False
  locked _ _ g _ _ := g
  mayUnlock _ _ _ _ := False
  unlocked _ g _ _ := g
  mayAct _ _ g
    | .client (.method runtime a) => runtime = this ∧ MayActClient g a
    | .client _ => False
    | .server a => MayActServer g a
  answers _ _ _ _ := True
  acted _ g a x := Handshakes.acted g a x
  mayCall _ p _ g := p = .bluetoothServerRounds ∧ g = .server
  returns _ h g _ h' g' := h' = h ∧ g' = g
  finished f _ g := if f = .bluetoothServerLoop then g = .server else g = .idle

/-- The calls of the two hosts. -/
def HostCall.Shakes (this : RuntimePtr) : HostCall → Prop
  | .handshake runtime _ | .stopClient runtime => runtime = this
  | .bluetoothServerLoop | .stopServer => True
  | .client _ | .bluetoothServerRounds => False

namespace Handshakes

variable {this : RuntimePtr} {f : HostCall} {h : Held hostSignature} {g : Stage}

/-! ## The programs -/

theorem obeys_tryPeer (device : BluetoothDeviceInfoBase) :
    (handshakeDiscipline this).Obeys f
      (onClient (CommsRuntime.tryPeer this true (.bluetooth device))) h .idle
      fun _ h' g' => h' = h ∧ g' = .idle := by
  have hgiveUp : ∀ (socketFd : Int) (g : Stage) (k : Option ActiveLink → Program Unit),
      g.fd = some socketFd → k none = pure () → (handshakeDiscipline this).Obeys f
        (onClient ((CommsRuntime.giveUp this socketFd).bind k)) h g
        fun _ h' g' => h' = h ∧ g' = .idle := by
    intro socketFd g k hg hk
    refine ⟨⟨rfl, hg⟩, fun _ _ => ?_⟩
    show (handshakeDiscipline this).Obeys f (onClient (k none)) h _ _
    rw [hk]
    refine ⟨rfl, ?_⟩
    cases g with
    | asking | answered => rfl
    | _ => cases hg
  refine ⟨⟨rfl, rfl⟩, fun (socketFd : Int) _ => ?_⟩
  show (handshakeDiscipline this).Obeys f
    (onClient (Prog.bind (if socketFd < 0 then _ else _) _)) h
    (if socketFd < 0 then .idle else .asking socketFd) _
  by_cases hfd : socketFd < 0
  · rw [if_pos hfd, if_pos hfd]
    exact ⟨rfl, rfl⟩
  · rw [if_neg hfd, if_neg hfd]
    refine ⟨⟨rfl, rfl⟩, fun remote _ => ?_⟩
    cases remote with
    | false => exact hgiveUp socketFd _ _ rfl rfl
    | true =>
      refine ⟨⟨rfl, rfl⟩, fun connected _ => ?_⟩
      cases connected with
      | false => exact hgiveUp socketFd _ _ rfl rfl
      | true =>
        refine ⟨⟨rfl, rfl⟩, fun sent _ => ?_⟩
        cases sent with
        | false => exact hgiveUp socketFd _ _ rfl rfl
        | true =>
          refine ⟨⟨rfl, rfl⟩, fun received _ => ?_⟩
          cases received with
          | none => exact hgiveUp socketFd _ _ rfl rfl
          | some buffer =>
            show (handshakeDiscipline this).Obeys f
              (onClient (Prog.bind (if startsWithReplyPrefix buffer then _ else _) _)) h _ _
            split
            · refine ⟨⟨rfl, rfl⟩, fun callback _ => ?_⟩
              cases callback with
              | none => exact ⟨rfl, rfl⟩
              | some callback => exact ⟨⟨rfl, rfl⟩, fun _ _ => ⟨rfl, rfl⟩⟩
            · exact hgiveUp socketFd _ _ rfl rfl

theorem obeys_serveClient {clientFd : ConnectionId} :
    (handshakeDiscipline this).Obeys f (serveClient clientFd) h (.serving clientFd)
      fun _ h' g' => h' = h ∧ g' = .server := by
  refine ⟨rfl, fun received _ => ?_⟩
  cases received with
  | false => exact ⟨rfl, fun _ _ => ⟨rfl, rfl⟩⟩
  | true => exact ⟨rfl, fun _ _ => ⟨rfl, fun _ _ => ⟨rfl, fun _ _ => ⟨rfl, rfl⟩⟩⟩⟩

theorem obeys_rounds :
    (handshakeDiscipline this).Obeys f bluetoothServerRounds h .server
      fun _ h' g' => h' = h ∧ g' = .server := by
  have hagain : (handshakeDiscipline this).Obeys f
      (Prog.invoke (S := hostSignature) .bluetoothServerRounds) h .server
      fun _ h' g' => h' = h ∧ g' = .server := ⟨⟨rfl, rfl⟩, fun _ _ _ hreturns => hreturns⟩
  refine ⟨rfl, fun running _ => ?_⟩
  cases running with
  | false => exact ⟨rfl, rfl⟩
  | true =>
    refine ⟨rfl, fun accepted _ => ?_⟩
    cases accepted with
    | client clientFd =>
      refine Discipline.Obeys.bind (p := serveClient clientFd) obeys_serveClient ?_
      rintro _ _ _ ⟨rfl, rfl⟩
      exact hagain
    | again => exact hagain
    | failed => exact ⟨rfl, rfl⟩

theorem obeys_serverLoop :
    (handshakeDiscipline this).Obeys f bluetoothServerLoop h .starting
      fun _ h' g' => h' = h ∧ g' = .server := by
  have hclose : (handshakeDiscipline this).Obeys f (server .closeServer) h .server
      fun _ h' g' => h' = h ∧ g' = .server := ⟨rfl, fun _ _ => ⟨rfl, rfl⟩⟩
  refine ⟨rfl, fun _ _ => ⟨rfl, fun opened _ => ?_⟩⟩
  cases opened with
  | false => exact ⟨rfl, rfl⟩
  | true =>
    refine ⟨rfl, fun bound _ => ?_⟩
    cases bound with
    | false => exact hclose
    | true =>
      refine ⟨rfl, fun listening _ => ?_⟩
      cases listening with
      | false => exact hclose
      | true =>
        refine ⟨⟨rfl, rfl⟩, ?_⟩
        rintro _ _ _ ⟨rfl, rfl⟩
        exact hclose

theorem handshakes_cover : (handshakeDiscipline this).Covers (HostCall.Shakes this) := by
  intro f s hf
  cases f with
  | handshake runtime device =>
    obtain rfl : runtime = this := hf
    refine (obeys_tryPeer device).bind ?_
    rintro _ _ _ ⟨rfl, rfl⟩
    exact ⟨rfl, rfl⟩
  | stopClient runtime =>
    obtain rfl : runtime = this := hf
    exact ⟨⟨rfl, rfl⟩, fun _ _ => ⟨rfl, rfl⟩⟩
  | bluetoothServerLoop => exact obeys_serverLoop
  | stopServer => exact ⟨rfl, fun _ _ => ⟨rfl, rfl⟩⟩
  | client | bluetoothServerRounds => exact hf.elim

end Handshakes

end SensorLib.Comms
