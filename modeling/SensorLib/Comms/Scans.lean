import SensorLib.Comms.Programs
import SensorLib.Threads.Discipline

/-! # What a thread does for a runtime

A scan owns the socket of the handshake it is in, and owes the callback of what
it marked first. A call of `stop` goes from joining the threads to dropping the
links.
-/

namespace SensorLib.Comms

open Threads

/-- The calls that scan, besides the discovery thread. -/
def Call.Scans : Call → Prop
  | .discoverLinks .. => True
  | _ => False

def Call.Stops : Call → Prop
  | .stop _ => True
  | _ => False

instance : DecidablePred Call.Scans
  | .discoverLinks .. => .isTrue trivial
  | .commsRuntimeInitialize _ | .commsRuntimeShutdown | .commsRuntimeRegisterCallback ..
  | .commsRuntimeUnregisterCallback .. | .commsRuntimeDiscoverLinks .. | .udpServerLoop _
  | .bluetoothServerLoop _ | .discoveryLoop _ | .serverRounds .. | .discoveryRounds _
  | .registerCallback .. | .unregisterCallback .. | .stop _ => .isFalse id

instance : DecidablePred Call.Stops
  | .stop _ => .isTrue trivial
  | .commsRuntimeInitialize _ | .commsRuntimeShutdown | .commsRuntimeRegisterCallback ..
  | .commsRuntimeUnregisterCallback .. | .commsRuntimeDiscoverLinks .. | .udpServerLoop _
  | .bluetoothServerLoop _ | .discoveryLoop _ | .serverRounds .. | .discoveryRounds _
  | .discoverLinks .. | .registerCallback .. | .unregisterCallback .. => .isFalse id

/-- The calls on one runtime, between its start and its end. -/
def Call.OnRuntime (this : RuntimePtr) : Call → Prop
  | .udpServerLoop this' | .bluetoothServerLoop this' | .discoveryLoop this'
  | .discoverLinks this' .. | .registerCallback this' .. | .unregisterCallback this' ..
  | .stop this' => this' = this
  | _ => False

/-- The socket that an act of a handshake is on. -/
def RuntimeAct.socketFd : RuntimeAct → Option Int
  | .setRemote fd _ | .connect fd | .send fd | .recv fd | .close fd => some fd
  | .publish link => some link.link.socketFd
  | _ => none

/-- The discovery that an act makes the callback of. -/
def RuntimeAct.announces : RuntimeAct → Option Discovery
  | .deviceDiscovered _ peer => some peer.discovery
  | .linkDiscovered _ link => some (.link link.key)
  | _ => none

def Event.dropped : Event → Option (Callback × BratislavaLinkInfo)
  | .linkDropped callback info => some (callback, info)
  | _ => none

namespace Scans

/-- How far a call of `stop` has come: it has the links that it took out, then also the callback
that it found for them, with the links that are left. -/
inductive Closing
  | no
  | drained (dropped : List BratislavaLinkInfo)
  | dropping (callback : Option Callback) (dropped : List BratislavaLinkInfo)
  deriving DecidableEq

structure Task where
  fd : Option Int := none
  telling : Option Discovery := none
  /-- The thread runs the discovery loop of the runtime. -/
  worker : Bool := false
  /-- The discovery thread does not run any more. -/
  gone : Bool := false
  closing : Closing := .no

/-- No socket is owned, and no callback is owed. -/
structure Task.Free (g : Task) : Prop where
  fd : g.fd = none
  telling : g.telling = none

def MayAct (f : Call) (g : Task) : RuntimeAct → Prop
  | .finish worker => worker = .discovery → g.worker = true
  | .see _ | .socket | .setRemote .. | .connect _ | .send _ | .recv _ | .close _ | .publish _ =>
    f.Scans ∨ g.worker = true
  | .drain => f.Stops ∧ g.gone = true ∧ g.closing = .no
  | .dropCallback => ∃ dropped, g.closing = .drained dropped
  | .linkDropped callback info => ∃ dropped, g.closing = .dropping (some callback) (info :: dropped)
  | .claimRunning | .spawn _ => False
  | _ => True

def acted (g : Task) : (a : RuntimeAct) → a.Answer → Task
  | .begin .discovery, _ => { g with worker := true }
  | .finish .discovery, _ => { g with worker := false }
  | .joinable .discovery, false => { g with gone := true }
  | .join .discovery, _ => { g with gone := true }
  | .see peer, (callback, _) =>
    { g with telling := callback.map fun _ => peer.discovery }
  | .socket, fd => { g with fd := if fd < 0 then none else some fd }
  | .close _, _ => { g with fd := none }
  | .publish link, callback =>
    { g with
      fd := none
      telling := callback.map fun _ => .link link.key }
  | .deviceDiscovered .., _ | .linkDiscovered .., _ => { g with telling := none }
  | .drain, dropped => { g with closing := .drained dropped }
  | .dropCallback, callback =>
    match g.closing with
    | .drained dropped => { g with closing := .dropping callback dropped }
    | _ => g
  | .linkDropped _ _, _ =>
    match g.closing with
    | .dropping callback (_ :: dropped) => { g with closing := .dropping callback dropped }
    | _ => g
  | _, _ => g

/-- A `stop` has made every callback it owes. -/
def Finished (f : Call) (g : Task) : Prop :=
  f.Stops → ∃ callback dropped, g.closing = .dropping callback dropped ∧
    (callback ≠ none → dropped = [])

/-- A loop that is called leaves what the thread is. -/
structure Returns (g g' : Task) : Prop extends g'.Free where
  worker : g'.worker = g.worker

end Scans

open Scans

@[reducible] def scanDiscipline (this : RuntimePtr) : Discipline commsSystem where
  Ghost := Task
  initial _ _ := {}
  mayLock _ _ _ _ _ := False
  locked _ _ g _ _ := g
  mayUnlock _ _ _ _ := False
  unlocked _ g _ _ := g
  mayAct f _ g
    | .method this' a =>
      this' = this ∧ a.socketFd = g.fd ∧ a.announces = g.telling ∧ MayAct f g a
    | _ => False
  answers _ _ _ _ := True
  acted _ g
    | .method _ a, x => acted g a x
    | _, _ => g
  mayCall f p _ g := g.Free ∧
    (p = .discoveryRounds this ∧ g.worker = true ∧ ¬ f.Scans ∧ ¬ f.Stops ∨
      ∃ worker, p = .serverRounds this worker ∧ ¬ f.Scans ∧ ¬ f.Stops)
  returns _ h g _ h' g' := h' = h ∧ Returns g g'
  finished f _ g := g.Free ∧ Finished f g

end SensorLib.Comms
