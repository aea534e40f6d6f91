import SensorLib.Registry.Owners
import SensorLib.Socket.Handles

/-! # Which device a socket is for

`bratislavaSocket` looks for a socket under the id of a link, and `Add` files
the socket it makes under the device of the link. What a thread finds between
the two stays true as long as it holds the creation lock.
-/

namespace SensorLib

open Threads BratislavaSocketRegistry

/-- The instrument types for which there is an adapter. -/
def BratislavaLink.Supported (link : BratislavaLink) : Prop :=
  link.instrumentType = .bluetooth ∨ link.instrumentType = .wifi

/-- `GetDeviceID` depends on the device only. -/
theorem getDeviceID_of_device {link link' : BratislavaLink} (h : link.device = link'.device) :
    getDeviceID link = getDeviceID link' := by
  obtain ⟨id, type, bluetooth, wifi⟩ := link
  obtain ⟨id', type', bluetooth', wifi'⟩ := link'
  cases type <;> cases type' <;> simp_all [BratislavaLink.device, getDeviceID]

/-- The link that a call gets a socket for. -/
def Call.link : Call → Option BratislavaLink
  | .bratislavaSocket link | .bratislavaLinkSend link | .bratislavaLinkRecv link => some link
  | _ => none

/-- The device at the other end of a handle. -/
def SharedState.peerOf (s : SharedState) (bsock : SocketPtr) : Option (InstrumentType × String) :=
  (s.heap.lookup bsock).map fun b => b.link.device

/-- The id of the link leads to the socket of its device: it is the id that the socket is filed
under, or no socket is filed under that id, or the one that is filed there is for a device of
another type and the id of the link leads to a socket. -/
def SharedState.Resolves (s : SharedState) (link : BratislavaLink) : Prop :=
  link.linkID = getDeviceID link ∨
    ∀ x ∈ s.registry.sockets, s.deviceOf x = some (getDeviceID link) →
      s.registry.existsId link.linkID = true ∧ s.peerOf x ≠ some link.device

instance (s : SharedState) (link : BratislavaLink) : Decidable (s.Resolves link) :=
  inferInstanceAs (Decidable (_ ∨ _))

namespace Peers

/-- How far a call has come that makes or deletes a socket. -/
inductive Stage
  | idle
  /-- The creation lock was taken for a link. -/
  | resolving (link : BratislavaLink)
  /-- The id of the link names a socket. -/
  | named (bsock : SocketPtr) (link : BratislavaLink)
  | vacant (link : BratislavaLink)
  /-- A new object, then one with a config that is not yet in the vector. -/
  | made (bsock : SocketPtr) (link : BratislavaLink)
  | adding (bsock : SocketPtr) (link : BratislavaLink)
  /-- The socket that the call returns. -/
  | settled (bsock : SocketPtr) (link : BratislavaLink)
  /-- A socket in the vector that has no config any more, then one that is an object only. -/
  | removing (bsock : SocketPtr)
  | removed (bsock : SocketPtr)
  deriving DecidableEq

namespace Stage

/-- The sockets that have a config. -/
def filed (sockets : List SocketPtr) : Stage → List SocketPtr
  | .adding x _ => sockets ++ [x]
  | .removing x => sockets.erase x
  | _ => sockets

/-- The object that is not in the vector. -/
def outside : Stage → Option SocketPtr
  | .made x _ | .adding x _ | .removed x => some x
  | _ => none

/-- In the middle of `Add` or `Remove`. -/
def InRegistry : Stage → Prop
  | .adding .. | .removing _ => True
  | _ => False

/-- Which locks may be released. -/
def MayUnlock (l : Mutex) : Stage → Prop
  | .idle | .settled .. => True
  | .adding .. | .removing _ => l = .sharedConfig
  | _ => l ≠ .bsockCreation

def answer : Stage → Option (SocketPtr × BratislavaLink)
  | .settled x link => some (x, link)
  | _ => none

end Stage

/-- What a thread knows about devices. -/
structure Insight where
  stage : Stage := .idle
  /-- A registered socket, its device, and that it is one for Wi-Fi. -/
  known : Option SocketPtr := none
  device : Option String := none
  wifi : Bool := false
  /-- The socket of the last link that the creation lock was taken for. -/
  answer : Option (SocketPtr × BratislavaLink) := none

def locked (f : Call) (g : Insight) : Mutex → Insight
  | .bsockCreation =>
    match f.link with
    | some link => { g with stage := .resolving link }
    | none => g
  | _ => g

def unlocked (h : Locks) (g : Insight) (l : Mutex) (m : Mode) : Insight :=
  { g with
    known := g.known.filter fun x => decide (Justified (h.erase (l, m)) x)
    stage := if l = .bsockCreation then .idle else g.stage
    answer := if l = .bsockCreation then g.stage.answer else g.answer }

def MayAct (h : Locks) (g : Insight) : SocketAct → Prop
  | .findSocket _ => (.recursive, .exclusive) ∈ h ∧ g.stage = .idle
  | .updateConfig c => ∃ x, g.known = some x ∧ c.socket = some x ∧ g.device = some c.deviceId
  | .newSocket link => g.stage = .vacant link ∧ link.Supported
  | .createConfigSocket x link => g.stage = .made x link ∧ (.recursive, .exclusive) ∈ h
  | .pushSocket x => ∃ link, g.stage = .adding x link
  | .removeConfig x =>
    g.stage = .idle ∧ g.known = some x ∧ (.bsockCreation, .exclusive) ∈ h ∧
      (.recursive, .exclusive) ∈ h ∧ (.bsockDeletion, .exclusive) ∈ h ∧
      (.sharedBsock x, .exclusive) ∈ h
  | .eraseSocket x => g.stage = .removing x
  | .deleteAdapter x | .deleteSocket x => g.stage = .removed x
  | .getConfigSocket _ | .getConfigId _ | .acquireLocalPort | .releaseLocalPort _ | .readLink _
  | .hasAdapter _ | .adapter .. | .turn => True
  | .lastSocket | .createConfigId _ | .removeUnusedConfig _ => False

def Answers (g : Insight) : (act : SocketAct) → act.Answer → Prop
  | .readLink x, link =>
    (∀ link', g.stage = .made x link' → link = link') ∧
      (g.known = some x → g.wifi = true → link.instrumentType = .wifi)
  | .getConfigSocket x, found => ∀ c, found = some c → c.socket = some x
  | .getConfigId id, found =>
    (∀ x, g.known = some x → g.device = some id →
      ∀ c, found = some c → c.socket = some x ∧ c.deviceId = id) ∧
    ∀ x link, g.stage = .named x link → id = link.linkID →
      ∃ c, found = some c ∧ c.socket = some x
  | .newSocket _, answer => answer.isSome
  | _, _ => True

/-- The lookup of a call that resolves its link. -/
def lookedUp (found : Option BratislavaSocketConfig) (id : String) : Stage → Stage
  | .resolving link =>
    if id = link.linkID then
      match found.bind fun c => c.socket with
      | some x => .named x link
      | none => .vacant link
    else .resolving link
  | .named x link => if id = link.linkID then .settled x link else .named x link
  | stage => stage

def acted (g : Insight) : (act : SocketAct) → act.Answer → Insight
  | .findSocket x, true => { g with known := some x, device := none, wifi := false }
  | .getConfigSocket x, some c => if g.known = some x then { g with device := some c.deviceId } else g
  | .getConfigId id, found => { g with stage := lookedUp found id g.stage }
  | .readLink x, link => if g.known = some x then { g with device := some (getDeviceID link) } else g
  | .adapter x .kind, .wifi _ => if g.known = some x then { g with wifi := true } else g
  | .newSocket link, some x => { g with stage := .made x link }
  | .createConfigSocket x link, _ => { g with stage := .adding x link }
  | .pushSocket _, _ =>
    match g.stage with
    | .adding x link => { g with stage := .settled x link }
    | _ => g
  | .removeConfig x, _ => { g with stage := .removing x, known := none }
  | .eraseSocket x, _ => { g with stage := .removed x }
  | .deleteSocket _, _ => { g with stage := .idle }
  | _, _ => g

/-- A call of `bratislavaSocket` returns the socket that was found or made for its link. -/
def Finished (f : Call) (r : CallResult) (g : Insight) : Prop :=
  ∀ link, f = .bratislavaSocket link → ∃ x, g.answer = some (x, link) ∧ r = .handle (some x)

end Peers

open Peers in
@[reducible] def peerDiscipline (reuse : Bool) : Discipline (socketSystem reuse) where
  Ghost := Insight
  initial _ _ := {}
  mayLock _ _ g l m := l = .bsockCreation → m = .exclusive ∧ g.stage = .idle
  locked f _ g l _ := Peers.locked f g l
  mayUnlock _ g l _ := g.stage.MayUnlock l
  unlocked := Peers.unlocked
  mayAct _ h g act := MayAct h g act
  answers _ g act x := Answers g act x
  acted _ g act x := Peers.acted g act x
  mayCall _ _ _ _ := False
  returns _ _ _ _ _ _ := True
  finished f r g := Finished f r g

end SensorLib
