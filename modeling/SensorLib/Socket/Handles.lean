import SensorLib.Socket.Interface
import SensorLib.Threads.Discipline

/-! # What a thread knows about a handle

A thread may touch a handle that it found registered, as long as it holds a
lock that keeps others from removing it: the global deletion lock, the lock of
the registry or that of the socket. A handle it made and has not yet registered
and a handle it has taken out of the registry are its own.
-/

namespace SensorLib

open Threads

abbrev Locks := List (Mutex × Mode)

structure Knowledge where
  /-- A handle that is registered. -/
  known : Option SocketPtr := none
  /-- A handle that is new and not yet registered. -/
  fresh : Option SocketPtr := none
  /-- A handle that was taken out of the registry, and whether its adapter is deleted. -/
  owned : Option (SocketPtr × Bool) := none
  /-- The handle the call was given, if it was registered when the call started. -/
  seen : Option SocketPtr := none
  /-- That handle is known to be deleted. -/
  gone : Bool := false
  deriving DecidableEq

def Mutex.rank : Mutex → Nat
  | .bsockDeletion => 0
  | .sharedBsock _ => 1
  | .bsockCreation => 2
  | .recursive => 3
  | .sharedRegistry => 4
  | .sharedConfig | .ports => 5

/-- The locks held, whatever the mode. -/
def lockNames (h : Locks) : List Mutex := h.map Prod.fst

/-- The locks held keep a registered handle registered. -/
def Justified (h : Locks) (bsock : SocketPtr) : Prop :=
  Mutex.bsockDeletion ∈ lockNames h ∨ Mutex.recursive ∈ lockNames h ∨
    Mutex.sharedBsock bsock ∈ lockNames h

instance (h : Locks) (bsock : SocketPtr) : Decidable (Justified h bsock) :=
  inferInstanceAs (Decidable (_ ∨ _ ∨ _))

/-- The order of the locks. Only `Cleanup` takes others with `mutex_recursive_` held: the
global deletion lock while a socket is registered, and the next two under that one. -/
structure MayWait (h : Locks) (g : Knowledge) (l : Mutex) (m : Mode) : Prop where
  above : ∀ l' ∈ lockNames h, l' = .recursive ∨ l'.rank < l.rank
  underRecursive : .recursive ∈ lockNames h →
    l = .recursive ∨ Mutex.rank .recursive < l.rank ∨ (.bsockDeletion, .exclusive) ∈ h ∨
      l = .bsockDeletion ∧ g.known.isSome
  recursive : l = .recursive →
    h = [] ∨ .bsockDeletion ∈ lockNames h ∨ .recursive ∈ lockNames h
  exclusive : l = .recursive → m = .exclusive

/-- The handle a call is about, where it is about one. -/
def Call.Concerns : Call → SocketPtr → Prop
  | .bratislavaConn bsock | .bratislavaSend bsock | .bratislavaRecv bsock
  | .bratislavaConnTimeout bsock _ | .bratislavaRecvTimeout bsock _ | .bratislavaDestroy bsock
  | .bratislavaDisconnect bsock => fun x => bsock = some x
  | _ => fun _ => True

namespace Handles

/-- A lock of a socket is taken while the socket is known to be registered. Unless `strict`,
the exclusive deletion lock will do, as it does in `bratislavaDestroy`. -/
def MayLock (strict : Bool) (h : Locks) (g : Knowledge) (l : Mutex) (m : Mode) : Prop :=
  MayWait h g l m ∧ ∀ x, l = .sharedBsock x →
    g.known = some x ∨ strict = false ∧ (.bsockDeletion, .exclusive) ∈ h

/-- In `strict` runs a destroyer that comes back finds the handle still registered. -/
def locked (strict : Bool) (f : Call) (g : Knowledge) (l : Mutex) (m : Mode) : Knowledge :=
  match strict, f, l, m with
  | true, .bratislavaDestroy (some x), .bsockDeletion, .exclusive => { g with known := some x }
  | _, _, _, _ => g

structure MayUnlock (strict : Bool) (h : Locks) (g : Knowledge) (l : Mutex) : Prop where
  nothingOpen : l = .bsockDeletion ∨ l = .bsockCreation → g.owned = none ∧ g.fresh = none
  pinned : l = .bsockDeletion → ∀ x, .sharedBsock x ∈ lockNames h → g.known = some x
  alive : strict = true → ∀ x, l = .sharedBsock x → g.known = some x ∨ ∃ b, g.owned = some (x, b)

/-- What was known stays known while another lock justifies it. -/
def unlocked (h : Locks) (g : Knowledge) (l : Mutex) (m : Mode) : Knowledge :=
  { g with known := g.known.filter fun x => decide (Justified (h.erase (l, m)) x) }

/-- No lock of a socket is held, or nobody else can take one. -/
def NoPin (h : Locks) : Prop :=
  (.bsockDeletion, .exclusive) ∈ h ∨ ∀ x, .sharedBsock x ∉ lockNames h

/-- What an act of an adapter needs, apart from the adapter. -/
def MayUse (h : Locks) (bsock : SocketPtr) : AdapterAct → Prop
  | .startIo _ | .endIo _ => .sharedBsock bsock ∈ lockNames h
  | .closeRequest => (.sharedBsock bsock, .exclusive) ∈ h
  | _ => True

def MayAct (f : Call) (h : Locks) (g : Knowledge) : SocketAct → Prop
  | .findSocket _ | .lastSocket => .recursive ∈ lockNames h ∧ NoPin h ∧ g.owned = none
  | .pushSocket x => g.fresh = some x ∧ NoPin h ∧ g.owned = none
  | .eraseSocket x =>
    (.recursive, .exclusive) ∈ h ∧ (.bsockDeletion, .exclusive) ∈ h ∧
      (.sharedBsock x, .exclusive) ∈ h ∧ g.known = some x ∧ g.owned = none
  | .newSocket _ =>
    .bsockDeletion ∈ lockNames h ∧ (.bsockCreation, .exclusive) ∈ h ∧ g.fresh = none
  | .readLink x => g.known = some x ∨ g.fresh = some x
  | .hasAdapter x => g.known = some x
  | .adapter x act => g.known = some x ∧ f.Concerns x ∧ MayUse h x act
  | .deleteAdapter x =>
    g.owned = some (x, false) ∧ g.fresh = none ∧ f.Concerns x ∧ (.sharedBsock x, .exclusive) ∈ h
  | .deleteSocket x => g.owned = some (x, true) ∧ g.fresh = none
  | _ => True

/-- A handle known to be registered is found, and has an adapter. -/
def Answers (g : Knowledge) : (act : SocketAct) → act.Answer → Prop
  | .findSocket x, found => g.known = some x → found = true
  | .hasAdapter _, found => found = true
  | _, _ => True

def acted (h : Locks) (g : Knowledge) : (act : SocketAct) → act.Answer → Knowledge
  | .findSocket x, found =>
    if found then { g with known := some x }
    -- A handle that was registered and is not found under the deletion lock has been deleted.
    else if g.seen = some x ∧ .bsockDeletion ∈ lockNames h then { g with gone := true }
    else g
  | .lastSocket, some x => { g with known := some x }
  | .pushSocket x, _ => { g with fresh := none, known := some x }
  | .eraseSocket x, _ => { g with known := none, owned := some (x, false) }
  | .newSocket _, some x => { g with fresh := some x }
  | .deleteAdapter x, _ => { g with owned := some (x, true) }
  | .deleteSocket x, _ =>
    { g with owned := none, gone := if g.seen = some x then true else g.gone }
  | _, _ => g

/-- The loop of `Cleanup` is run with the lock of the registry held, and nothing under way. -/
def InCleanup (h : Locks) (g : Knowledge) : Prop :=
  h = [(.recursive, .exclusive)] ∧ g.owned = none ∧ g.fresh = none

def initial (f : Call) (s : SharedState) : Knowledge :=
  match f with
  | .bratislavaDestroy (some x) =>
    { seen := if x ∈ s.registry.sockets then some x else none }
  | _ => {}

/-- A call that destroys a registered handle returns with the handle deleted. -/
def Finished (strict : Bool) (f : Call) (g : Knowledge) : Prop :=
  match f with
  | .bratislavaDestroy (some x) => strict = true → g.seen = some x → g.gone = true
  | _ => True

end Handles

open Handles in
@[reducible] def handleDiscipline (reuse strict : Bool) : Discipline (socketSystem reuse) where
  Ghost := Knowledge
  initial := Handles.initial
  mayLock _ h g l m := MayLock strict h g l m
  locked f _ g l m := Handles.locked strict f g l m
  mayUnlock h g l _ := MayUnlock strict h g l
  unlocked := Handles.unlocked
  mayAct := MayAct
  answers _ g act x := Answers g act x
  acted := Handles.acted
  mayCall f p h g := f = .cleanup ∧ p = .cleanupLoop ∧ InCleanup h g
  returns _ _ _ _ h' g' := InCleanup h' g'
  finished f _ g := Finished strict f g

end SensorLib
