import SensorLib.Comms.Programs
import SensorLib.Threads.Discipline

/-! # What a thread does with a runtime

A thread uses the runtime that `get_runtime` gave it, starts the one it made,
closes the one it took out of `g_runtime`, or is one of its own threads.
-/

namespace SensorLib.Comms

open Threads

/-- What a call wants of `get_runtime`. -/
inductive Purpose
  | none
  | start
  | use
  | scan
  deriving DecidableEq

def Call.purpose : Call → Purpose
  | .commsRuntimeInitialize _ => .start
  | .commsRuntimeRegisterCallback _ _ (some _) | .commsRuntimeUnregisterCallback .. => .use
  | .commsRuntimeDiscoverLinks _ true => .scan
  | _ => .none

/-- The functions of the API, and those of the threads that a runtime starts. -/
def Call.Api : Call → Prop
  | .commsRuntimeInitialize _ | .commsRuntimeShutdown | .commsRuntimeRegisterCallback ..
  | .commsRuntimeUnregisterCallback .. | .commsRuntimeDiscoverLinks .. | .udpServerLoop _
  | .bluetoothServerLoop _ | .discoveryLoop _ => True
  | _ => False

namespace Lifetimes

inductive Role
  | idle
  /-- Under the mutex, and there is no runtime. -/
  | vacant
  | user (runtime : RuntimePtr)
  | starter (runtime : RuntimePtr)
  /-- It took the runtime out of `g_runtime`. -/
  | owner (runtime : RuntimePtr)
  | worker (runtime : RuntimePtr) (worker : Worker)
  deriving DecidableEq

def Role.Closes (r : RuntimePtr) : Role → Prop
  | .starter r' | .owner r' => r' = r
  | _ => False

def Role.Holds (r : RuntimePtr) : Role → Prop
  | .user r' | .starter r' | .owner r' | .worker r' _ => r' = r
  | _ => False

structure Duty where
  role : Role := .idle
  purpose : Purpose := .none
  /-- The threads that a starter has not started, and those that do not run any more. -/
  fresh : Set Worker := ∅
  gone : Set Worker := ∅
  /-- The links were taken out. -/
  emptied : Bool := false
  /-- The server has its port. -/
  bound : Bool := false

def MayAct (g : Duty) (r : RuntimePtr) : RuntimeAct → Prop
  | .begin _ => g.role = .idle
  | .finish worker => g.role = .worker r worker ∧ g.bound = false
  | .isRunning => ∃ worker, g.role = .worker r worker
  | .claimRunning => g.role = .starter r
  | .spawn worker => g.role = .starter r ∧ g.emptied = false ∧ worker ∈ g.fresh ∧ g.gone = ∅
  | .stopRunning | .joinable _ | .join _ | .dropCallback | .linkDropped .. => g.role.Closes r
  | .drain => g.role.Closes r ∧ g.gone = Set.univ
  | .registerCallback .. => g.role = .user r
  | .readLinks _ => g.role = .user r
  | .waitForStop => g.role = .worker r .discovery
  | .openServer worker | .listen worker | .serve worker | .closeServer worker =>
    g.role = .worker r worker
  | .bind worker => g.role = .worker r worker ∧ g.bound = false
  | _ => g.role = .user r ∧ g.purpose = .scan ∨ g.role = .worker r .discovery

def acted (g : Duty) (r : RuntimePtr) : (a : RuntimeAct) → a.Answer → Duty
  | .begin worker, _ => { g with role := .worker r worker }
  | .finish _, _ | .registerCallback .., _ | .readLinks _, _ => { g with role := .idle }
  | .spawn worker, true => { g with fresh := g.fresh \ {worker} }
  | .joinable worker, false | .join worker, _ => { g with gone := insert worker g.gone }
  | .drain, _ => { g with emptied := true }
  | .bind _, true => { g with bound := true }
  | .closeServer _, _ => { g with bound := false }
  | _, _ => g

/-- What `get_runtime` makes of a thread. -/
def found (g : Duty) : Option RuntimePtr → Role
  | none => if g.purpose = .start then .vacant else .idle
  | some r => if g.purpose = .use ∨ g.purpose = .scan then .user r else .idle

def Guarded (h : Held commsSignature) : Prop := (Mutex.gRuntime, Mode.exclusive) ∈ h

end Lifetimes

open Lifetimes

@[reducible] def lifetimeDiscipline : Discipline commsSystem where
  Ghost := Duty
  initial f _ := { purpose := f.purpose }
  mayLock _ h g _ m := g.role = .idle ∧ h = [] ∧ m = .exclusive
  locked _ _ g _ _ := g
  mayUnlock _ g _ _ := g.role ≠ .vacant ∧ ∀ r, g.role ≠ .starter r
  unlocked _ g _ _ := g
  mayAct _ h g
    | .currentRuntime | .release => Guarded h ∧ g.role = .idle
    | .newRuntime => g.role = .vacant
    | .resetRuntime r => g.role = .starter r ∧ g.gone = Set.univ
    | .retain => Guarded h ∧ (g.role = .idle ∨ g.emptied = false ∧ ∃ r, g.role = .starter r)
    | .destroy r => g.role = .owner r ∧ g.gone = Set.univ
    | .method r a => MayAct g r a
  answers _ _ _ _ := True
  acted _ g
    | .currentRuntime, x => { g with role := found g x }
    | .newRuntime, r =>
      { g with
        role := .starter r
        fresh := Set.univ
        gone := ∅
        emptied := false }
    | .resetRuntime _, _ | .retain, _ | .destroy _, _ => { g with role := .idle }
    | .release, x => { g with role := (x.map Role.owner).getD .idle, gone := ∅ }
    | .method r a, x => Lifetimes.acted g r a x
  mayCall _ p _ g := (∃ r worker, p = .serverRounds r worker ∧ g.role = .worker r worker) ∨
    ∃ r, p = .discoveryRounds r ∧ g.role = .worker r .discovery
  returns _ h g _ h' g' := h' = h ∧ g' = g
  finished _ _ g := g.role = .idle

end SensorLib.Comms
