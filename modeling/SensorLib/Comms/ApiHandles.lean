import SensorLib.Comms.Programs
import SensorLib.Threads.Sequential

/-! # Handles of the API and the runtime behind them

`createInstrumentAPI` and `destroyInstrumentAPI` one after the other. Of the
process only the globals of the runtime and the objects that exist are read
here. What the methods of a runtime answer is left open, so that its threads
may do what they like in between.
-/

namespace SensorLib.Comms

open Threads Runs

/-- What the methods of a runtime answer in one step. -/
abbrev Answers := (a : RuntimeAct) → a.Answer

/-- Everything is done or nothing is, and nothing is found. -/
def answering (ok : Bool) : Answers
  | .isRunning | .claimRunning | .stopRunning | .spawn _ | .joinable _ | .setRemote .. | .connect _
  | .send _ | .openServer _ | .bind _ | .listen _ => ok
  | .discoverBluetooth | .recv _ | .publish _ | .dropCallback => none
  | .discoverWifi | .drain => []
  | .see _ => (none, ok)
  | .socket => -1
  | .registerCallback .. => .success
  | .readLinks _ => (.success, [])
  | .serve _ => .failed
  | .begin _ | .finish _ | .join _ | .waitForStop | .deviceDiscovered .. | .close _
  | .linkDiscovered .. | .linkDropped .. | .closeServer _ => ()

structure Globals where
  gRuntime : Option RuntimePtr := none
  gRuntimeRefcount : Nat := 0
  existing : Finset RuntimePtr := ∅
  created : Nat := 0
  deriving DecidableEq

def Globals.exec (g : Globals) (answers : Answers) : (a : CommsAct) → Option (a.Answer × Globals)
  | .currentRuntime => some (g.gRuntime, g)
  | .newRuntime =>
    some (g.created,
      { g with
        gRuntime := some g.created
        existing := insert g.created g.existing
        created := g.created + 1 })
  | .resetRuntime runtime =>
    if runtime ∈ g.existing then
      some ((), { g with existing := g.existing.erase runtime, gRuntime := none })
    else none
  | .retain => some ((), { g with gRuntimeRefcount := g.gRuntimeRefcount + 1 })
  | .release =>
    if g.gRuntimeRefcount = 0 then some (none, g)
    else if g.gRuntimeRefcount = 1 then
      some (g.gRuntime, { g with gRuntimeRefcount := 0, gRuntime := none })
    else some (none, { g with gRuntimeRefcount := g.gRuntimeRefcount - 1 })
  | .destroy runtime =>
    if runtime ∈ g.existing then some ((), { g with existing := g.existing.erase runtime }) else none
  | .method this a => if this ∈ g.existing then some (answers a, g) else none

@[reducible] def globalsSystem : System commsSignature where
  State := Globals
  Env := Answers
  exec a answers g := g.exec answers a
  body := Call.body
  reentrant _ := false

/-! ## The globals of the process -/

def CommsState.globals (s : CommsState) : Globals where
  gRuntime := s.gRuntime
  gRuntimeRefcount := s.gRuntimeRefcount
  existing := s.runtimes.keys
  created := s.created

theorem keys_insert {α : Type} (m : UnorderedMap RuntimePtr α) (r : RuntimePtr) (v : α) :
    (m.insert r v).keys = insert r m.keys := by
  ext x
  simp only [Finmap.mem_keys, Finmap.mem_insert, Finset.mem_insert]

theorem globals_execMethod {s s' : CommsState} {this : RuntimePtr} {c : CommsRuntime} {e : Choice}
    {a : RuntimeAct} {x : a.Answer} (hthis : this ∈ s.runtimes)
    (h : s.execMethod this c e a = some (x, s')) : s'.globals = s.globals := by
  have hset : ∀ c', (s.set this c').globals = s.globals := fun c' =>
    congrArg (fun existing => { s.globals with existing })
      ((keys_insert _ _ _).trans (Finset.insert_eq_of_mem (Finmap.mem_keys.mpr hthis)))
  cases a with
  | claimRunning | stopRunning | see | drain | registerCallback =>
    cases h
    exact hset _
  | begin | finish | join =>
    simp only [CommsState.execMethod] at h
    split at h <;> cases h
    exact hset _
  | spawn =>
    simp only [CommsState.execMethod] at h
    split at h <;> cases h
    · exact hset _
    · rfl
  | publish =>
    simp only [CommsState.execMethod] at h
    split at h <;> cases h
    · rfl
    · exact hset _
  | bind =>
    simp only [CommsState.execMethod] at h
    split at h
    · split at h <;> cases h
      rfl
    · cases h
      rfl
  | socket =>
    simp only [CommsState.execMethod] at h
    split at h <;> cases h
    rfl
  | _ =>
    cases h
    rfl

/-- Every act of the process does to the globals what it does in the system of globals. -/
theorem exec_globals {s s' : CommsState} {e : Choice} {a : CommsAct} {x : a.Answer}
    (h : s.exec e a = some (x, s')) :
    ∃ answers, s.globals.exec answers a = some (x, s'.globals) := by
  cases a with
  | currentRuntime | retain =>
    cases h
    exact ⟨answering true, rfl⟩
  | newRuntime =>
    cases h
    refine ⟨answering true, ?_⟩
    simp only [Globals.exec, CommsState.globals, CommsState.set, keys_insert]
  | resetRuntime r | destroy r =>
    simp only [CommsState.exec] at h
    split at h <;> cases h
    rename_i hr
    refine ⟨answering true, ?_⟩
    simp only [Globals.exec, CommsState.globals, Finmap.mem_keys, if_pos hr, Finmap.keys_erase]
  | release =>
    refine ⟨answering true, ?_⟩
    simp only [CommsState.exec] at h
    by_cases hzero : s.gRuntimeRefcount = 0
    · rw [if_pos hzero] at h
      cases h
      exact if_pos hzero
    · rw [if_neg hzero] at h
      refine (if_neg hzero).trans ?_
      by_cases hone : s.gRuntimeRefcount = 1
      · rw [if_pos hone] at h
        cases h
        exact if_pos hone
      · rw [if_neg hone] at h
        cases h
        exact if_neg hone
  | method this a =>
    simp only [CommsState.exec] at h
    split at h
    · rename_i c hc
      have hthis : this ∈ s.runtimes := Finmap.lookup_isSome.mp (hc ▸ rfl)
      refine ⟨Function.update (answering true) a x, ?_⟩
      simp only [Globals.exec, globals_execMethod hthis h, Function.update_self]
      rw [if_pos]
      exact Finmap.mem_keys.mpr hthis
    · cases h

/-! ## Initialization and shutdown -/

/-- Between calls: the runtime that exists is the one that `g_runtime` points to, and there is one
as long as the count is not zero. -/
structure Globals.AtRest (g : Globals) : Prop where
  existing : g.existing = g.gRuntime.toFinset
  counted : g.gRuntime = none ↔ g.gRuntimeRefcount = 0

def CommsAct.OfMethod : CommsAct → Prop
  | .method .. => True
  | _ => False

namespace CommsRuntime

variable (this : RuntimePtr)

theorem actsIn_method (a : RuntimeAct) : (method this a).ActsIn CommsAct.OfMethod :=
  ⟨trivial, fun _ => trivial⟩

theorem actsIn_joinWorkers (workers : List Worker) :
    (joinWorkers this workers).ActsIn CommsAct.OfMethod := by
  induction workers with
  | nil => trivial
  | cons worker workers ih =>
    refine (actsIn_method this _).bind fun joinable => ?_
    cases joinable with
    | true => exact (actsIn_method this _).bind fun _ => ih
    | false => exact ih

theorem actsIn_dropLinks (callback : Callback) (dropped : List BratislavaLinkInfo) :
    (dropLinks this callback dropped).ActsIn CommsAct.OfMethod := by
  induction dropped with
  | nil => trivial
  | cons info dropped ih => exact (actsIn_method this _).bind fun _ => ih

theorem actsIn_announceDropped (dropCallback : Option Callback)
    (dropped : List BratislavaLinkInfo) :
    (announceDropped this dropCallback dropped).ActsIn CommsAct.OfMethod := by
  cases dropCallback with
  | none => trivial
  | some callback => exact actsIn_dropLinks this callback dropped

theorem actsIn_stop : (stop this).ActsIn CommsAct.OfMethod :=
  (actsIn_method this _).bind fun _ => (actsIn_joinWorkers this _).bind fun _ =>
    (actsIn_method this _).bind fun dropped => (actsIn_method this _).bind fun dropCallback =>
      actsIn_announceDropped this dropCallback dropped

theorem actsIn_spawnWorkers (workers : List Worker) :
    (spawnWorkers this workers).ActsIn CommsAct.OfMethod := by
  induction workers with
  | nil => trivial
  | cons worker workers ih =>
    refine (actsIn_method this _).bind fun spawned => ?_
    cases spawned with
    | true => exact ih
    | false => trivial

theorem actsIn_start : (start this).ActsIn CommsAct.OfMethod := by
  refine (actsIn_method this _).bind fun claimed => ?_
  cases claimed with
  | false => trivial
  | true =>
    refine (actsIn_spawnWorkers this _).bind fun spawned => ?_
    cases spawned with
    | true => trivial
    | false => exact (actsIn_method this _).bind fun _ => (actsIn_stop this).bind fun _ => trivial

end CommsRuntime

/-- The methods of a runtime leave the globals as they are. -/
theorem wp_methods {α : Type} {p : Program α} (hp : p.ActsIn CommsAct.OfMethod) (g : Globals) :
    (Contract.free globalsSystem).Wp p (fun _ g' => g' = g) g := by
  refine Contract.wp_actsIn (T := CommsAct.OfMethod) (fun _ _ => trivial) ?_ hp rfl
  rintro a ha g' rfl
  refine ⟨trivial, fun answers x g'' _ hexec => ?_⟩
  cases a with
  | method this b =>
    simp only [Globals.exec] at hexec
    split at hexec <;> cases hexec
    rfl
  | _ => exact ha.elim

/-- An act whose outcome the globals determine. -/
theorem wp_determined {α : Type} {a : CommsAct} {k : a.Answer → Program α} {Q : α → Globals → Prop}
    {g g' : Globals} {x : a.Answer} (hexec : ∀ answers, g.exec answers a = some (x, g'))
    (hk : (Contract.free globalsSystem).Wp (k x) Q g') :
    (Contract.free globalsSystem).Wp (.act a k) Q g := by
  refine ⟨trivial, fun answers y g'' _ hexec' => ⟨trivial, ?_⟩⟩
  cases (hexec answers).symm.trans hexec'
  exact hk

variable {g : Globals}

theorem Globals.AtRest.retain {r : RuntimePtr} (hexisting : g.existing = g.gRuntime.toFinset)
    (hr : g.gRuntime = some r) :
    Globals.AtRest { g with gRuntimeRefcount := g.gRuntimeRefcount + 1 } where
  existing := hexisting
  counted := by simp [hr]

/-- A successful call counts one more, a failed one leaves the count. -/
theorem wp_commsRuntimeInitialize (hg : g.AtRest) :
    (Contract.free globalsSystem).Wp (commsRuntimeInitialize true) (fun status g' =>
      g'.AtRest ∧ g'.gRuntimeRefcount =
        if status = .success then g.gRuntimeRefcount + 1 else g.gRuntimeRefcount) g := by
  refine Contract.wp_locked.mpr (wp_determined (x := g.gRuntime) (fun _ => rfl) ?_)
  cases hr : g.gRuntime with
  | some r =>
    exact wp_determined (fun _ => rfl) ⟨.retain hg.existing hr, rfl⟩
  | none =>
    have hempty : g.existing = ∅ := by rw [hg.existing, hr, Option.toFinset_none]
    refine wp_determined (fun _ => rfl) ?_
    refine (wp_methods (CommsRuntime.actsIn_start g.created) _).bind ?_
    rintro status _ rfl
    by_cases hstatus : status = .success
    · subst hstatus
      exact wp_determined (fun _ => rfl)
        ⟨.retain (by simp [hempty]) (r := g.created) rfl, rfl⟩
    · rw [if_pos hstatus]
      refine wp_determined (x := ()) (fun _ => if_pos (Finset.mem_insert_self _ _)) ?_
      refine ⟨⟨?_, ?_⟩, (if_neg hstatus).symm⟩
      · simp [hempty]
      · simpa [hr] using hg.counted

/-- A call counts one less, and takes out the runtime with the last one. -/
theorem wp_commsRuntimeShutdown (hg : g.AtRest) :
    (Contract.free globalsSystem).Wp commsRuntimeShutdown (fun _ g' =>
      g'.AtRest ∧ g'.gRuntimeRefcount = g.gRuntimeRefcount - 1 ∧
        g'.existing = if 1 < g.gRuntimeRefcount then g.existing else ∅) g := by
  refine Contract.wp_bind.mpr (Contract.wp_locked.mpr ?_)
  by_cases hzero : g.gRuntimeRefcount = 0
  · have hnone : g.existing = ∅ := by rw [hg.existing, hg.counted.mpr hzero, Option.toFinset_none]
    exact wp_determined (fun _ => if_pos hzero) ⟨hg, by simp [hzero], by simp [hzero, hnone]⟩
  by_cases hone : g.gRuntimeRefcount = 1
  · obtain ⟨r, hr⟩ := Option.ne_none_iff_exists'.mp (mt hg.counted.mp hzero)
    have hexisting : g.existing = {r} := by rw [hg.existing, hr, Option.toFinset_some]
    refine wp_determined (x := g.gRuntime) (fun _ => (if_neg hzero).trans (if_pos hone)) ?_
    rw [hr]
    refine (wp_methods (CommsRuntime.actsIn_stop r) _).bind ?_
    rintro _ _ rfl
    refine wp_determined (x := ()) (fun _ => if_pos (by simp [hexisting])) ⟨⟨?_, ?_⟩, ?_, ?_⟩
    · simp [hexisting]
    · simp
    · simp [hone]
    · simp [hone, hexisting]
  · refine wp_determined (fun _ => (if_neg hzero).trans (if_neg hone)) ⟨⟨hg.existing, ?_⟩, rfl, ?_⟩
    · exact hg.counted.trans (by simp only; omega)
    · exact (if_pos (by omega)).symm

/-! ## Calls of the API -/

abbrev ApiHandle := Nat

/-- What `createInstrumentAPI` returns and leaves. `calloc` returns the memory, if there is
any. -/
def createInstrumentAPI (calloc : Option ApiHandle) (answers : List Answers) (g : Globals) :
    Option (Option ApiHandle × Globals) :=
  match calloc with
  | none => some (none, g)
  | some api =>
    ((commsRuntimeInitialize true).eval (Y := globalsSystem) answers g).map fun out =>
      (if out.1 ≠ .success then none else some api, out.2)

/-- `free` of the handle leaves the globals alone. -/
def destroyInstrumentAPI (answers : List Answers) (g : Globals) : Option Globals :=
  (commsRuntimeShutdown.eval (Y := globalsSystem) answers g).map fun out => out.2

/-- The results of `createInstrumentAPI` that were not given to `destroyInstrumentAPI` yet. -/
structure ApiState where
  globals : Globals := {}
  results : List (Option ApiHandle) := []
  deriving DecidableEq

inductive ApiOp
  | createInstrumentAPI (calloc : Option ApiHandle) (answers : List Answers)
  | destroyInstrumentAPI (instrumentAPI : Option ApiHandle) (answers : List Answers)

namespace ApiState

variable (s : ApiState)

/-- Some handle is outstanding. -/
def Outstanding : Prop := ∃ result ∈ s.results, result ≠ none

instance : Decidable s.Outstanding :=
  inferInstanceAs (Decidable (∃ result ∈ s.results, result ≠ none))

/-- The state after a call, if the call returns. Memory from `calloc` is not that of a handle that
is outstanding. -/
def exec : ApiOp → Option ApiState
  | .createInstrumentAPI calloc answers =>
    if calloc ≠ none ∧ calloc ∈ s.results then none
    else
      (Comms.createInstrumentAPI calloc answers s.globals).map fun out =>
        { globals := out.2, results := s.results ++ [out.1] }
  | .destroyInstrumentAPI instrumentAPI answers =>
    if instrumentAPI ∈ s.results then
      (Comms.destroyInstrumentAPI answers s.globals).map fun globals =>
        { globals, results := s.results.erase instrumentAPI }
    else none

/-- A runtime exists when a handle is outstanding, and only then. -/
def Backed : Prop := s.globals.existing.Nonempty ↔ s.Outstanding

instance : Decidable s.Backed :=
  inferInstanceAs (Decidable (s.globals.existing.Nonempty ↔ s.Outstanding))

end ApiState

/-- Calls one after the other. Each result is destroyed at most once. -/
def apiMachine : Machine ApiState ApiOp where
  guard s op := (s.exec op).isSome
  next s op := (s.exec op).getD s

instance (s : ApiState) (op : ApiOp) : Decidable (apiMachine.guard s op) :=
  inferInstanceAs (Decidable ((s.exec op).isSome = true))

/-- A call of `destroyInstrumentAPI` stops the runtime if no handle is left, and leaves it as it
was if one is. -/
def StopsWithLast (s : ApiState) : ApiOp → Prop
  | .createInstrumentAPI .. => True
  | .destroyInstrumentAPI instrumentAPI answers =>
    let s' := apiMachine.next s (.destroyInstrumentAPI instrumentAPI answers)
    s'.globals.existing = if s'.Outstanding then s.globals.existing else ∅

/-- A result that is `NULL` is destroyed only while no handle is outstanding. -/
def NullAlone (s : ApiState) : ApiOp → Prop
  | .destroyInstrumentAPI none _ => ¬ s.Outstanding
  | _ => True

instance (s : ApiState) : DecidablePred (NullAlone s)
  | .destroyInstrumentAPI none _ => inferInstanceAs (Decidable (¬ s.Outstanding))
  | .destroyInstrumentAPI (some _) _ | .createInstrumentAPI .. => .isTrue trivial

namespace ApiState

variable {s : ApiState}

/-- The count is the number of handles that are outstanding. -/
structure Counted (s : ApiState) : Prop where
  atRest : s.globals.AtRest
  counted : s.globals.gRuntimeRefcount = s.results.countP (· ≠ none)

theorem outstanding_iff : s.Outstanding ↔ 0 < s.results.countP (· ≠ none) := by
  simp [Outstanding, List.countP_pos_iff]

theorem Counted.backed (h : s.Counted) : s.Backed := by
  have hrest := h.atRest.counted
  rw [Backed, outstanding_iff, ← h.counted, h.atRest.existing, Nat.pos_iff_ne_zero, Ne, ← hrest]
  cases s.globals.gRuntime <;> simp

theorem Counted.create (h : s.Counted) {calloc : Option ApiHandle} {answers : List Answers}
    {out : Option ApiHandle × Globals}
    (hout : createInstrumentAPI calloc answers s.globals = some out) :
    Counted { globals := out.2, results := s.results ++ [out.1] } := by
  cases calloc with
  | none =>
    cases hout
    exact ⟨h.atRest, by simp [h.counted]⟩
  | some api =>
    obtain ⟨⟨status, g'⟩, heval, rfl⟩ := Option.map_eq_some_iff.mp hout
    obtain ⟨hrest, hcount⟩ := Contract.wp_eval (wp_commsRuntimeInitialize h.atRest) heval
    refine ⟨hrest, ?_⟩
    rw [hcount, h.counted]
    by_cases hstatus : status = .success <;> simp [hstatus]

/-- The count after a result was destroyed, unless it is `NULL` beside a handle. -/
theorem count_erase {instrumentAPI : Option ApiHandle} (hmem : instrumentAPI ∈ s.results)
    (hnull : instrumentAPI = none → ¬ s.Outstanding) :
    (s.results.erase instrumentAPI).countP (· ≠ none) = s.results.countP (· ≠ none) - 1 := by
  rw [outstanding_iff] at hnull
  rw [List.countP_erase]
  cases instrumentAPI with
  | none =>
    have hzero := hnull rfl
    omega
  | some api => simp [hmem]

theorem Counted.destroy (h : s.Counted) {instrumentAPI : Option ApiHandle} {answers : List Answers}
    {g' : Globals} (hmem : instrumentAPI ∈ s.results)
    (hnull : instrumentAPI = none → ¬ s.Outstanding)
    (hg' : destroyInstrumentAPI answers s.globals = some g') :
    Counted { globals := g', results := s.results.erase instrumentAPI } ∧
      g'.existing = if Outstanding { globals := g', results := s.results.erase instrumentAPI } then
        s.globals.existing else ∅ := by
  obtain ⟨⟨_, g''⟩, heval, rfl⟩ := Option.map_eq_some_iff.mp hg'
  obtain ⟨hrest, hcount, hexisting⟩ := Contract.wp_eval (wp_commsRuntimeShutdown h.atRest) heval
  have herase := count_erase hmem hnull
  refine ⟨⟨hrest, ?_⟩, hexisting.trans (if_congr ?_ rfl rfl)⟩
  · rw [hcount, h.counted, herase]
  · rw [outstanding_iff, herase, h.counted]
    omega

/-- One call, where no `NULL` is destroyed beside a handle. -/
theorem Counted.next (h : s.Counted) {op : ApiOp} (hop : apiMachine.guard s op)
    (hnull : NullAlone s op) : (apiMachine.next s op).Counted ∧ StopsWithLast s op := by
  obtain ⟨s', hs'⟩ := Option.isSome_iff_exists.mp hop
  have hnext : apiMachine.next s op = s' :=
    (congrArg (Option.getD · s) hs').trans (Option.getD_some ..)
  cases op with
  | createInstrumentAPI calloc answers =>
    refine ⟨?_, trivial⟩
    rw [hnext]
    simp only [exec] at hs'
    split at hs'
    · cases hs'
    · obtain ⟨out, hout, rfl⟩ := Option.map_eq_some_iff.mp hs'
      exact h.create hout
  | destroyInstrumentAPI instrumentAPI answers =>
    simp only [exec] at hs'
    split at hs'
    · rename_i hmem
      obtain ⟨g', hg', rfl⟩ := Option.map_eq_some_iff.mp hs'
      have hdestroy := h.destroy hmem (by rintro rfl; exact hnull) hg'
      rw [StopsWithLast, hnext]
      exact hdestroy
    · cases hs'

end ApiState

/-- In every sequence of calls in which a `NULL` result is destroyed only while no handle is
outstanding, a runtime exists exactly while a handle is, and no handle loses its runtime. -/
theorem runtime_backs_handles {ops : List ApiOp} (hlegal : apiMachine.Legal {} ops)
    (hnull : apiMachine.Each NullAlone {} ops) :
    apiMachine.Always ApiState.Backed {} ops ∧ apiMachine.Each StopsWithLast {} ops := by
  have hstart : ApiState.Counted {} := ⟨⟨rfl, by simp⟩, rfl⟩
  have hcalls := hlegal.and hnull
  have hnext : ∀ s op, ApiState.Counted s → apiMachine.guard s op ∧ NullAlone s op →
      (apiMachine.next s op).Counted := fun s op hs hop => (hs.next hop.1 hop.2).1
  exact ⟨hcalls.always hnext (fun s hs => hs.backed) hstart,
    hcalls.each hnext (fun s op hs hop => (hs.next hop.1 hop.2).2) hstart⟩

/-- Two clients create and destroy the API one within the other, after a failed attempt. -/
theorem runtime_backs_handles_two_clients :
    let calls := List.replicate 24 (answering true)
    let ops : List ApiOp :=
      [.createInstrumentAPI none [], .destroyInstrumentAPI none calls,
        .createInstrumentAPI (some 16) calls, .createInstrumentAPI (some 32) calls,
        .destroyInstrumentAPI (some 16) calls, .destroyInstrumentAPI (some 32) calls]
    apiMachine.Always ApiState.Backed {} ops ∧ apiMachine.Each StopsWithLast {} ops :=
  runtime_backs_handles (by decide +kernel) (by decide +kernel)

/-- The second client gets no memory and destroys its `NULL`, which stops the first one's
runtime. -/
theorem null_stops_runtime :
    let calls := List.replicate 24 (answering true)
    let ops : List ApiOp :=
      [.createInstrumentAPI (some 16) calls, .createInstrumentAPI none [],
        .destroyInstrumentAPI none calls]
    apiMachine.Legal {} ops ∧ (apiMachine.run {} ops).results = [some 16] ∧
      (apiMachine.run {} ops).globals.existing = ∅ ∧ ¬ apiMachine.Always ApiState.Backed {} ops := by
  decide +kernel

end SensorLib.Comms
