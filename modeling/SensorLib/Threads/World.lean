import Mathlib.Logic.Function.Basic
import SensorLib.Base.Runs
import SensorLib.Threads.Program

/-! # Threads that run programs over one state

Any number of threads take turns, one instruction at a time. A lock is a step
that is enabled only while no other thread holds it in a conflicting mode.
-/

namespace Threads

open Runs

abbrev Tid := Nat

/-- What the instructions of a signature do. The environment chooses what the code does not:
addresses, descriptors, the outcome of a system call. -/
structure System (S : Signature) where
  State : Type
  Env : Type
  exec : (a : S.Act) → Env → State → Option (S.Answer a × State)
  body : S.Label → Prog S S.Result
  /-- Whether the thread that holds a lock may lock it again. -/
  reentrant : S.Lock → Bool

variable {S : Signature} (Y : System S)

structure World where
  state : Y.State
  thread : Tid → Option (S.Label × Prog S S.Result)
  holds : List (Tid × S.Lock × Mode)

inductive Op
  | start (t : Tid) (f : S.Label)
  | run (t : Tid) (e : Y.Env)

variable {Y}

namespace World

/-- No thread runs a call, and no lock is held. -/
def quiet (s : Y.State) : World Y := ⟨s, fun _ => none, []⟩

variable (w : World Y)

/-- No other thread holds `l` in a way that keeps `t` from locking it. -/
def Free (t : Tid) (l : S.Lock) (m : Mode) : Prop :=
  ∀ x ∈ w.holds, x.2.1 = l →
    m = .shared ∧ x.2.2 = .shared ∨ Y.reentrant l = true ∧ x.1 = t

instance (t : Tid) (l : S.Lock) (m : Mode) : Decidable (w.Free t l m) :=
  inferInstanceAs (Decidable (∀ x ∈ w.holds, x.2.1 = l →
    m = .shared ∧ x.2.2 = .shared ∨ Y.reentrant l = true ∧ x.1 = t))

/-- A call starts on an idle thread. A thread runs until it waits for a lock or for an act that
the environment does not let happen. -/
def enabled : Op Y → Bool
  | .start t _ => (w.thread t).isNone
  | .run t e =>
    match w.thread t with
    | none => false
    | some (_, .lock l m _) => decide (w.Free t l m)
    | some (_, .act a _) => (Y.exec a e w.state).isSome
    | some (_, .pure _) | some (_, .unlock ..) | some (_, .call ..) => true

def setThread (t : Tid) (p : Option (S.Label × Prog S S.Result)) : World Y :=
  { w with thread := Function.update w.thread t p }

def next : Op Y → World Y
  | .start t f => w.setThread t (some (f, Y.body f))
  | .run t e =>
    match w.thread t with
    | none => w
    | some (_, .pure _) => w.setThread t none
    | some (f, .lock l m k) => { w.setThread t (some (f, k)) with holds := (t, l, m) :: w.holds }
    | some (f, .unlock l m k) =>
      { w.setThread t (some (f, k)) with holds := w.holds.erase (t, l, m) }
    | some (f, .act a k) =>
      match Y.exec a e w.state with
      | some (x, s) => { w.setThread t (some (f, k x)) with state := s }
      | none => w
    | some (f, .call g k) => w.setThread t (some (f, (Y.body g).bind k))

/-- The locks of one thread, the last one first. -/
def heldBy (t : Tid) : List (S.Lock × Mode) :=
  w.holds.filterMap fun x => if x.1 = t then some x.2 else none

/-- The thread is about to lock `l`. -/
def atLock (t : Tid) (l : S.Lock) : Bool :=
  match w.thread t with
  | some (_, .lock l' _ _) => decide (l' = l)
  | _ => false

theorem atLock_iff {t : Tid} {l : S.Lock} :
    w.atLock t l = true ↔ ∃ f m k, w.thread t = some (f, .lock l m k) := by
  unfold atLock
  constructor
  · intro h
    split at h
    · rename_i f l' m k hthread
      cases of_decide_eq_true h
      exact ⟨f, m, k, hthread⟩
    · cases h
  · rintro ⟨f, m, k, hthread⟩
    simp only [hthread, decide_true]

end World

def machine (Y : System S) : Machine (World Y) (Op Y) where
  guard w op := w.enabled op = true
  next w op := w.next op

instance (w : World Y) (op : Op Y) : Decidable ((machine Y).guard w op) :=
  inferInstanceAs (Decidable (w.enabled op = true))

/-- The calls that start in a run are of the kind `F`. -/
def Calls (F : S.Label → Prop) (ops : List (Op Y)) : Prop :=
  ∀ t f, Op.start t f ∈ ops → F f

theorem Calls.each {F : S.Label → Prop} {ops : List (Op Y)} (h : Calls F ops) (w : World Y) :
    (machine Y).Each (fun _ op => ∀ t f, op = Op.start t f → F f) w ops := by
  refine Machine.each_of_forall (C := fun op => ∀ t f, op = Op.start t f → F f) ?_ w
  rintro _ hop t f rfl
  exact h t f hop

/-! ## What a step can do -/

/-- The outcomes of one step of a thread. -/
inductive Ran (w : World Y) (t : Tid) (e : Y.Env) : World Y → Prop
  | done {f : S.Label} {r : S.Result} (hthread : w.thread t = some (f, .pure r)) :
      Ran w t e (w.setThread t none)
  | lock {f : S.Label} {l : S.Lock} {m : Mode} {k : Prog S S.Result}
      (hthread : w.thread t = some (f, .lock l m k)) (hfree : w.Free t l m) :
      Ran w t e { w.setThread t (some (f, k)) with holds := (t, l, m) :: w.holds }
  | unlock {f : S.Label} {l : S.Lock} {m : Mode} {k : Prog S S.Result}
      (hthread : w.thread t = some (f, .unlock l m k)) :
      Ran w t e { w.setThread t (some (f, k)) with holds := w.holds.erase (t, l, m) }
  | act {f : S.Label} {a : S.Act} {k : S.Answer a → Prog S S.Result} {x : S.Answer a}
      {s : Y.State} (hthread : w.thread t = some (f, .act a k))
      (hexec : Y.exec a e w.state = some (x, s)) :
      Ran w t e { w.setThread t (some (f, k x)) with state := s }
  | call {f g : S.Label} {k : S.Result → Prog S S.Result}
      (hthread : w.thread t = some (f, .call g k)) :
      Ran w t e (w.setThread t (some (f, (Y.body g).bind k)))

namespace World

variable {w : World Y} {t : Tid}

theorem ran {e : Y.Env} (h : w.enabled (.run t e) = true) : Ran w t e (w.next (.run t e)) := by
  unfold enabled at h
  cases hthread : w.thread t with
  | none => simp [hthread] at h
  | some fp =>
    obtain ⟨f, p⟩ := fp
    simp only [hthread] at h
    cases p with
    | pure r => simpa only [next, hthread] using Ran.done hthread
    | lock l m k => simpa only [next, hthread] using Ran.lock hthread (of_decide_eq_true h)
    | unlock l m k => simpa only [next, hthread] using Ran.unlock hthread
    | act a k =>
      obtain ⟨⟨x, s⟩, hexec⟩ := Option.isSome_iff_exists.mp h
      simpa only [next, hthread, hexec] using Ran.act hthread hexec
    | call g k => simpa only [next, hthread] using Ran.call hthread

theorem state_next_act {e : Y.Env} {f : S.Label} {a : S.Act} {k : S.Answer a → Prog S S.Result}
    {x : S.Answer a} {s : Y.State} (hthread : w.thread t = some (f, .act a k))
    (hexec : Y.exec a e w.state = some (x, s)) : (w.next (.run t e)).state = s := by
  simp only [next, hthread, hexec]

theorem start_enabled {f : S.Label} : w.enabled (.start t f) = true ↔ w.thread t = none :=
  Option.isNone_iff_eq_none

@[simp] theorem setThread_state (p : Option (S.Label × Prog S S.Result)) :
    (w.setThread t p).state = w.state := rfl

@[simp] theorem setThread_holds (p : Option (S.Label × Prog S S.Result)) :
    (w.setThread t p).holds = w.holds := rfl

@[simp] theorem setThread_thread (p : Option (S.Label × Prog S S.Result)) :
    (w.setThread t p).thread = Function.update w.thread t p := rfl

/-- A step of one thread leaves the programs of the others alone. -/
theorem next_run_of_ne {e : Y.Env} (h : w.enabled (.run t e) = true) {u : Tid} (hu : u ≠ t) :
    (w.next (.run t e)).thread u = w.thread u := by
  have hran := ran h
  generalize w.next (.run t e) = w' at hran
  cases hran <;> exact Function.update_of_ne hu _ _

theorem next_start_of_ne (f : S.Label) {u : Tid} (hu : u ≠ t) :
    (w.next (.start t f)).thread u = w.thread u := Function.update_of_ne hu _ _

/-- A call runs on until it returns. -/
theorem thread_next {op : Op Y} (h : w.enabled op = true) {f : S.Label} {p : Prog S S.Result}
    (hthread : w.thread t = some (f, p)) :
    (∃ r, p = .pure r) ∨ ∃ p', (w.next op).thread t = some (f, p') := by
  cases op with
  | start u g =>
    have hu : t ≠ u := by
      rintro rfl
      rw [start_enabled.mp h] at hthread
      cases hthread
    exact Or.inr ⟨p, by rw [next_start_of_ne g hu, hthread]⟩
  | run u e =>
    by_cases hu : t = u
    · subst hu
      have hran := ran h
      generalize w.next (.run t e) = w' at hran
      cases hran with
      | done hold =>
        rw [hthread] at hold
        cases hold
        exact Or.inl ⟨_, rfl⟩
      | lock hold | unlock hold | act hold | call hold =>
        rw [hthread] at hold
        cases hold
        exact Or.inr ⟨_, Function.update_self _ _ _⟩
    · exact Or.inr ⟨p, by rw [next_run_of_ne h hu, hthread]⟩

/-- A step of a thread starts no call. -/
theorem thread_of_next_run {e : Y.Env} (h : w.enabled (.run t e) = true) {u : Tid} {f : S.Label}
    {p : Prog S S.Result} (hthread : (w.next (.run t e)).thread u = some (f, p)) :
    ∃ p', w.thread u = some (f, p') := by
  by_cases hu : u = t
  · subst hu
    have hran := ran h
    generalize w.next (.run u e) = w' at hran hthread
    cases hran with
    | done => simp at hthread
    | lock hold | unlock hold | act hold | call hold =>
      simp only [setThread_thread, Function.update_self, Option.some.injEq] at hthread
      cases hthread
      exact ⟨_, hold⟩
  · rw [next_run_of_ne h hu] at hthread
    exact ⟨p, hthread⟩

/-! ## The locks of a thread -/

theorem mem_heldBy {l : S.Lock} {m : Mode} : (l, m) ∈ w.heldBy t ↔ (t, l, m) ∈ w.holds := by
  simp only [heldBy, List.mem_filterMap, Option.ite_none_right_eq_some, Option.some.injEq]
  constructor
  · rintro ⟨⟨u, x⟩, hx, rfl, rfl⟩
    exact hx
  · intro h
    exact ⟨_, h, rfl, rfl⟩

@[simp] theorem heldBy_quiet (s : Y.State) : (quiet s : World Y).heldBy t = [] := rfl

@[simp] theorem heldBy_setThread (p : Option (S.Label × Prog S S.Result)) :
    (w.setThread t p).heldBy = w.heldBy := rfl

theorem heldBy_cons {w' : World Y} {x : S.Lock × Mode} (h : w'.holds = (t, x) :: w.holds) :
    w'.heldBy = Function.update w.heldBy t (x :: w.heldBy t) := by
  funext u
  simp only [heldBy, h, Function.update_apply]
  by_cases hu : u = t
  · subst hu
    simp
  · simp [hu, Ne.symm hu]

theorem filterMap_erase (holds : List (Tid × S.Lock × Mode)) (x : S.Lock × Mode) (u : Tid) :
    ((holds.erase (t, x)).filterMap fun y => if y.1 = u then some y.2 else none) =
      if u = t then (holds.filterMap fun y => if y.1 = u then some y.2 else none).erase x
      else holds.filterMap fun y => if y.1 = u then some y.2 else none := by
  induction holds with
  | nil => simp
  | cons y holds ih =>
    obtain ⟨v, z⟩ := y
    rw [List.erase_cons]
    by_cases hvz : (v, z) = (t, x)
    · cases hvz
      by_cases hu : u = t
      · subst hu
        simp
      · simp [hu, Ne.symm hu]
    · rw [if_neg (by simpa using hvz)]
      by_cases hv : v = u
      · subst hv
        simp only [List.filterMap_cons, if_true, ih]
        by_cases hu : v = t
        · subst hu
          have hzx : z ≠ x := fun h => hvz (by rw [h])
          simp [hzx]
        · simp [hu]
      · simp only [List.filterMap_cons, if_neg hv, ih]

theorem heldBy_erase {w' : World Y} {x : S.Lock × Mode} (h : w'.holds = w.holds.erase (t, x)) :
    w'.heldBy = Function.update w.heldBy t ((w.heldBy t).erase x) := by
  funext u
  simp only [heldBy, h, Function.update_apply, filterMap_erase]
  by_cases hu : u = t
  · subst hu
    simp
  · simp [hu]

/-! ## Mutual exclusion -/

/-- A lock held exclusively is held by one thread only. -/
def Exclusion (w : World Y) : Prop :=
  ∀ t l, (t, l, .exclusive) ∈ w.holds → ∀ x ∈ w.holds, x.2.1 = l → x.1 = t

theorem exclusion_quiet (s : Y.State) : (quiet s : World Y).Exclusion :=
  fun _ _ h => absurd h List.not_mem_nil

theorem Exclusion.cons (h : w.Exclusion) {l : S.Lock} {m : Mode} (hfree : w.Free t l m)
    {w' : World Y} (hholds : w'.holds = (t, l, m) :: w.holds) : w'.Exclusion := by
  intro u l' hu x hx hl'
  rw [hholds, List.mem_cons] at hu hx
  rcases hu with hu | hu <;> rcases hx with rfl | hx
  · cases hu
    rfl
  · cases hu
    rcases hfree x hx hl' with ⟨hmode, _⟩ | ⟨_, hsame⟩
    · cases hmode
    · exact hsame
  · subst hl'
    rcases hfree _ hu rfl with ⟨_, hmode⟩ | ⟨_, hsame⟩
    · cases hmode
    · exact hsame.symm
  · exact h u l' hu x hx hl'

theorem Exclusion.sublist (h : w.Exclusion) {w' : World Y} (hholds : w'.holds ⊆ w.holds) :
    w'.Exclusion :=
  fun t l ht x hx hl => h t l (hholds ht) x (hholds hx) hl

theorem Exclusion.next (h : w.Exclusion) {op : Op Y} (hop : w.enabled op = true) :
    (w.next op).Exclusion := by
  cases op with
  | start t f => exact h
  | run t e =>
    have hran := ran hop
    generalize w.next (.run t e) = w' at hran
    cases hran with
    | done | act | call => exact h
    | lock hthread hfree => exact h.cons hfree rfl
    | unlock => exact h.sublist List.erase_subset

/-! ## A world with one thread -/

/-- One thread runs `p`, and nobody else holds a lock. -/
def alone (s : Y.State) (t : Tid) (f : S.Label) (p : Prog S S.Result) (held : List (S.Lock × Mode)) :
    World Y :=
  ⟨s, Function.update (fun _ => none) t (some (f, p)), held.map (Prod.mk t)⟩

variable {s s' : Y.State} {f : S.Label} {p : Prog S S.Result} {held : List (S.Lock × Mode)}
  {l : S.Lock} {m : Mode} {e : Y.Env}

theorem alone_thread : (alone s t f p held : World Y).thread t = some (f, p) := by
  simp [alone]

theorem alone_start : (quiet s : World Y).next (.start t f) = alone s t f (Y.body f) [] := rfl

theorem alone_lock {k : Prog S S.Result} (hl : ∀ m', (l, m') ∉ held) :
    (alone s t f (.lock l m k) held : World Y).enabled (.run t e) = true ∧
      (alone s t f (.lock l m k) held : World Y).next (.run t e) =
        alone s t f k ((l, m) :: held) := by
  simp only [enabled, next, alone_thread, decide_eq_true_eq]
  refine ⟨?_, ?_⟩
  · rintro ⟨u, l', m'⟩ hx rfl
    obtain ⟨⟨l', m'⟩, hmem, heq⟩ := List.mem_map.mp hx
    cases heq
    exact absurd hmem (hl m')
  · simp [alone, setThread]

theorem alone_unlock {k : Prog S S.Result} :
    (alone s t f (.unlock l m k) ((l, m) :: held) : World Y).enabled (.run t e) = true ∧
      (alone s t f (.unlock l m k) ((l, m) :: held) : World Y).next (.run t e) =
        alone s t f k held := by
  simp only [enabled, next, alone_thread]
  simp [alone, setThread]

theorem alone_act {a : S.Act} {k : S.Answer a → Prog S S.Result} {x : S.Answer a}
    (hexec : Y.exec a e s = some (x, s')) :
    (alone s t f (.act a k) held : World Y).enabled (.run t e) = true ∧
      (alone s t f (.act a k) held : World Y).next (.run t e) = alone s' t f (k x) held := by
  simp only [enabled, next, alone_thread]
  have hstate : (alone s t f (.act a k) held : World Y).state = s := rfl
  rw [hstate, hexec]
  simp [alone, setThread]

end World

end Threads
