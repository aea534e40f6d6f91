import Mathlib.Data.Nat.Find
import Mathlib.Data.Nat.Init
import SensorLib.Threads.Sequential

/-! # Fair executions

Executions go on for ever, and a thread that can move again and again does move
at last. A call then gets wherever its program leads, whatever it is answered.
-/

namespace Threads

open Runs

variable {S : Signature} {Y : System S} {α : Type}

/-- Whatever answers `A` allows, a program gets to one of the kind `Q`, and meets only instructions
that `T` allows on the way. -/
inductive Arrives (Y : System S) (A : (a : S.Act) → S.Answer a → Prop) (T : Instr S → Prop)
    (Q : Prog S α → Prop) : Prog S α → Prop
  | here {p : Prog S α} (h : Q p) : Arrives Y A T Q p
  | lock {l : S.Lock} {m : Mode} {k : Prog S α} (ht : T (.lock l m)) (hk : Arrives Y A T Q k) :
      Arrives Y A T Q (.lock l m k)
  | unlock {l : S.Lock} {m : Mode} {k : Prog S α} (ht : T (.unlock l m))
      (hk : Arrives Y A T Q k) : Arrives Y A T Q (.unlock l m k)
  | act {a : S.Act} {k : S.Answer a → Prog S α} (ht : T (.act a))
      (hk : ∀ x, A a x → Arrives Y A T Q (k x)) : Arrives Y A T Q (.act a k)
  | call {f : S.Label} {k : S.Result → Prog S α} (ht : T (.call f))
      (hk : Arrives Y A T Q ((Y.body f).bind k)) : Arrives Y A T Q (.call f k)

namespace World

/-- The environment can let the thread move. -/
def Ready (w : World Y) (t : Tid) : Prop := ∃ e, w.enabled (.run t e) = true

variable {w : World Y} {t : Tid} {f : S.Label}

theorem ready_lock [Inhabited Y.Env] {l : S.Lock} {m : Mode} {k : Prog S S.Result}
    (hthread : w.thread t = some (f, .lock l m k)) (hfree : w.Free t l m) : w.Ready t :=
  ⟨default, by simp only [enabled, hthread, hfree, decide_true]⟩

theorem ready_act {a : S.Act} {k : S.Answer a → Prog S S.Result} {e : Y.Env}
    (hthread : w.thread t = some (f, .act a k)) (hexec : (Y.exec a e w.state).isSome = true) :
    w.Ready t :=
  ⟨e, by simp only [enabled, hthread, hexec]⟩

/-- Only a lock and an act can keep a thread waiting. -/
theorem ready_of_head [Inhabited Y.Env] {p : Prog S S.Result} (hthread : w.thread t = some (f, p))
    (hlock : ∀ l m, p.head ≠ .lock l m) (hact : ∀ a, p.head ≠ .act a) : w.Ready t := by
  apply Exists.intro default
  cases p with
  | pure | unlock | call => simp only [enabled, hthread]
  | lock l m k => exact absurd rfl (hlock l m)
  | act a k => exact absurd rfl (hact a)

end World

/-- A world at each time, and what happens then, if anything does. -/
structure Execution (Y : System S) where
  world : Nat → World Y
  op : Nat → Option (Op Y)
  enabled : ∀ n o, op n = some o → (world n).enabled o = true
  next : ∀ n o, op n = some o → world (n + 1) = (world n).next o
  still : ∀ n, op n = none → world (n + 1) = world n

namespace Execution

variable (E : Execution Y)

/-- From `n` on, the thread can move again and again. -/
def Recurs (t : Tid) (n : Nat) : Prop := ∀ m, n ≤ m → ∃ k, m ≤ k ∧ (E.world k).Ready t

/-- A thread that can move again and again does move. -/
def Fair (t : Tid) : Prop := ∀ n, E.Recurs t n → ∃ k, n ≤ k ∧ ∃ e, E.op k = some (.run t e)

variable {E} {t : Tid} {n : Nat} {f : S.Label} {p : Prog S S.Result}

theorem invariant {I : World Y → Prop} (hstart : I (E.world 0))
    (hstep : ∀ n o, E.op n = some o → I (E.world n) → I ((E.world n).next o)) (n : Nat) :
    I (E.world n) := by
  induction n with
  | zero => exact hstart
  | succ n ih =>
    cases hop : E.op n with
    | none =>
      rw [E.still n hop]
      exact ih
    | some o =>
      rw [E.next n o hop]
      exact hstep n o hop ih

/-- A thread stays where it is as long as it does not move. -/
theorem thread_succ (hthread : (E.world n).thread t = some (f, p))
    (hstays : ∀ e, E.op n ≠ some (.run t e)) : (E.world (n + 1)).thread t = some (f, p) := by
  cases hop : E.op n with
  | none => rw [E.still n hop, hthread]
  | some o =>
    have henabled := E.enabled n o hop
    rw [E.next n o hop]
    cases o with
    | start u g =>
      have hu : t ≠ u := by
        rintro rfl
        rw [World.start_enabled.mp henabled] at hthread
        cases hthread
      rw [World.next_start_of_ne g hu, hthread]
    | run u e =>
      have hu : t ≠ u := by
        rintro rfl
        exact hstays e hop
      rw [World.next_run_of_ne henabled hu, hthread]

theorem thread_stays (hthread : (E.world n).thread t = some (f, p)) {m : Nat} (hm : n ≤ m)
    (hstays : ∀ k, n ≤ k → k < m → ∀ e, E.op k ≠ some (.run t e)) :
    (E.world m).thread t = some (f, p) := by
  induction m, hm using Nat.le_induction with
  | base => exact hthread
  | succ m hm ih =>
    apply thread_succ (ih fun k hk hkm => hstays k hk (by omega))
    exact hstays m hm (by omega)

theorem ready_of_op {e : Y.Env} (hop : E.op n = some (.run t e)) : (E.world n).Ready t :=
  ⟨e, E.enabled n _ hop⟩

/-- A thread stays where it waits. -/
theorem thread_waits (hthread : (E.world n).thread t = some (f, p))
    (hwaits : ∀ m, n ≤ m → ¬ (E.world m).Ready t) {m : Nat} (hm : n ≤ m) :
    (E.world m).thread t = some (f, p) := by
  apply thread_stays hthread hm
  intro k hk _ e hop
  exact hwaits k hk (ready_of_op hop)

theorem act_of_op {a : S.Act} {k : S.Answer a → Prog S S.Result} {e : Y.Env}
    (hthread : (E.world n).thread t = some (f, .act a k)) (hop : E.op n = some (.run t e)) :
    ∃ x, Y.exec a e (E.world n).state = some (x, (E.world (n + 1)).state) ∧
      (E.world (n + 1)).thread t = some (f, k x) := by
  have henabled := E.enabled n _ hop
  simp only [World.enabled, hthread] at henabled
  obtain ⟨⟨x, s⟩, hexec⟩ := Option.isSome_iff_exists.mp henabled
  apply Exists.intro x
  rw [E.next n _ hop]
  constructor <;> simp [World.next, hthread, hexec]

/-- Where a thread that stays can move again and again, there is a time when it moves on from where
it stands. -/
theorem exists_move (hfair : E.Fair t) (hthread : (E.world n).thread t = some (f, p))
    (hready : ∀ m, n ≤ m → (E.world m).thread t = some (f, p) → ∃ k, m ≤ k ∧ (E.world k).Ready t) :
    ∃ k, n ≤ k ∧ (E.world k).thread t = some (f, p) ∧ ∃ e, E.op k = some (.run t e) := by
  have hmoves : ∃ k, n ≤ k ∧ ∃ e, E.op k = some (.run t e) := by
    by_contra hnone
    have hstays : ∀ m, n ≤ m → (E.world m).thread t = some (f, p) := by
      intro m hm
      apply thread_stays hthread hm
      intro k hk _ e hop
      exact hnone ⟨k, hk, e, hop⟩
    obtain ⟨k, hk, e, hop⟩ := hfair n fun m hm => hready m hm (hstays m hm)
    exact hnone ⟨k, hk, e, hop⟩
  classical
  have hleast := Nat.find_spec hmoves
  refine ⟨Nat.find hmoves, hleast.1, ?_, hleast.2⟩
  apply thread_stays hthread hleast.1
  intro k hk hkm e hop
  exact Nat.find_min hmoves hkm ⟨hk, e, hop⟩

/-- A thread gets where its program leads. -/
theorem arrives {A : (a : S.Act) → S.Answer a → Prop} {T : Instr S → Prop}
    {Q : Prog S S.Result → Prop} (hfair : E.Fair t)
    (hthread : (E.world n).thread t = some (f, p)) (hp : Arrives Y A T Q p)
    (hanswers : ∀ m, n ≤ m → ∀ a k e x s, (E.world m).thread t = some (f, .act a k) →
      Y.exec a e (E.world m).state = some (x, s) → A a x)
    (hready : ∀ m, n ≤ m → ∀ p, (E.world m).thread t = some (f, p) → T p.head →
      ∃ k, m ≤ k ∧ (E.world k).Ready t) :
    ∃ m, n ≤ m ∧ ∃ q, (E.world m).thread t = some (f, q) ∧ Q q := by
  induction hp generalizing n with
  | here h => exact ⟨n, Nat.le_refl n, _, hthread, h⟩
  | lock ht _ ih | unlock ht _ ih | call ht _ ih =>
    obtain ⟨k, hk, hstands, e, hop⟩ := exists_move hfair hthread
      fun m hm hstands => hready m hm _ hstands ht
    obtain ⟨m, hm, q, hq⟩ := ih (n := k + 1) (by rw [E.next k _ hop]; simp [World.next, hstands])
      (fun m hm => hanswers m (by omega)) (fun m hm => hready m (by omega))
    exact ⟨m, by omega, q, hq⟩
  | @act a rest ht _ ih =>
    obtain ⟨k, hk, hstands, e, hop⟩ := exists_move hfair hthread
      fun m hm hstands => hready m hm _ hstands ht
    obtain ⟨x, hexec, hnext⟩ := act_of_op hstands hop
    obtain ⟨m, hm, q, hq⟩ := ih x (hanswers k hk a rest e x _ hstands hexec) hnext
      (fun m hm => hanswers m (by omega)) (fun m hm => hready m (by omega))
    exact ⟨m, by omega, q, hq⟩

/-- A call whose program comes to its end returns. -/
theorem returns [Inhabited Y.Env] {A : (a : S.Act) → S.Answer a → Prop} (hfair : E.Fair t)
    (hthread : (E.world n).thread t = some (f, p))
    (hp : Arrives Y A (fun _ => True) (fun q => ∃ r, q = .pure r) p)
    (hanswers : ∀ m, n ≤ m → ∀ a k e x s, (E.world m).thread t = some (f, .act a k) →
      Y.exec a e (E.world m).state = some (x, s) → A a x)
    (hready : ∀ m, n ≤ m → ∀ p, (E.world m).thread t = some (f, p) →
      ∃ k, m ≤ k ∧ (E.world k).Ready t) :
    ∃ m, n ≤ m ∧ (E.world m).thread t = none := by
  obtain ⟨m, hm, _, hend, r, rfl⟩ := arrives hfair hthread hp hanswers
    fun m hm p hp _ => hready m hm p hp
  obtain ⟨k, hk, hend, e, hop⟩ := exists_move hfair hend
    fun m' hm' hp => hready m' (by omega) _ hp
  refine ⟨k + 1, by omega, ?_⟩
  rw [E.next k _ hop]
  simp [World.next, hend]

/-! ## Executions in which nothing happens any more -/

/-- A run, after which nothing happens. -/
def ofRun (w : World Y) (ops : List (Op Y)) (hlegal : (machine Y).Legal w ops) : Execution Y where
  world n := (machine Y).run w (ops.take n)
  op n := ops[n]?
  enabled n o hop := by
    obtain ⟨hn, rfl⟩ := List.getElem?_eq_some_iff.mp hop
    have hsplit : ops = ops.take n ++ ops[n] :: ops.drop (n + 1) := by simp
    rw [hsplit, Machine.Legal, Machine.each_append] at hlegal
    exact hlegal.2.1
  next n o hop := by
    obtain ⟨hn, rfl⟩ := List.getElem?_eq_some_iff.mp hop
    rw [List.take_add_one, Machine.run_append, hop]
    rfl
  still n hop := by
    rw [List.take_add_one, hop, Option.toList_none, List.append_nil]

theorem ofRun_each {w : World Y} {ops : List (Op Y)} {hlegal : (machine Y).Legal w ops}
    {C : World Y → Op Y → Prop} (h : (machine Y).Each C w ops) {n : Nat} {o : Op Y}
    (hop : (ofRun w ops hlegal).op n = some o) : C ((ofRun w ops hlegal).world n) o := by
  obtain ⟨hn, rfl⟩ := List.getElem?_eq_some_iff.mp hop
  have hsplit : ops = ops.take n ++ ops[n] :: ops.drop (n + 1) := by simp
  rw [hsplit, Machine.each_append] at h
  exact h.2.1

theorem ofRun_world_of_le {w : World Y} {ops : List (Op Y)} {hlegal : (machine Y).Legal w ops}
    {n : Nat} (hn : ops.length ≤ n) : (ofRun w ops hlegal).world n = (machine Y).run w ops := by
  show (machine Y).run w (ops.take n) = _
  rw [List.take_of_length_le hn]

/-- A run after which no call is left is fair. -/
theorem ofRun_fair {w : World Y} {ops : List (Op Y)} {hlegal : (machine Y).Legal w ops}
    (hidle : ((machine Y).run w ops).thread t = none) : (ofRun w ops hlegal).Fair t := by
  intro n hrecurs
  obtain ⟨k, hk, e, henabled⟩ := hrecurs (max n ops.length) (Nat.le_max_left _ _)
  rw [ofRun_world_of_le (by omega)] at henabled
  simp [World.enabled, hidle] at henabled

end Execution

end Threads
