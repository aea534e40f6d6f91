import SensorLib.Threads.Blocks
import SensorLib.Threads.Paths

/-! # Programs that no other thread comes between

Where one thread makes one call after the other, locks do not matter, and a
program has a weakest precondition. What the calls keep holds between them in
every run, and what they owe before an act is met at every act.
-/

namespace Threads

open Runs

/-- A system that also writes a history of what its acts did. -/
@[reducible] def System.recording {S : Signature} (Y : System S) {H : Type}
    (record : S.Act → Y.Env → Y.State → H → H) : System S where
  State := Y.State × H
  Env := Y.Env
  exec a e s := (Y.exec a e s.1).map fun out => (out.1, out.2, record a e s.1 s.2)
  body := Y.body
  reentrant := Y.reentrant

variable {S : Signature} {α β : Type}

theorem System.recording_exec {Y : System S} {H : Type}
    {record : S.Act → Y.Env → Y.State → H → H} {a : S.Act} {e : Y.Env} {s s' : Y.State × H}
    {x : S.Answer a} (h : (Y.recording record).exec a e s = some (x, s')) :
    Y.exec a e s.1 = some (x, s'.1) ∧ s'.2 = record a e s.1 s.2 := by
  obtain ⟨out, hexec, heq⟩ := Option.map_eq_some_iff.mp h
  cases heq
  exact ⟨hexec, rfl⟩

namespace Prog

variable {T : S.Act → Prop}

/-- The acts of a program are all of the kind `T`, whatever the locks around them. -/
def ActsIn (T : S.Act → Prop) : Prog S α → Prop
  | .pure _ => True
  | .lock _ _ k | .unlock _ _ k => ActsIn T k
  | .act a k => T a ∧ ∀ x, ActsIn T (k x)
  | .call .. => False

theorem ActsIn.mono {U : S.Act → Prop} (hTU : ∀ a, T a → U a) {p : Prog S α}
    (hp : ActsIn T p) : ActsIn U p := by
  induction p with
  | pure a => trivial
  | lock l m k ih | unlock l m k ih => exact ih hp
  | act a k ih => exact ⟨hTU a hp.1, fun x => ih x (hp.2 x)⟩
  | call => exact hp.elim

theorem ActsIn.bind {p : Prog S α} {q : α → Prog S β} (hp : ActsIn T p)
    (hq : ∀ a, ActsIn T (q a)) : ActsIn T (p.bind q) := by
  induction p with
  | pure a => exact hq a
  | lock l m k ih | unlock l m k ih => exact ih hp
  | act a k ih => exact ⟨hp.1, fun x => ih x (hp.2 x)⟩
  | call => exact hp.elim

theorem ActsIn.locked {l : S.Lock} {m : Mode} {p : Prog S α} (hp : ActsIn T p) :
    ActsIn T (Prog.locked l m p) := by
  have hunlocked : ActsIn T (p.bind fun a => .unlock l m (.pure a)) := hp.bind fun _ => trivial
  exact hunlocked

theorem Only.actsIn {p : Prog S α} (hp : p.Only T) : p.ActsIn T := by
  induction p with
  | pure a => trivial
  | act a k ih => exact ⟨hp.1, fun x => ih x (hp.2 x)⟩
  | lock | unlock | call => exact hp.elim

theorem Built.actsIn {B : (β : Type) → Prog S β → Prop} {p : Prog S α}
    (hB : ∀ (β : Type) (q : Prog S β), B β q → q.ActsIn T) (hp : p.Built B) : p.ActsIn T := by
  induction hp with
  | pure a => trivial
  | bind hp _ ih => exact (hB _ _ hp).bind ih

/-- What a program that runs alone computes, where the environment chooses as listed. -/
def eval {Y : System S} : Prog S α → List Y.Env → Y.State → Option (α × Y.State)
  | .pure a, _, s => some (a, s)
  | .lock _ _ k, es, s | .unlock _ _ k, es, s => eval k es s
  | .act _ _, [], _ => none
  | .act a k, e :: es, s => (Y.exec a e s).bind fun out => eval (k out.1) es out.2
  | .call .., _, _ => none

end Prog

variable {Y : System S}

namespace World

variable (w : World Y)

/-- The act that a thread stands at. -/
def nextAct (t : Tid) : Option S.Act :=
  match w.thread t with
  | some (_, .act a _) => some a
  | _ => none

/-- The act of an operation, and what the environment chooses for it. -/
def performed : Op Y → Option (S.Act × Y.Env)
  | .start .. => none
  | .run t e => (w.nextAct t).map fun a => (a, e)

variable {w}

theorem nextAct_eq_some {t : Tid} {a : S.Act} :
    w.nextAct t = some a ↔ ∃ f k, w.thread t = some (f, .act a k) := by
  unfold nextAct
  constructor
  · intro h
    split at h
    · rename_i f a' k hthread
      cases h
      exact ⟨f, k, hthread⟩
    · cases h
  · rintro ⟨f, k, hthread⟩
    simp only [hthread]

theorem performed_run {t : Tid} {a : S.Act} {e : Y.Env} :
    w.performed (.run t e) = some (a, e) ↔ ∃ f k, w.thread t = some (f, .act a k) := by
  rw [← nextAct_eq_some, performed, Option.map_eq_some_iff]
  constructor
  · rintro ⟨_, hact, heq⟩
    cases heq
    exact hact
  · exact fun hact => ⟨a, hact, rfl⟩

/-- The state changes only where an act is performed. -/
theorem state_next {op : Op Y} (hop : w.enabled op = true) :
    w.performed op = none ∧ (w.next op).state = w.state ∨
      ∃ a e x, w.performed op = some (a, e) ∧ Y.exec a e w.state = some (x, (w.next op).state) := by
  cases op with
  | start t f => exact Or.inl ⟨rfl, rfl⟩
  | run t e =>
    have hran := ran hop
    generalize w.next (.run t e) = w' at hran
    cases hran with
    | done hthread | lock hthread | unlock hthread | call hthread =>
      exact Or.inl ⟨by simp [performed, nextAct, hthread], rfl⟩
    | @act f a k x s hthread hexec =>
      exact Or.inr ⟨a, e, x, performed_run.mpr ⟨f, k, hthread⟩, hexec⟩

end World

/-- What holds all the time, what is owed before an act, and what the environment is taken to do
at it. -/
structure Contract (Y : System S) where
  holds : Y.State → Prop
  owes : S.Act → Y.State → Prop
  assumes : S.Act → Y.Env → Y.State → Prop

namespace Contract

variable (K : Contract Y)

/-- From the state given, a program that runs alone meets the contract, and leaves `Q`. -/
def Wp : Prog S α → (α → Y.State → Prop) → Y.State → Prop
  | .pure a, Q, s => Q a s
  | .lock _ _ k, Q, s | .unlock _ _ k, Q, s => Wp k Q s
  | .act a k, Q, s =>
    K.owes a s ∧ ∀ e x s', K.assumes a e s → Y.exec a e s = some (x, s') →
      K.holds s' ∧ Wp (k x) Q s'
  | .call .., _, _ => False

/-- Where `I` holds, what is owed before an act does, and the act leaves what `J` says of its
answer. -/
def Brings (I : Y.State → Prop) (a : S.Act) (J : S.Answer a → Y.State → Prop) : Prop :=
  ∀ s, I s → K.owes a s ∧ ∀ e x s', K.assumes a e s → Y.exec a e s = some (x, s') → J x s'

abbrev Keeps (I : Y.State → Prop) (a : S.Act) : Prop := K.Brings I a fun _ => I

variable {K} {Q R : α → Y.State → Prop} {s : Y.State}

theorem Wp.mono {p : Prog S α} (hp : K.Wp p Q s) (hQR : ∀ a s, Q a s → R a s) : K.Wp p R s := by
  induction p generalizing s with
  | pure a => exact hQR a s hp
  | lock l m k ih | unlock l m k ih => exact ih hp
  | act a k ih =>
    refine ⟨hp.1, fun e x s' he hexec => ?_⟩
    obtain ⟨hholds, hk⟩ := hp.2 e x s' he hexec
    exact ⟨hholds, ih x hk⟩
  | call => exact hp.elim

theorem wp_bind {p : Prog S β} {q : β → Prog S α} :
    K.Wp (p.bind q) Q s ↔ K.Wp p (fun b s => K.Wp (q b) Q s) s := by
  induction p generalizing s with
  | pure b => exact Iff.rfl
  | lock l m k ih | unlock l m k ih => exact ih
  | act a k ih =>
    exact and_congr_right fun _ => forall_congr' fun e => forall_congr' fun x =>
      forall_congr' fun s' => imp_congr_right fun _ => imp_congr_right fun _ =>
        and_congr_right fun _ => ih x
  | call => exact Iff.rfl

/-- A program checked by its specification, and the rest after it. -/
theorem Wp.bind {p : Prog S β} {q : β → Prog S α} {P : β → Y.State → Prop} (hp : K.Wp p P s)
    (hq : ∀ b s, P b s → K.Wp (q b) Q s) : K.Wp (p.bind q) Q s := wp_bind.mpr (hp.mono hq)

theorem wp_locked {l : S.Lock} {m : Mode} {p : Prog S α} :
    K.Wp (Prog.locked l m p) Q s ↔ K.Wp p Q s := wp_bind

theorem Brings.wp_answer {I : Y.State → Prop} {a : S.Act} {J : S.Answer a → Y.State → Prop}
    (ha : K.Brings I a J) (hJ : ∀ x s, J x s → K.holds s) {k : S.Answer a → Prog S α} (hs : I s)
    (hk : ∀ x s, J x s → K.Wp (k x) Q s) : K.Wp (.act a k) Q s := by
  obtain ⟨howes, hbrings⟩ := ha s hs
  refine ⟨howes, fun e x s' he hexec => ?_⟩
  have hs' := hbrings e x s' he hexec
  exact ⟨hJ x s' hs', hk x s' hs'⟩

theorem Brings.wp_act {I J : Y.State → Prop} {a : S.Act} (ha : K.Brings I a fun _ => J)
    (hJ : ∀ s, J s → K.holds s) {k : S.Answer a → Prog S α} (hs : I s)
    (hk : ∀ x s, J s → K.Wp (k x) Q s) : K.Wp (.act a k) Q s :=
  ha.wp_answer (fun _ => hJ) hs hk

/-- What every act of a program keeps, the program keeps. -/
theorem wp_actsIn {I : Y.State → Prop} {T : S.Act → Prop} {p : Prog S α}
    (hI : ∀ s, I s → K.holds s) (hT : ∀ a, T a → K.Keeps I a) (hp : p.ActsIn T) (hs : I s) :
    K.Wp p (fun _ => I) s := by
  induction p generalizing s with
  | pure a => exact hs
  | lock l m k ih | unlock l m k ih => exact ih hp hs
  | act a k ih => exact (hT a hp.1).wp_act hI hs fun x s' hs' => ih x (hp.2 x) hs'
  | call => exact hp.elim

/-- A contract that asks for nothing, for what a program computes. -/
def free (Y : System S) : Contract Y where
  holds _ := True
  owes _ _ := True
  assumes _ _ _ := True

theorem wp_eval {p : Prog S α} (hp : (free Y).Wp p Q s) {es : List Y.Env} {a : α} {s' : Y.State}
    (h : p.eval es s = some (a, s')) : Q a s' := by
  induction p generalizing s es with
  | pure b =>
    cases h
    exact hp
  | lock l m k ih | unlock l m k ih => exact ih hp h
  | act b k ih =>
    cases es with
    | nil => cases h
    | cons e es =>
      obtain ⟨out, hexec, hk⟩ := Option.bind_eq_some_iff.mp h
      exact ih out.1 (hp.2 e out.1 out.2 trivial hexec).2 hk
  | call => exact hp.elim

/-! ## Two programs of one thread -/

section Beside

variable {ι : Type} {I : ι → Y.State → Prop} {i : ι}

/-- Every act of a program leads from one assertion of a family to another. What keeps them all
may come between its acts. -/
def WpAlong (K : Contract Y) (I : ι → Y.State → Prop) :
    Prog S α → (α → Y.State → Prop) → ι → Prop
  | .pure a, Q, i => ∀ s, I i s → Q a s
  | .lock _ _ k, Q, i | .unlock _ _ k, Q, i => WpAlong K I k Q i
  | .act a k, Q, i =>
    ∀ s, I i s → K.owes a s ∧ ∀ e x s', K.assumes a e s → Y.exec a e s = some (x, s') →
      ∃ j, I j s' ∧ WpAlong K I (k x) Q j
  | .call .., _, _ => False

variable (hI : ∀ i s, I i s → K.holds s)

include hI

theorem WpAlong.wp {p : Prog S α} (hp : K.WpAlong I p Q i) (hs : I i s) : K.Wp p Q s := by
  induction p generalizing i s with
  | pure a => exact hp s hs
  | lock l m k ih | unlock l m k ih => exact ih hp hs
  | act a k ih =>
    refine ⟨(hp s hs).1, fun e x s' he hexec => ?_⟩
    obtain ⟨j, hs', hk⟩ := (hp s hs).2 e x s' he hexec
    exact ⟨hI j s' hs', ih x hk hs'⟩
  | call => exact hp.elim

theorem WpAlong.beside {turn : S.Act} {isLeft : S.Answer turn → Bool}
    {left : Prog S α → Prog S α} {q : Prog S α} (hturn : ∀ i, K.Keeps (I i) turn)
    (hleft : ∀ q i s, K.WpAlong I q Q i → I i s → K.Wp (left q) Q s) (hq : K.WpAlong I q Q i)
    (hs : I i s) : K.Wp (Prog.beside turn isLeft left q) Q s := by
  induction q generalizing i s with
  | pure a => exact hleft _ i s hq hs
  | lock l m k ih | unlock l m k ih =>
    refine (hturn i).wp_act (hI i) hs fun x s hs => ?_
    split
    · exact hleft _ i s hq hs
    · exact ih hq hs
  | act a k ih =>
    refine (hturn i).wp_act (hI i) hs fun x s hs => ?_
    split
    · exact hleft _ i s hq hs
    · refine ⟨(hq s hs).1, fun e y s' he hexec => ?_⟩
      obtain ⟨j, hs', hk⟩ := (hq s hs).2 e y s' he hexec
      exact ⟨hI j s' hs', ih y hk hs'⟩
  | call => exact hq.elim

/-- A program that keeps the assertions does not disturb the one beside it. -/
theorem WpAlong.interleave {turn : S.Act} {isLeft : S.Answer turn → Bool} {p : Prog S Unit}
    {q : Prog S α} (hturn : ∀ i, K.Keeps (I i) turn) (hp : p.ActsIn fun a => ∀ i, K.Keeps (I i) a)
    (hq : K.WpAlong I q Q i) (hs : I i s) : K.Wp (Prog.interleave turn isLeft p q) Q s := by
  induction p generalizing q i s with
  | pure a => exact hq.wp hI hs
  | lock l m k ih | unlock l m k ih =>
    exact hq.beside hI hturn (fun q i s hq hs => ih hp hq hs) hs
  | act a k ih =>
    refine hq.beside hI hturn (fun q i s hq hs => ?_) hs
    exact (hp.1 i).wp_act (hI i) hs fun x s hs => ih x (hp.2 x) hq hs
  | call => exact hp.elim

end Beside

/-! ## Runs of one thread -/

/-- The environment does what it is taken to do. -/
def Meets (K : Contract Y) (w : World Y) (op : Op Y) : Prop :=
  ∀ x ∈ w.performed op, K.assumes x.1 x.2 w.state

instance [∀ a e s, Decidable (K.assumes a e s)] (w : World Y) (op : Op Y) :
    Decidable (K.Meets w op) :=
  inferInstanceAs (Decidable (∀ x ∈ w.performed op, K.assumes x.1 x.2 w.state))

/-- Only `t` runs calls. Between calls `I` holds, and the rest of a call leaves `I` and what
`Post` says of its result. -/
structure Attended (K : Contract Y) (I : Y.State → Prop)
    (Post : S.Label → S.Result → Y.State → Prop) (t : Tid) (w : World Y) : Prop where
  others : ∀ u, u ≠ t → w.thread u = none
  holds : K.holds w.state
  idle : w.thread t = none → I w.state
  busy : ∀ f p, w.thread t = some (f, p) → K.Wp p (fun r s => I s ∧ Post f r s) w.state

variable {I : Y.State → Prop} {Post : S.Label → S.Result → Y.State → Prop} {F : S.Label → Prop}
  {t : Tid} {w : World Y}

theorem attended_quiet (hI : ∀ s, I s → K.holds s) (hs : I s) :
    K.Attended I Post t (World.quiet s) where
  others _ _ := rfl
  holds := hI s hs
  idle _ := hs
  busy _ _ h := by cases h

theorem Attended.owes (h : K.Attended I Post t w) {u : Tid} {a : S.Act}
    (hact : w.nextAct u = some a) : K.owes a w.state := by
  obtain ⟨f, k, hthread⟩ := World.nextAct_eq_some.mp hact
  by_cases hu : u = t
  · subst hu
    exact (h.busy f _ hthread).1
  · rw [h.others u hu] at hthread
    cases hthread

theorem Attended.start (h : K.Attended I Post t w) {f : S.Label} (hidle : w.thread t = none)
    (hbody : ∀ s, I s → K.Wp (Y.body f) (fun r s => I s ∧ Post f r s) s) :
    K.Attended I Post t (w.next (.start t f)) where
  others u hu := (World.next_start_of_ne f hu).trans (h.others u hu)
  holds := h.holds
  idle hnone := by simp [World.next] at hnone
  busy g p hthread := by
    simp only [World.next, World.setThread_thread, Function.update_self, Option.some.injEq]
      at hthread
    cases hthread
    exact hbody _ (h.idle hidle)

/-- The thread goes on with what is left of its call. -/
theorem attended_of_thread {w' : World Y} {f : S.Label} {p : Prog S S.Result}
    (hothers : ∀ u, u ≠ t → w'.thread u = none)
    (hthread : w'.thread = Function.update w.thread t (some (f, p))) (hholds : K.holds w'.state)
    (hp : K.Wp p (fun r s => I s ∧ Post f r s) w'.state) : K.Attended I Post t w' where
  others := hothers
  holds := hholds
  idle hnone := by simp [hthread] at hnone
  busy g q hg := by
    rw [hthread, Function.update_self, Option.some.injEq] at hg
    cases hg
    exact hp

theorem Attended.run (h : K.Attended I Post t w) {e : Y.Env} (hop : w.enabled (.run t e) = true)
    (hmeets : K.Meets w (.run t e)) : K.Attended I Post t (w.next (.run t e)) := by
  have hothers : ∀ u, u ≠ t → (w.next (.run t e)).thread u = none := fun u hu =>
    (World.next_run_of_ne hop hu).trans (h.others u hu)
  have hran := World.ran hop
  generalize hw' : w.next (.run t e) = w' at hran hothers
  cases hran with
  | @done f r hthread =>
    exact ⟨hothers, h.holds, fun _ => (h.busy f _ hthread).1, fun g p hg => by simp at hg⟩
  | @lock f l m k hthread =>
    have hk : K.Wp (.lock l m k) _ w.state := h.busy f _ hthread
    exact attended_of_thread (w := w) hothers rfl h.holds hk
  | @unlock f l m k hthread =>
    have hk : K.Wp (.unlock l m k) _ w.state := h.busy f _ hthread
    exact attended_of_thread (w := w) hothers rfl h.holds hk
  | @act f a k x s hthread hexec =>
    have hassumed : K.assumes a e w.state := hmeets (a, e) (World.performed_run.mpr ⟨f, k, hthread⟩)
    obtain ⟨hholds, hk⟩ := (h.busy f _ hthread).2 e x s hassumed hexec
    exact attended_of_thread (w := w) hothers rfl hholds hk
  | @call f g k hthread => exact (h.busy f _ hthread).elim

theorem Attended.next (hcover : ∀ f, F f → ∀ s, I s →
      K.Wp (Y.body f) (fun r s => I s ∧ Post f r s) s)
    (h : K.Attended I Post t w) {op : Op Y} (hop : w.enabled op = true) (htid : op.tid = t)
    (hF : ∀ u f, op = .start u f → F f) (hmeets : K.Meets w op) :
    K.Attended I Post t (w.next op) := by
  cases op with
  | start u f =>
    obtain rfl : u = t := htid
    exact h.start (World.start_enabled.mp hop) (hcover f (hF u f rfl))
  | run u e =>
    obtain rfl : u = t := htid
    exact h.run hop hmeets

/-- Every state of a run of one thread is attended. -/
theorem attended_always {P : World Y → Prop} (hI : ∀ s, I s → K.holds s)
    (hcover : ∀ f, F f → ∀ s, I s → K.Wp (Y.body f) (fun r s => I s ∧ Post f r s) s)
    (hP : ∀ w, K.Attended I Post t w → P w) (hs : I s) {ops : List (Op Y)} (hcalls : Calls F ops)
    (hone : ∀ op ∈ ops, op.tid = t) (hlegal : (machine Y).Legal (World.quiet s) ops)
    (hmeets : (machine Y).Each K.Meets (World.quiet s) ops) :
    (machine Y).Always P (World.quiet s) ops := by
  have hstarts := hcalls.each (World.quiet s)
  have htids := Machine.each_of_forall (M := machine Y) (C := fun op => op.tid = t) hone
    (World.quiet s)
  refine Machine.Each.always (M := machine Y) (I := K.Attended I Post t) ?_ hP
    (Machine.Each.and (Machine.Each.and hlegal htids) (Machine.Each.and hstarts hmeets))
    (attended_quiet hI hs)
  rintro w op hw ⟨⟨hop, htid⟩, hF, hmeets⟩
  exact hw.next hcover hop htid hF hmeets

end Contract

end Threads
