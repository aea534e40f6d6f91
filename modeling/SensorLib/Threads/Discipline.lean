import SensorLib.Threads.Blocks
import SensorLib.Threads.World

/-! # Disciplines of threads

A discipline says which instructions a thread may run, given the locks it
holds and a ghost value for what it knows. Programs are checked against it one
by one, without looking at other threads, and an invariant that permitted
instructions keep then holds in every run.
-/

namespace Threads

open Runs

variable {S : Signature} {Y : System S} {α β : Type}

abbrev Held (S : Signature) := List (S.Lock × Mode)

/-- The label that a condition takes first is that of the call the thread runs. -/
structure Discipline (Y : System S) where
  Ghost : Type
  /-- What is known when a call starts. -/
  initial : S.Label → Y.State → Ghost
  mayLock : S.Label → Held S → Ghost → S.Lock → Mode → Prop
  locked : S.Label → Held S → Ghost → S.Lock → Mode → Ghost
  mayUnlock : Held S → Ghost → S.Lock → Mode → Prop
  unlocked : Held S → Ghost → S.Lock → Mode → Ghost
  mayAct : S.Label → Held S → Ghost → S.Act → Prop
  /-- The answers that are possible. -/
  answers : Held S → Ghost → (a : S.Act) → S.Answer a → Prop
  acted : Held S → Ghost → (a : S.Act) → S.Answer a → Ghost
  /-- Before and after a procedure that is called. -/
  mayCall : S.Label → S.Label → Held S → Ghost → Prop
  returns : S.Label → Held S → Ghost → S.Result → Held S → Ghost → Prop
  /-- What is known when a call ends. -/
  finished : S.Label → S.Result → Ghost → Prop

namespace Discipline

variable (D : Discipline Y) (f : S.Label)

/-- From the locks and the ghost value given, a program runs only what it may, and leaves `Q`. -/
def Obeys : Prog S α → Held S → D.Ghost → (α → Held S → D.Ghost → Prop) → Prop
  | .pure a, h, g, Q => Q a h g
  | .lock l m k, h, g, Q =>
    D.mayLock f h g l m ∧ Obeys k ((l, m) :: h) (D.locked f h g l m) Q
  | .unlock l m k, h, g, Q =>
    (l, m) ∈ h ∧ D.mayUnlock h g l m ∧ Obeys k (h.erase (l, m)) (D.unlocked h g l m) Q
  | .act a k, h, g, Q =>
    D.mayAct f h g a ∧ ∀ x, D.answers h g a x → Obeys (k x) h (D.acted h g a x) Q
  | .call p k, h, g, Q =>
    D.mayCall f p h g ∧ ∀ r h' g', D.returns p h g r h' g' → Obeys (k r) h' g' Q

/-- A program that leaves the locks and the ghost value as they were. -/
def Keeps (p : Prog S α) (h : Held S) (g : D.Ghost) : Prop :=
  Obeys D f p h g fun _ h' g' => h' = h ∧ g' = g

variable {D f}

theorem Obeys.mono {p : Prog S α} {h : Held S} {g : D.Ghost}
    {Q R : α → Held S → D.Ghost → Prop} (hp : D.Obeys f p h g Q)
    (hQR : ∀ a h' g', Q a h' g' → R a h' g') : D.Obeys f p h g R := by
  induction p generalizing h g with
  | pure a => exact hQR a h g hp
  | lock l m k ih => exact ⟨hp.1, ih hp.2⟩
  | unlock l m k ih => exact ⟨hp.1, hp.2.1, ih hp.2.2⟩
  | act a k ih => exact ⟨hp.1, fun x hx => ih x (hp.2 x hx)⟩
  | call q k ih => exact ⟨hp.1, fun r h' g' hr => ih r (hp.2 r h' g' hr)⟩

theorem obeys_bind {p : Prog S α} {q : α → Prog S β} {h : Held S} {g : D.Ghost}
    {Q : β → Held S → D.Ghost → Prop} :
    D.Obeys f (p.bind q) h g Q ↔
      D.Obeys f p h g fun a h' g' => D.Obeys f (q a) h' g' Q := by
  induction p generalizing h g with
  | pure a => exact Iff.rfl
  | lock l m k ih => exact and_congr_right fun _ => ih
  | unlock l m k ih => exact and_congr_right fun _ => and_congr_right fun _ => ih
  | act a k ih => exact and_congr_right fun _ => forall_congr' fun x => imp_congr_right fun _ => ih x
  | call r k ih =>
    exact and_congr_right fun _ => forall_congr' fun x => forall_congr' fun _ =>
      forall_congr' fun _ => imp_congr_right fun _ => ih x

/-- A program checked by its specification, and the rest after it. -/
theorem Obeys.bind {p : Prog S α} {q : α → Prog S β} {h : Held S} {g : D.Ghost}
    {P : α → Held S → D.Ghost → Prop} {Q : β → Held S → D.Ghost → Prop}
    (hp : D.Obeys f p h g P) (hq : ∀ a h' g', P a h' g' → D.Obeys f (q a) h' g' Q) :
    D.Obeys f (p.bind q) h g Q :=
  obeys_bind.mpr (hp.mono hq)

theorem Keeps.bind {p : Prog S α} {q : α → Prog S β} {h : Held S} {g : D.Ghost}
    {Q : β → Held S → D.Ghost → Prop} (hp : D.Keeps f p h g)
    (hq : ∀ a, D.Obeys f (q a) h g Q) : D.Obeys f (p.bind q) h g Q := by
  refine Obeys.bind hp ?_
  rintro a h' g' ⟨rfl, rfl⟩
  exact hq a

theorem obeys_locked {l : S.Lock} {m : Mode} {p : Prog S α} {h : Held S} {g : D.Ghost}
    {Q : α → Held S → D.Ghost → Prop} :
    D.Obeys f (Prog.locked l m p) h g Q ↔
      D.mayLock f h g l m ∧ D.Obeys f p ((l, m) :: h) (D.locked f h g l m)
        fun a h' g' => (l, m) ∈ h' ∧ D.mayUnlock h' g' l m ∧
          Q a (h'.erase (l, m)) (D.unlocked h' g' l m) :=
  and_congr_right fun _ => obeys_bind

/-- From what `R` allows to be known, a program leaves the locks as they were and something that
`R` allows. -/
def Remains (D : Discipline Y) (f : S.Label) (R : D.Ghost → Prop) (p : Prog S α) (h : Held S) :
    Prop :=
  ∀ g, R g → D.Obeys f p h g fun _ h' g' => h' = h ∧ R g'

variable {R : D.Ghost → Prop}

theorem Remains.bind {p : Prog S α} {q : α → Prog S β} {h : Held S} {g : D.Ghost}
    {Q : β → Held S → D.Ghost → Prop} (hp : D.Remains f R p h) (hg : R g)
    (hq : ∀ a g', R g' → D.Obeys f (q a) h g' Q) : D.Obeys f (p.bind q) h g Q := by
  refine Obeys.bind (hp g hg) ?_
  rintro a _ g' ⟨rfl, hg'⟩
  exact hq a g' hg'

theorem remains_only {T : S.Act → Prop} {p : Prog S α} {h : Held S}
    (hT : ∀ a, T a → ∀ g, R g → D.mayAct f h g a ∧ ∀ x, D.answers h g a x → R (D.acted h g a x))
    (hp : p.Only T) : D.Remains f R p h := by
  induction p with
  | pure a => exact fun g hg => ⟨rfl, hg⟩
  | act a k ih =>
    intro g hg
    obtain ⟨hmay, hacted⟩ := hT a hp.1 g hg
    exact ⟨hmay, fun x hx => ih x (hp.2 x) _ (hacted x hx)⟩
  | lock | unlock | call => exact hp.elim

theorem remains_built {B : (β : Type) → Prog S β → Prop} {p : Prog S α} {h : Held S}
    (hB : ∀ (β : Type) (q : Prog S β), B β q → D.Remains f R q h) (hp : p.Built B) :
    D.Remains f R p h := by
  induction hp with
  | pure a => exact fun g hg => ⟨rfl, hg⟩
  | bind hp _ ih => exact fun g hg => (hB _ _ hp).bind hg fun b g' hg' => ih b g' hg'

/-- A program of acts none of which changes what is known. -/
theorem keeps_only {T : S.Act → Prop} {p : Prog S α} {h : Held S} {g : D.Ghost}
    (hT : ∀ a, T a → D.mayAct f h g a ∧ ∀ x, D.acted h g a x = g) (hp : p.Only T) :
    D.Keeps f p h g := by
  refine remains_only (R := (· = g)) (fun a ha g' hg' => ?_) hp g rfl
  cases hg'
  exact ⟨(hT a ha).1, fun x _ => (hT a ha).2 x⟩

theorem keeps_built {B : (β : Type) → Prog S β → Prop} {p : Prog S α} {h : Held S} {g : D.Ghost}
    (hB : ∀ (β : Type) (q : Prog S β), B β q → D.Keeps f q h g) (hp : p.Built B) :
    D.Keeps f p h g := by
  refine remains_built (R := (· = g)) (fun β q hq g' hg' => ?_) hp g rfl
  cases hg'
  exact hB β q hq

/-! ## From programs to runs -/

/-- No other thread holds `l` in a way that keeps `t` from locking it. -/
def FreeFor (Y : System S) (H : Tid → Held S) (t : Tid) (l : S.Lock) (m : Mode) : Prop :=
  ∀ u m', (l, m') ∈ H u → m = .shared ∧ m' = .shared ∨ Y.reentrant l = true ∧ u = t

def Excludes (H : Tid → Held S) : Prop :=
  ∀ t u l m, (l, .exclusive) ∈ H t → (l, m) ∈ H u → u = t

/-- `I` holds between steps, whatever the permitted steps are. `P` is what is assumed of
the instructions that are run, in the state they are run in. -/
structure Sound (D : Discipline Y) (I : Y.State → (Tid → Held S) → (Tid → D.Ghost) → Prop)
    (P : Y.State → S.Label → Instr S → Prop) : Prop where
  start : ∀ s H G t f, I s H G → H t = [] → I s H (Function.update G t (D.initial f s))
  lock : ∀ s H G t f l m, Excludes H → I s H G → P s f (.lock l m) →
    D.mayLock f (H t) (G t) l m → FreeFor Y H t l m →
    I s (Function.update H t ((l, m) :: H t))
      (Function.update G t (D.locked f (H t) (G t) l m))
  unlock : ∀ s H G t l m, Excludes H → I s H G → (l, m) ∈ H t → D.mayUnlock (H t) (G t) l m →
    I s (Function.update H t ((H t).erase (l, m)))
      (Function.update G t (D.unlocked (H t) (G t) l m))
  act : ∀ s H G t f a e x s', Excludes H → I s H G → P s f (.act a) →
    D.mayAct f (H t) (G t) a → Y.exec a e s = some (x, s') →
    D.answers (H t) (G t) a x ∧ I s' H (Function.update G t (D.acted (H t) (G t) a x))
  call : ∀ f p h g, D.mayCall f p h g → D.Obeys f (Y.body p) h g (D.returns p h g)

/-- As `Sound`, for threads that know what `R` says while they are in no call. What is assumed of
an instruction may depend on what every thread knows. -/
structure SoundAtRest (D : Discipline Y) (R : D.Ghost → Prop)
    (I : Y.State → (Tid → Held S) → (Tid → D.Ghost) → Prop)
    (P : Y.State → (Tid → D.Ghost) → Tid → S.Label → Instr S → Prop) : Prop where
  rest : ∀ f r g, D.finished f r g → R g
  start : ∀ s H G t f, I s H G → H t = [] → R (G t) → I s H (Function.update G t (D.initial f s))
  lock : ∀ s H G t f l m, Excludes H → I s H G → P s G t f (.lock l m) →
    D.mayLock f (H t) (G t) l m → FreeFor Y H t l m →
    I s (Function.update H t ((l, m) :: H t))
      (Function.update G t (D.locked f (H t) (G t) l m))
  unlock : ∀ s H G t l m, Excludes H → I s H G → (l, m) ∈ H t → D.mayUnlock (H t) (G t) l m →
    I s (Function.update H t ((H t).erase (l, m)))
      (Function.update G t (D.unlocked (H t) (G t) l m))
  act : ∀ s H G t f a e x s', Excludes H → I s H G → P s G t f (.act a) →
    D.mayAct f (H t) (G t) a → Y.exec a e s = some (x, s') →
    D.answers (H t) (G t) a x ∧ I s' H (Function.update G t (D.acted (H t) (G t) a x))
  call : ∀ f p h g, D.mayCall f p h g → D.Obeys f (Y.body p) h g (D.returns p h g)

theorem Sound.atRest {I : Y.State → (Tid → Held S) → (Tid → D.Ghost) → Prop}
    {P : Y.State → S.Label → Instr S → Prop} (h : D.Sound I P) :
    D.SoundAtRest (fun _ => True) I fun s _ _ f i => P s f i where
  rest _ _ _ _ := trivial
  start s H G t f hI hheld _ := h.start s H G t f hI hheld
  lock s H G t f l m := h.lock s H G t f l m
  unlock s H G t l m := h.unlock s H G t l m
  act s H G t f a e x s' := h.act s H G t f a e x s'
  call := h.call

/-- What a thread has still to run obeys the discipline, and releases every lock. -/
def Promised (D : Discipline Y) :
    Option (S.Label × Prog S S.Result) → Held S → D.Ghost → Prop
  | none, h, _ => h = []
  | some (f, p), h, g => D.Obeys f p h g fun r h g => h = [] ∧ D.finished f r g

def ThreadObeys (D : Discipline Y) (w : World Y) (G : Tid → D.Ghost) (t : Tid) : Prop :=
  D.Promised (w.thread t) (w.heldBy t) (G t)

structure Follows (D : Discipline Y) (I : Y.State → (Tid → Held S) → (Tid → D.Ghost) → Prop)
    (w : World Y) (G : Tid → D.Ghost) : Prop where
  exclusion : w.Exclusion
  invariant : I w.state w.heldBy G
  threads : ∀ t, D.ThreadObeys w G t

/-- A thread that is in no call knows what `R` says. -/
structure FollowsAtRest (D : Discipline Y) (R : D.Ghost → Prop)
    (I : Y.State → (Tid → Held S) → (Tid → D.Ghost) → Prop) (w : World Y) (G : Tid → D.Ghost) :
    Prop extends D.Follows I w G where
  rest : ∀ t, w.thread t = none → R (G t)

/-- How a step changes what threads know. -/
def track (D : Discipline Y) (w : World Y) (G : Tid → D.Ghost) : Op Y → Tid → D.Ghost
  | .start t f => Function.update G t (D.initial f w.state)
  | .run t e =>
    match w.thread t with
    | some (f, .lock l m _) => Function.update G t (D.locked f (w.heldBy t) (G t) l m)
    | some (_, .unlock l m _) => Function.update G t (D.unlocked (w.heldBy t) (G t) l m)
    | some (_, .act a _) =>
      match Y.exec a e w.state with
      | some (x, _) => Function.update G t (D.acted (w.heldBy t) (G t) a x)
      | none => G
    | _ => G

theorem track_act (D : Discipline Y) {w : World Y} {G : Tid → D.Ghost} {t : Tid} {e : Y.Env}
    {f : S.Label} {a : S.Act} {k : S.Answer a → Prog S S.Result} {x : S.Answer a} {s : Y.State}
    (hthread : w.thread t = some (f, .act a k)) (hexec : Y.exec a e w.state = some (x, s)) :
    D.track w G (.run t e) = Function.update G t (D.acted (w.heldBy t) (G t) a x) := by
  simp only [track, hthread, hexec]

/-- Only the thread that moves learns. -/
theorem track_of_ne (D : Discipline Y) (w : World Y) (G : Tid → D.Ghost) {t u : Tid} {e : Y.Env}
    (hu : u ≠ t) : D.track w G (.run t e) u = G u := by
  rcases hthread : w.thread t with _ | ⟨f, p⟩
  · simp only [track, hthread]
  · cases p with
    | pure | call => simp only [track, hthread]
    | lock | unlock => simp only [track, hthread, Function.update_of_ne hu]
    | act a k =>
      rcases hexec : Y.exec a e w.state with _ | ⟨x, s⟩
      · simp only [track, hthread, hexec]
      · simp only [track, hthread, hexec, Function.update_of_ne hu]

/-- What a thread knows holds on, if the instruction that it runs does not make it forget. -/
theorem track_keeps_at {R : D.Ghost → Prop} (hlocked : ∀ f h g l m, R g → R (D.locked f h g l m))
    (hunlocked : ∀ h g l m, R g → R (D.unlocked h g l m)) {w : World Y} {t : Tid}
    (hacted : ∀ f a k, w.thread t = some (f, .act a k) → ∀ h g x, R g → R (D.acted h g a x))
    (G : Tid → D.Ghost) (u : Tid) (e : Y.Env) (hu : R (G u)) : R (D.track w G (.run t e) u) := by
  by_cases hut : u = t
  · subst hut
    rcases hthread : w.thread u with _ | ⟨f, p⟩
    · simpa only [track, hthread] using hu
    · cases p with
      | pure | call => simpa only [track, hthread] using hu
      | lock l m k =>
        simp only [track, hthread, Function.update_self]
        exact hlocked f _ _ l m hu
      | unlock l m k =>
        simp only [track, hthread, Function.update_self]
        exact hunlocked _ _ l m hu
      | act a k =>
        rcases hexec : Y.exec a e w.state with _ | ⟨x, s⟩
        · simpa only [track, hthread, hexec] using hu
        · simp only [track, hthread, hexec, Function.update_self]
          exact hacted f a k hthread _ _ x hu
  · rwa [track_of_ne D w G hut]

/-- What a thread knows holds on, if no instruction makes it forget. -/
theorem track_keeps {R : D.Ghost → Prop} (hlocked : ∀ f h g l m, R g → R (D.locked f h g l m))
    (hunlocked : ∀ h g l m, R g → R (D.unlocked h g l m))
    (hacted : ∀ h g a x, R g → R (D.acted h g a x)) (w : World Y) (G : Tid → D.Ghost) (t u : Tid)
    (e : Y.Env) (hu : R (G u)) : R (D.track w G (.run t e) u) :=
  track_keeps_at hlocked hunlocked (fun _ a _ _ h g x => hacted h g a x) G u e hu

/-- A part of what is known that only the start of a call changes. -/
structure Constant {β : Type} (D : Discipline Y) (part : D.Ghost → β) : Prop where
  locked : ∀ f h g l m, part (D.locked f h g l m) = part g
  unlocked : ∀ h g l m, part (D.unlocked h g l m) = part g
  acted : ∀ h g a x, part (D.acted h g a x) = part g

theorem Constant.track {β : Type} {part : D.Ghost → β} (hpart : D.Constant part) (w : World Y)
    (G : Tid → D.Ghost) (t u : Tid) (e : Y.Env) :
    part (D.track w G (.run t e) u) = part (G u) :=
  track_keeps (R := fun g => part g = part (G u))
    (fun f h g l m hg => (hpart.locked f h g l m).trans hg)
    (fun h g l m hg => (hpart.unlocked h g l m).trans hg)
    (fun h g a x hg => (hpart.acted h g a x).trans hg) w G t u e rfl

/-- What the threads know of the calls they run, if it holds at their start and no instruction
makes them forget. -/
theorem track_labelled {R : S.Label → D.Ghost → Prop} (hinitial : ∀ f s, R f (D.initial f s))
    (hlocked : ∀ f f' h g l m, R f g → R f (D.locked f' h g l m))
    (hunlocked : ∀ f h g l m, R f g → R f (D.unlocked h g l m))
    (hacted : ∀ f h g a x, R f g → R f (D.acted h g a x)) {w : World Y} {G : Tid → D.Ghost}
    (h : ∀ t f p, w.thread t = some (f, p) → R f (G t)) {op : Op Y} (hop : w.enabled op = true) :
    ∀ t f p, (w.next op).thread t = some (f, p) → R f (D.track w G op t) := by
  intro t f p hthread
  cases op with
  | start u f' =>
    by_cases hu : t = u
    · subst hu
      simp only [World.next, World.setThread_thread, Function.update_self, Option.some.injEq]
        at hthread
      obtain rfl : f' = f := congrArg Prod.fst hthread
      simp only [track, Function.update_self]
      exact hinitial f' w.state
    · rw [World.next_start_of_ne f' hu] at hthread
      simp only [track, Function.update_of_ne hu]
      exact h t f p hthread
  | run u e =>
    obtain ⟨p', hold⟩ := World.thread_of_next_run hop hthread
    exact track_keeps (R := R f) (hlocked f) (hunlocked f) (hacted f) w G u t e (h t f p' hold)

/-- The step meets `P`, and a call that starts meets `F`. -/
def Meets (F : S.Label → Prop) (P : Y.State → S.Label → Instr S → Prop) (w : World Y) :
    Op Y → Prop
  | .start _ f => F f
  | .run t _ => ∀ f p, w.thread t = some (f, p) → P w.state f p.head

theorem excludes_of_exclusion {w : World Y} (h : w.Exclusion) : Excludes w.heldBy := by
  intro t u l m ht hu
  exact h t l (World.mem_heldBy.mp ht) _ (World.mem_heldBy.mp hu) rfl

theorem freeFor_of_free {w : World Y} {t : Tid} {l : S.Lock} {m : Mode} (h : w.Free t l m) :
    FreeFor Y w.heldBy t l m :=
  fun u m' hu => h (u, l, m') (World.mem_heldBy.mp hu) rfl

variable {I : Y.State → (Tid → Held S) → (Tid → D.Ghost) → Prop}
  {P : Y.State → S.Label → Instr S → Prop} {F : S.Label → Prop}

/-- What a thread that stands at an instruction has been promised. -/
theorem Follows.obeys {w : World Y} {G : Tid → D.Ghost} (h : D.Follows I w G) {t : Tid}
    {f : S.Label} {p : Prog S S.Result} (hthread : w.thread t = some (f, p)) :
    D.Obeys f p (w.heldBy t) (G t) fun r h g => h = [] ∧ D.finished f r g := by
  have ht := h.threads t
  rwa [ThreadObeys, hthread] at ht

/-- The rest of the threads do not notice a step of `t`. -/
theorem threadObeys_congr {w w' : World Y} {G G' : Tid → D.Ghost} {u : Tid}
    (h : D.ThreadObeys w G u) (hthread : w'.thread u = w.thread u)
    (hheld : w'.heldBy u = w.heldBy u) (hghost : G' u = G u) : D.ThreadObeys w' G' u := by
  rw [ThreadObeys, hthread, hheld, hghost]
  exact h

theorem Follows.start_of_invariant {w : World Y} {G : Tid → D.Ghost} (h : D.Follows I w G)
    {t : Tid} {p : S.Label} (hidle : w.thread t = none)
    (hinvariant : w.heldBy t = [] →
      I w.state w.heldBy (Function.update G t (D.initial p w.state)))
    (hbody : D.Obeys p (Y.body p) [] (D.initial p w.state)
      fun r h g => h = [] ∧ D.finished p r g) :
    D.Follows I (w.next (.start t p)) (D.track w G (.start t p)) := by
  have hheld : w.heldBy t = [] := by
    have ht := h.threads t
    rwa [ThreadObeys, hidle] at ht
  refine ⟨h.exclusion, hinvariant hheld, fun u => ?_⟩
  by_cases hu : u = t
  · subst hu
    simp only [ThreadObeys, World.next, World.setThread_thread, Function.update_self, track]
    rw [World.heldBy_setThread, hheld]
    exact hbody
  · exact threadObeys_congr (h.threads u) (Function.update_of_ne hu _ _) rfl
      (Function.update_of_ne hu _ _)

/-- Only `t` moves: its program, its locks and its ghost value are the new ones. -/
theorem threads_update {w w' : World Y} {G : Tid → D.Ghost} {t : Tid} {h' : Held S}
    {g' : D.Ghost} {q : Option (S.Label × Prog S S.Result)}
    (h : ∀ u, D.ThreadObeys w G u) (hthread : w'.thread = Function.update w.thread t q)
    (hheld : w'.heldBy = Function.update w.heldBy t h')
    (hq : D.Promised q h' g') (u : Tid) :
    D.ThreadObeys w' (Function.update G t g') u := by
  by_cases hu : u = t
  · subst hu
    rw [ThreadObeys, hthread, hheld, Function.update_self, Function.update_self,
      Function.update_self]
    exact hq
  · refine threadObeys_congr (h u) ?_ ?_ (Function.update_of_ne hu _ _)
    · rw [hthread, Function.update_of_ne hu]
    · rw [hheld, Function.update_of_ne hu]

theorem Follows.run {R : D.Ghost → Prop}
    {P : Y.State → (Tid → D.Ghost) → Tid → S.Label → Instr S → Prop} {w : World Y}
    {G : Tid → D.Ghost} (h : D.Follows I w G) (hsound : D.SoundAtRest R I P) {t : Tid} {e : Y.Env}
    (hop : w.enabled (.run t e) = true)
    (hP : ∀ f p, w.thread t = some (f, p) → P w.state G t f p.head) :
    D.Follows I (w.next (.run t e)) (D.track w G (.run t e)) := by
  have hexclusion := h.exclusion.next hop
  have hexcludes := excludes_of_exclusion h.exclusion
  have hran := World.ran hop
  have hobeys := h.threads t
  have hsame : Function.update w.heldBy t (w.heldBy t) = w.heldBy := Function.update_eq_self _ _
  have hghost : Function.update G t (G t) = G := Function.update_eq_self _ _
  generalize hw' : w.next (.run t e) = w' at hran hexclusion
  simp only [track]
  cases hran with
  | @done f r hthread =>
    rw [ThreadObeys, hthread] at hobeys
    simp only [hthread]
    refine ⟨hexclusion, h.invariant, ?_⟩
    rw [← hghost]
    exact threads_update h.threads rfl hsame.symm hobeys.1
  | @lock f l m k hthread hfree =>
    rw [ThreadObeys, hthread] at hobeys
    have hheld : World.heldBy { w.setThread t (some (f, k)) with holds := (t, l, m) :: w.holds } =
        Function.update w.heldBy t ((l, m) :: w.heldBy t) := World.heldBy_cons rfl
    simp only [hthread]
    refine ⟨hexclusion, ?_, threads_update h.threads rfl hheld hobeys.2⟩
    rw [hheld]
    exact hsound.lock _ _ _ t f l m hexcludes h.invariant (hP f _ hthread) hobeys.1
      (freeFor_of_free hfree)
  | @unlock f l m k hthread =>
    rw [ThreadObeys, hthread] at hobeys
    have hheld : World.heldBy { w.setThread t (some (f, k)) with
          holds := w.holds.erase (t, l, m) } =
        Function.update w.heldBy t ((w.heldBy t).erase (l, m)) := World.heldBy_erase rfl
    simp only [hthread]
    refine ⟨hexclusion, ?_, threads_update h.threads rfl hheld hobeys.2.2⟩
    rw [hheld]
    exact hsound.unlock _ _ _ t l m hexcludes h.invariant hobeys.1 hobeys.2.1
  | @act f a k x s hthread hexec =>
    rw [ThreadObeys, hthread] at hobeys
    simp only [hthread, hexec]
    obtain ⟨hx, hI⟩ := hsound.act _ _ _ t f a e x s hexcludes h.invariant (hP f _ hthread)
      hobeys.1 hexec
    exact ⟨hexclusion, hI, threads_update h.threads rfl hsame.symm (hobeys.2 x hx)⟩
  | @call f p k hthread =>
    rw [ThreadObeys, hthread] at hobeys
    simp only [hthread]
    refine ⟨hexclusion, h.invariant, ?_⟩
    rw [← hghost]
    refine threads_update h.threads rfl hsame.symm ?_
    exact (hsound.call f p _ _ hobeys.1).bind hobeys.2

/-- The bodies of all calls that may start obey the discipline. -/
def Covers (D : Discipline Y) (F : S.Label → Prop) : Prop :=
  ∀ p s, F p → D.Obeys p (Y.body p) [] (D.initial p s) fun r h g => h = [] ∧ D.finished p r g

theorem Follows.next {w : World Y} {G : Tid → D.Ghost} (h : D.Follows I w G)
    (hsound : D.Sound I P) (hcovers : D.Covers F) {op : Op Y} (hop : w.enabled op = true)
    (hmeets : Meets F P w op) : D.Follows I (w.next op) (D.track w G op) := by
  cases op with
  | start t p =>
    exact h.start_of_invariant (World.start_enabled.mp hop)
      (hsound.start _ _ _ t p h.invariant) (hcovers p _ hmeets)
  | run t e => exact h.run hsound.atRest hop hmeets

theorem Follows.step {w : World Y} (hsound : D.Sound I P) (hcovers : D.Covers F) {op : Op Y}
    (h : ∃ G, D.Follows I w G) (hop : w.enabled op = true ∧ Meets F P w op) :
    ∃ G, D.Follows I (w.next op) G := by
  obtain ⟨G, hG⟩ := h
  exact ⟨_, hG.next hsound hcovers hop.1 hop.2⟩

/-- As `Meets`, where `P` may depend on what the threads know. -/
def MeetsKnowing (F : S.Label → Prop)
    (P : Y.State → (Tid → D.Ghost) → Tid → S.Label → Instr S → Prop) (w : World Y)
    (G : Tid → D.Ghost) : Op Y → Prop
  | .start _ f => F f
  | .run t _ => ∀ f p, w.thread t = some (f, p) → P w.state G t f p.head

theorem FollowsAtRest.next {R : D.Ghost → Prop}
    {P : Y.State → (Tid → D.Ghost) → Tid → S.Label → Instr S → Prop} {w : World Y}
    {G : Tid → D.Ghost} (h : D.FollowsAtRest R I w G) (hsound : D.SoundAtRest R I P)
    (hcovers : D.Covers F) {op : Op Y} (hop : w.enabled op = true)
    (hmeets : MeetsKnowing F P w G op) : D.FollowsAtRest R I (w.next op) (D.track w G op) := by
  cases op with
  | start t p =>
    have hidle := World.start_enabled.mp hop
    refine ⟨h.toFollows.start_of_invariant hidle
      (fun hheld => hsound.start _ _ _ t p h.invariant hheld (h.rest t hidle))
      (hcovers p _ hmeets), fun u hu => ?_⟩
    have hne : u ≠ t := by
      rintro rfl
      simp [World.next] at hu
    rw [World.next_start_of_ne p hne] at hu
    simp only [track, Function.update_of_ne hne]
    exact h.rest u hu
  | run t e =>
    refine ⟨h.toFollows.run hsound hop hmeets, fun u hu => ?_⟩
    by_cases hne : u = t
    · subst hne
      have hran := World.ran hop
      generalize hw' : w.next (.run u e) = w' at hran hu
      cases hran with
      | done hthread =>
        simp only [track, hthread]
        exact hsound.rest _ _ _ (h.toFollows.obeys hthread).2
      | lock | unlock | act | call => simp at hu
    · rw [World.next_run_of_ne hop hne] at hu
      rw [track_of_ne D w G hne]
      exact h.rest u hu

theorem each_meets {ops : List (Op Y)} (hcalls : Calls F ops) (hP : ∀ s f i, P s f i)
    (w : World Y) : (machine Y).Each (Meets F P) w ops := by
  refine Machine.Each.mono (fun w op hop => ?_) (hcalls.each w)
  cases op with
  | start t f => exact hop t f rfl
  | run t e => exact fun f p _ => hP _ _ _

/-- Every run of permitted calls follows the discipline. -/
theorem Follows.of_run {w : World Y} {G : Tid → D.Ghost} (h : D.Follows I w G)
    (hsound : D.Sound I P) (hcovers : D.Covers F) {ops : List (Op Y)}
    (hlegal : (machine Y).Legal w ops) (hmeets : (machine Y).Each (Meets F P) w ops) :
    ∃ G', D.Follows I ((machine Y).run w ops) G' :=
  Machine.Each.invariant (M := machine Y) (I := fun w => ∃ G, D.Follows I w G)
    (fun _ _ h hop => Follows.step hsound hcovers h hop) (Machine.Each.and hlegal hmeets) ⟨G, h⟩

theorem follows_quiet {s : Y.State} {G : Tid → D.Ghost} (h : I s (fun _ => []) G) :
    D.Follows I (World.quiet s) G :=
  ⟨World.exclusion_quiet s, h, fun _ => rfl⟩

end Discipline

end Threads
