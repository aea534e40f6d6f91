import SensorLib.Threads.Sequential

/-! # Systems whose acts are of one kind

Where no program makes other acts or calls, what these acts keep of the state
holds in every run, whatever the threads are. The state may say in turn which
answers an act can have, and these what comes after it.
-/

namespace Threads

open Runs

variable {S : Signature} {Y : System S} {α β : Type} {T : S.Act → Prop} {F : S.Label → Prop}
  {A : (a : S.Act) → S.Answer a → Prop}

namespace Prog

/-- Every act is of the kind `T`, every call of the kind `F`, and every result satisfies `Q`, as
long as the answers to the acts satisfy `A`. -/
def Within (T : S.Act → Prop) (A : (a : S.Act) → S.Answer a → Prop) (F : S.Label → Prop)
    (Q : α → Prop) : Prog S α → Prop
  | .pure a => Q a
  | .lock _ _ k | .unlock _ _ k => Within T A F Q k
  | .act a k => T a ∧ ∀ x, A a x → Within T A F Q (k x)
  | .call f k => F f ∧ ∀ r, Within T A F Q (k r)

theorem Within.bind {P : α → Prop} {Q : β → Prop} {p : Prog S α} {q : α → Prog S β}
    (hp : p.Within T A F P) (hq : ∀ a, P a → (q a).Within T A F Q) : (p.bind q).Within T A F Q := by
  induction p with
  | pure a => exact hq a hp
  | lock l m k ih | unlock l m k ih => exact ih hp
  | act a k ih => exact ⟨hp.1, fun x hx => ih x (hp.2 x hx)⟩
  | call f k ih => exact ⟨hp.1, fun r => ih r (hp.2 r)⟩

theorem within_locked {Q : α → Prop} {l : S.Lock} {m : Mode} {p : Prog S α}
    (hp : p.Within T A F Q) : (locked l m p).Within T A F Q :=
  Within.bind (q := fun a => .unlock l m (.pure a)) hp fun _ ha => ha

/-- A program that makes no calls may be taken to make calls of any kind. Its acts are of the kind
whatever the answers. -/
theorem ActsIn.within {p : Prog S α} (hp : p.ActsIn T) : p.Within T A F fun _ => True := by
  induction p with
  | pure a => trivial
  | lock l m k ih | unlock l m k ih => exact ih hp
  | act a k ih => exact ⟨hp.1, fun x _ => ih x (hp.2 x)⟩
  | call => exact hp.elim

end Prog

/-- No thread has an act or a call of another kind still to run. -/
def World.Within (T : S.Act → Prop) (A : (a : S.Act) → S.Answer a → Prop) (F : S.Label → Prop)
    (w : World Y) : Prop :=
  ∀ t f p, w.thread t = some (f, p) → p.Within T A F fun _ => True

/-- The thread that moves has `p` left, and the others what they had. -/
theorem World.Within.update {w w' : World Y} (h : w.Within T A F) {t : Tid} {f : S.Label}
    {p : Prog S S.Result} (hp : p.Within T A F fun _ => True)
    (hthread : w'.thread = Function.update w.thread t (some (f, p))) : w'.Within T A F := by
  intro u g q hu
  rw [hthread] at hu
  by_cases hut : u = t
  · rw [hut, Function.update_self] at hu
    cases hu
    exact hp
  · rw [Function.update_of_ne hut] at hu
    exact h u g q hu

/-- A step runs an act of the kind, or leaves the state as it is. -/
theorem World.Within.next (hbody : ∀ f, F f → (Y.body f).Within T A F fun _ => True) {w : World Y}
    (h : w.Within T A F) {op : Op Y} (hop : w.enabled op = true)
    (hF : ∀ t f, op = .start t f → F f)
    (hA : ∀ a e x s', T a → Y.exec a e w.state = some (x, s') → A a x) :
    (w.next op).Within T A F ∧ ((w.next op).state = w.state ∨
      ∃ a e x, T a ∧ Y.exec a e w.state = some (x, (w.next op).state)) := by
  cases op with
  | start t f => exact ⟨h.update (hbody f (hF t f rfl)) rfl, Or.inl rfl⟩
  | run t e =>
    have hran := World.ran hop
    generalize w.next (.run t e) = w' at hran
    cases hran with
    | done hthread =>
      refine ⟨fun u g q hu => ?_, Or.inl rfl⟩
      by_cases hut : u = t
      · simp [hut] at hu
      · exact h u g q (by rwa [setThread_thread, Function.update_of_ne hut] at hu)
    | @lock f l m k hthread | @unlock f l m k hthread =>
      have hp := h t f _ hthread
      exact ⟨h.update (p := k) hp rfl, Or.inl rfl⟩
    | act hthread hexec =>
      obtain ⟨ha, hk⟩ := h t _ _ hthread
      exact ⟨h.update (hk _ (hA _ _ _ _ ha hexec)) rfl, Or.inr ⟨_, e, _, ha, hexec⟩⟩
    | @call f g k hthread =>
      obtain ⟨hg, hk⟩ := h t f _ hthread
      exact ⟨h.update ((hbody g hg).bind fun r _ => hk r) rfl, Or.inl rfl⟩

/-- What the acts of the kind keep is kept in every run of calls of the kind. -/
theorem always_of_within {I : Y.State → Prop}
    (hbody : ∀ f, F f → (Y.body f).Within T A F fun _ => True)
    (hact : ∀ a e s x s', T a → I s → Y.exec a e s = some (x, s') → A a x ∧ I s')
    {s : Y.State} (hs : I s)
    {ops : List (Op Y)} (hcalls : Calls F ops)
    (hlegal : (machine Y).Legal (World.quiet s) ops) :
    (machine Y).Always (fun w => I w.state) (World.quiet s) ops := by
  refine Machine.Each.always (M := machine Y) (I := fun w => w.Within T A F ∧ I w.state) ?_
    (fun _ hw => hw.2) (Machine.Each.and hlegal (hcalls.each (World.quiet s)))
    ⟨fun t f p hthread => (by cases hthread), hs⟩
  rintro w op ⟨hwithin, hI⟩ ⟨hop, hF⟩
  obtain ⟨hnext, hsame | ⟨a, e, x, ha, hexec⟩⟩ := hwithin.next hbody hop hF
    fun a e x s' ha hexec => (hact a e _ x s' ha hI hexec).1
  · exact ⟨hnext, hsame ▸ hI⟩
  · exact ⟨hnext, (hact a e _ x _ ha hI hexec).2⟩

end Threads
