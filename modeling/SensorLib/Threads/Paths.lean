import SensorLib.Threads.World

/-! # What a thread runs from where it stands -/

namespace Threads

open Runs

variable {S : Signature} {Y : System S} {α : Type}

/-- Whatever answers `A` allows, `p` gets to `q`, and meets only instructions that `T` allows on
the way. -/
inductive Leads (A : (a : S.Act) → S.Answer a → Prop) (T : Instr S → Prop) (q : Prog S α) :
    Prog S α → Prop
  | here : Leads A T q q
  | lock {l : S.Lock} {m : Mode} {k : Prog S α} (ht : T (.lock l m)) (hk : Leads A T q k) :
      Leads A T q (.lock l m k)
  | unlock {l : S.Lock} {m : Mode} {k : Prog S α} (ht : T (.unlock l m)) (hk : Leads A T q k) :
      Leads A T q (.unlock l m k)
  | act {a : S.Act} {k : S.Answer a → Prog S α} (ht : T (.act a))
      (hk : ∀ x, A a x → Leads A T q (k x)) : Leads A T q (.act a k)

variable {A : (a : S.Act) → S.Answer a → Prop} {T : Instr S → Prop} {q : Prog S S.Result}

theorem Leads.head {p : Prog S α} {q : Prog S α} (h : Leads A T q p) : p = q ∨ T p.head := by
  cases h with
  | here => exact Or.inl rfl
  | lock ht | unlock ht | act ht => exact Or.inr ht

/-- A step of the world takes a thread along, unless it has arrived. -/
theorem Leads.next {w : World Y} {op : Op Y} (hop : w.enabled op = true) {t : Tid} {f : S.Label}
    {p : Prog S S.Result} (hthread : w.thread t = some (f, p)) (h : Leads A T q p)
    (hA : ∀ a e x s, T (.act a) → Y.exec a e w.state = some (x, s) → A a x) :
    p = q ∨ ∃ p', (w.next op).thread t = some (f, p') ∧ Leads A T q p' := by
  cases op with
  | start u g =>
    have hu : t ≠ u := by
      rintro rfl
      rw [World.start_enabled.mp hop] at hthread
      cases hthread
    exact Or.inr ⟨p, by rw [World.next_start_of_ne g hu, hthread], h⟩
  | run u e =>
    by_cases hu : t = u
    · subst hu
      cases h with
      | here => exact Or.inl rfl
      | lock ht hk | unlock ht hk => exact Or.inr ⟨_, by simp [World.next, hthread], hk⟩
      | @act a k ht hk =>
        cases hexec : Y.exec a e w.state with
        | none => simp [World.enabled, hthread, hexec] at hop
        | some out =>
          refine Or.inr ⟨k out.1, by simp [World.next, hthread, hexec], hk _ ?_⟩
          exact hA a e out.1 out.2 ht hexec
    · exact Or.inr ⟨p, by rw [World.next_run_of_ne hop hu, hthread], h⟩

/-! ## The calls of a run -/

/-- Every thread runs a call of the kind `F`. -/
def World.Runs (F : S.Label → Prop) (w : World Y) : Prop :=
  ∀ t f p, w.thread t = some (f, p) → F f

theorem World.Runs.next {F : S.Label → Prop} {w : World Y} (h : w.Runs F) {op : Op Y}
    (hop : w.enabled op = true) (hF : ∀ t f, op = .start t f → F f) : (w.next op).Runs F := by
  intro t f p hthread
  cases op with
  | start u g =>
    by_cases hu : t = u
    · subst hu
      simp only [World.next, World.setThread_thread, Function.update_self, Option.some.injEq]
        at hthread
      have hgf : g = f := congrArg Prod.fst hthread
      exact hgf ▸ hF t g rfl
    · rw [World.next_start_of_ne g hu] at hthread
      exact h t f p hthread
  | run u e =>
    obtain ⟨p', hold⟩ := World.thread_of_next_run hop hthread
    exact h t f p' hold

/-- The thread at which an operation happens. -/
def Op.tid : Op Y → Tid
  | .start t _ | .run t _ => t

/-- The call that an operation starts. -/
def Op.started : Op Y → Option S.Label
  | .start _ f => some f
  | .run .. => none

theorem World.thread_next_of_ne {w : World Y} {op : Op Y} (hop : w.enabled op = true) {u : Tid}
    (hu : u ≠ op.tid) : (w.next op).thread u = w.thread u := by
  cases op with
  | start t f => exact World.next_start_of_ne (t := t) f hu
  | run t e => exact World.next_run_of_ne (t := t) hop hu

/-- A thread that no operation is about stays idle. -/
theorem World.idle_next {w : World Y} {n : Tid} (h : ∀ u, n ≤ u → w.thread u = none) {op : Op Y}
    (hop : w.enabled op = true) (hn : op.tid < n) : ∀ u, n ≤ u → (w.next op).thread u = none := by
  intro u hu
  have hne : u ≠ op.tid := fun heq => absurd hn (Nat.not_lt.mpr (heq ▸ hu))
  exact (World.thread_next_of_ne hop hne).trans (h u hu)

/-- Where only the threads below `n` run, the others are idle all along. -/
theorem each_idle {n : Tid} {s : Y.State} {ops : List (Op Y)}
    (hlegal : (machine Y).Legal (World.quiet s) ops) (hn : ∀ op ∈ ops, op.tid < n) :
    (machine Y).Each (fun w _ => ∀ u, n ≤ u → w.thread u = none) (World.quiet s) ops :=
  Machine.Each.each (M := machine Y) (I := fun w => ∀ u, n ≤ u → w.thread u = none)
    (fun _ _ hw hop => World.idle_next hw hop.1 hop.2) (fun _ _ hw _ => hw)
    (Machine.Each.and hlegal (Machine.each_of_forall (C := fun op => op.tid < n) hn _))
    fun _ _ => rfl

theorem run_idle {n : Tid} {s : Y.State} {ops : List (Op Y)}
    (hlegal : (machine Y).Legal (World.quiet s) ops) (hn : ∀ op ∈ ops, op.tid < n) :
    ∀ u, n ≤ u → ((machine Y).run (World.quiet s) ops).thread u = none :=
  Machine.Each.invariant (M := machine Y) (I := fun w => ∀ u, n ≤ u → w.thread u = none)
    (fun _ _ hw hop => World.idle_next hw hop.1 hop.2)
    (Machine.Each.and hlegal (Machine.each_of_forall (C := fun op => op.tid < n) hn _))
    fun _ _ => rfl

/-! ## Where runs lead -/

/-- Some run leads from one world to the other, by steps that meet `C`. -/
def World.LeadsTo (C : World Y → Op Y → Prop) (w v : World Y) : Prop :=
  ∃ ops, (machine Y).Legal w ops ∧ (machine Y).Each C w ops ∧ (machine Y).run w ops = v

namespace World.LeadsTo

variable {C : World Y → Op Y → Prop} {w v : World Y} {t : Tid}

theorem refl (w : World Y) : w.LeadsTo C w := ⟨[], trivial, trivial, rfl⟩

theorem step (h : w.LeadsTo C v) {op : Op Y} (hop : v.enabled op = true) (hC : C v op) :
    w.LeadsTo C (v.next op) := by
  obtain ⟨ops, hlegal, hsteps, rfl⟩ := h
  refine ⟨ops ++ [op], (Machine.each_append w ops [op]).mpr ⟨hlegal, hop, trivial⟩,
    (Machine.each_append w ops [op]).mpr ⟨hsteps, hC, trivial⟩, ?_⟩
  rw [Machine.run_append]
  rfl

theorem start (h : w.LeadsTo C v) {f : S.Label} (hidle : v.thread t = none)
    (hC : C v (.start t f)) : w.LeadsTo C (v.setThread t (some (f, Y.body f))) :=
  @step _ _ _ _ _ h (.start t f) (World.start_enabled.mpr hidle) hC

theorem act (h : w.LeadsTo C v) {f : S.Label} {a : S.Act} {k : S.Answer a → Prog S S.Result}
    (hthread : v.thread t = some (f, .act a k)) {e : Y.Env} {x : S.Answer a} {s : Y.State}
    (hexec : Y.exec a e v.state = some (x, s)) (hC : C v (.run t e)) :
    w.LeadsTo C { v.setThread t (some (f, k x)) with state := s } := by
  have hnext : v.next (.run t e) = { v.setThread t (some (f, k x)) with state := s } := by
    simp only [World.next, hthread, hexec]
  rw [← hnext]
  refine h.step ?_ hC
  simp only [World.enabled, hthread, hexec, Option.isSome_some]

end World.LeadsTo

end Threads
