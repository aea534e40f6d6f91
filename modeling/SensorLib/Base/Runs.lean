import Mathlib.Data.List.Basic
import Mathlib.Data.List.Induction

/-! # Runs of guarded operations

A machine applies operations to a state one after the other. Each operation
has a guard on the state it is applied to. The rules below turn a fact about
one operation into a fact about every run.
-/

namespace Runs

universe u v w

structure Machine (State : Type u) (Op : Type v) where
  guard : State → Op → Prop
  next : State → Op → State

namespace Machine

variable {State : Type u} {Op : Type v} (M : Machine State Op)

def run (s : State) (ops : List Op) : State := ops.foldl M.next s

/-- Every operation of the run meets `C` in the state it is applied to. -/
def Each (C : State → Op → Prop) : State → List Op → Prop
  | _, [] => True
  | s, op :: ops => C s op ∧ Each C (M.next s op) ops

/-- Every state of the run, the first and the last included, satisfies `P`. -/
def Always (P : State → Prop) : State → List Op → Prop
  | s, [] => P s
  | s, op :: ops => P s ∧ Always P (M.next s op) ops

/-- Some operation of the run meets `C` in the state it is applied to. -/
def Sometime (C : State → Op → Prop) : State → List Op → Prop
  | _, [] => False
  | s, op :: ops => C s op ∨ Sometime C (M.next s op) ops

/-- `P` holds in every state of the run before the first one in which `Q` does, if any. -/
def Until (P Q : State → Prop) : State → List Op → Prop
  | s, [] => Q s ∨ P s
  | s, op :: ops => Q s ∨ P s ∧ Until P Q (M.next s op) ops

/-- Every operation of the run up to the first that meets `D`, and this one, meets `C`. -/
def EachUntil (C D : State → Op → Prop) : State → List Op → Prop
  | _, [] => True
  | s, op :: ops => C s op ∧ (¬ D s op → EachUntil C D (M.next s op) ops)

def Legal (s : State) (ops : List Op) : Prop := M.Each M.guard s ops

instance decidableEach (C : State → Op → Prop) [∀ s op, Decidable (C s op)] :
    ∀ s ops, Decidable (M.Each C s ops)
  | _, [] => isTrue trivial
  | s, op :: ops =>
    have := decidableEach C (M.next s op) ops
    inferInstanceAs (Decidable (C s op ∧ M.Each C (M.next s op) ops))

instance decidableAlways (P : State → Prop) [∀ s, Decidable (P s)] :
    ∀ s ops, Decidable (M.Always P s ops)
  | s, [] => inferInstanceAs (Decidable (P s))
  | s, op :: ops =>
    have := decidableAlways P (M.next s op) ops
    inferInstanceAs (Decidable (P s ∧ M.Always P (M.next s op) ops))

instance [∀ s op, Decidable (M.guard s op)] (s : State) (ops : List Op) :
    Decidable (M.Legal s ops) := M.decidableEach M.guard s ops

@[simp] theorem run_nil (s : State) : M.run s [] = s := rfl

@[simp] theorem run_cons (s : State) (op : Op) (ops : List Op) :
    M.run s (op :: ops) = M.run (M.next s op) ops := rfl

@[simp] theorem legal_nil (s : State) : M.Legal s [] := trivial

@[simp] theorem legal_cons (s : State) (op : Op) (ops : List Op) :
    M.Legal s (op :: ops) ↔ M.guard s op ∧ M.Legal (M.next s op) ops := Iff.rfl

theorem run_append (s : State) (ops more : List Op) :
    M.run s (ops ++ more) = M.run (M.run s ops) more := List.foldl_append

variable {M}

theorem Each.mono {C D : State → Op → Prop} (hCD : ∀ s op, C s op → D s op) {s : State}
    {ops : List Op} (h : M.Each C s ops) : M.Each D s ops := by
  induction ops generalizing s with
  | nil => trivial
  | cons op ops ih => exact ⟨hCD s op h.1, ih h.2⟩

theorem each_append {C : State → Op → Prop} (s : State) (ops more : List Op) :
    M.Each C s (ops ++ more) ↔ M.Each C s ops ∧ M.Each C (M.run s ops) more := by
  induction ops generalizing s with
  | nil => exact ⟨fun h => ⟨trivial, h⟩, fun h => h.2⟩
  | cons op ops ih =>
    constructor
    · rintro ⟨hop, h⟩
      obtain ⟨hops, hmore⟩ := (ih (M.next s op)).mp h
      exact ⟨⟨hop, hops⟩, hmore⟩
    · rintro ⟨⟨hop, hops⟩, hmore⟩
      exact ⟨hop, (ih (M.next s op)).mpr ⟨hops, hmore⟩⟩

theorem sometime_append {C : State → Op → Prop} (s : State) (ops more : List Op) :
    M.Sometime C s (ops ++ more) ↔ M.Sometime C s ops ∨ M.Sometime C (M.run s ops) more := by
  induction ops generalizing s with
  | nil => exact ⟨Or.inr, fun h => h.resolve_left id⟩
  | cons op ops ih => exact (or_congr_right (ih (M.next s op))).trans or_assoc.symm

theorem Sometime.later {C : State → Op → Prop} {s : State} {ops : List Op} (h : M.Sometime C s ops)
    (op : Op) : M.Sometime C s (ops ++ [op]) := (sometime_append s ops [op]).mpr (Or.inl h)

theorem sometime_now {C : State → Op → Prop} {s : State} {ops : List Op} {op : Op}
    (h : C (M.run s ops) op) : M.Sometime C s (ops ++ [op]) :=
  (sometime_append s ops [op]).mpr (Or.inr (Or.inl h))

/-- An operation of the run that does not meet `C`, and the run up to it. -/
theorem exists_of_not_each {C : State → Op → Prop} {s : State} {ops : List Op}
    (h : ¬ M.Each C s ops) : ∃ before op after, ops = before ++ op :: after ∧
      ¬ C (M.run s before) op := by
  induction ops generalizing s with
  | nil => exact absurd trivial h
  | cons op ops ih =>
    by_cases hop : C s op
    · obtain ⟨before, op', after, rfl, hop'⟩ := ih fun hrest => h ⟨hop, hrest⟩
      exact ⟨op :: before, op', after, rfl, hop'⟩
    · exact ⟨[], op, ops, rfl, hop⟩

theorem Each.and {C D : State → Op → Prop} {s : State} {ops : List Op} (hC : M.Each C s ops)
    (hD : M.Each D s ops) : M.Each (fun s op => C s op ∧ D s op) s ops := by
  induction ops generalizing s with
  | nil => trivial
  | cons op ops ih => exact ⟨⟨hC.1, hD.1⟩, ih hC.2 hD.2⟩

theorem each_of_forall {C : Op → Prop} {ops : List Op} (h : ∀ op ∈ ops, C op) (s : State) :
    M.Each (fun _ op => C op) s ops := by
  induction ops generalizing s with
  | nil => trivial
  | cons op ops ih =>
    exact ⟨h op List.mem_cons_self, ih (fun x hx => h x (List.mem_cons_of_mem _ hx)) _⟩

theorem forall_of_each {C : Op → Prop} {s : State} {ops : List Op}
    (h : M.Each (fun _ op => C op) s ops) : ∀ op ∈ ops, C op := by
  induction ops generalizing s with
  | nil => exact fun op hop => absurd hop List.not_mem_nil
  | cons op ops ih =>
    intro x hx
    rcases List.mem_cons.mp hx with rfl | hx
    · exact h.1
    · exact ih h.2 x hx

theorem Always.mono {P Q : State → Prop} (hPQ : ∀ s, P s → Q s) {s : State} {ops : List Op}
    (h : M.Always P s ops) : M.Always Q s ops := by
  induction ops generalizing s with
  | nil => exact hPQ s h
  | cons op ops ih => exact ⟨hPQ s h.1, ih h.2⟩

theorem Always.and {P Q : State → Prop} {s : State} {ops : List Op} (hP : M.Always P s ops)
    (hQ : M.Always Q s ops) : M.Always (fun s => P s ∧ Q s) s ops := by
  induction ops generalizing s with
  | nil => exact ⟨hP, hQ⟩
  | cons op ops ih => exact ⟨⟨hP.1, hQ.1⟩, ih hP.2 hQ.2⟩

theorem Always.last {P : State → Prop} {s : State} {ops : List Op} (h : M.Always P s ops) :
    P (M.run s ops) := by
  induction ops generalizing s with
  | nil => exact h
  | cons op ops ih => exact ih h.2

/-- The states of a run are those that its prefixes end in. -/
theorem always_of_prefix {P : State → Prop} {s : State} {ops : List Op}
    (h : ∀ before, before <+: ops → P (M.run s before)) : M.Always P s ops := by
  induction ops generalizing s with
  | nil => exact h [] (List.prefix_refl [])
  | cons op ops ih =>
    refine ⟨h [] List.nil_prefix, ih fun before hbefore => ?_⟩
    exact h (op :: before) (List.cons_prefix_cons.mpr ⟨rfl, hbefore⟩)

theorem Always.head {P : State → Prop} {s : State} {ops : List Op} (h : M.Always P s ops) : P s := by
  cases ops with
  | nil => exact h
  | cons op ops => exact h.1

theorem Always.each {P : State → Prop} {s : State} {ops : List Op} (h : M.Always P s ops) :
    M.Each (fun s _ => P s) s ops := by
  induction ops generalizing s with
  | nil => trivial
  | cons op ops ih => exact ⟨h.1, ih h.2⟩

theorem EachUntil.mono {C D E : State → Op → Prop} (hCD : ∀ s op, C s op → D s op) {s : State}
    {ops : List Op} (h : M.EachUntil C E s ops) : M.EachUntil D E s ops := by
  induction ops generalizing s with
  | nil => trivial
  | cons op ops ih => exact ⟨hCD s op h.1, fun hop => ih (h.2 hop)⟩

/-- What holds all along holds after each operation. -/
theorem Always.each_next {P : State → Prop} {s : State} {ops : List Op} (h : M.Always P s ops) :
    M.Each (fun s op => P (M.next s op)) s ops := by
  induction ops generalizing s with
  | nil => trivial
  | cons op ops ih => exact ⟨h.2.head, ih h.2⟩

/-- A property kept by every operation that meets `C` holds at the end of the run. -/
theorem Each.invariant {I : State → Prop} {C : State → Op → Prop}
    (hstep : ∀ s op, I s → C s op → I (M.next s op)) {s : State} {ops : List Op}
    (h : M.Each C s ops) (hs : I s) : I (M.run s ops) := by
  induction ops generalizing s with
  | nil => exact hs
  | cons op ops ih => exact ih h.2 (hstep s op hs h.1)

/-- A property of what was done so far that every operation keeps which meets `C`. -/
theorem Each.remembered {I : List Op → Prop} {C : State → Op → Prop} {s : State}
    (hstep : ∀ before op, I before → C (M.run s before) op → I (before ++ [op])) {ops : List Op}
    (h : M.Each C s ops) (hnil : I []) : ∀ before, before <+: ops → I before := by
  rintro before ⟨after, rfl⟩
  replace h := ((each_append s before after).mp h).1
  induction before using List.reverseRecOn with
  | nil => exact hnil
  | append_singleton before op ih =>
    obtain ⟨hbefore, hop, -⟩ := (each_append s before [op]).mp h
    exact hstep before op (ih hbefore) hop

/-- What an invariant gives for one state holds in every state of the run. -/
theorem Each.always {I P : State → Prop} {C : State → Op → Prop}
    (hstep : ∀ s op, I s → C s op → I (M.next s op)) (hP : ∀ s, I s → P s) {s : State}
    {ops : List Op} (h : M.Each C s ops) (hs : I s) : M.Always P s ops := by
  induction ops generalizing s with
  | nil => exact hP s hs
  | cons op ops ih => exact ⟨hP s hs, ih h.2 (hstep s op hs h.1)⟩

/-- An invariant that is kept as long as `Q` has not been reached. -/
theorem Each.until {I P Q : State → Prop} {C : State → Op → Prop}
    (hstep : ∀ s op, I s → C s op → Q s ∨ I (M.next s op)) (hP : ∀ s, I s → Q s ∨ P s)
    {s : State} {ops : List Op} (h : M.Each C s ops) (hs : I s) : M.Until P Q s ops := by
  induction ops generalizing s with
  | nil => exact hP s hs
  | cons op ops ih =>
    rcases hP s hs with hQ | hPs
    · exact Or.inl hQ
    · rcases hstep s op hs h.1 with hQ | hI
      · exact Or.inl hQ
      · exact Or.inr ⟨hPs, ih h.2 hI⟩

/-- What an invariant gives for one operation holds for each operation of the run. -/
theorem Each.each {I : State → Prop} {C D : State → Op → Prop}
    (hstep : ∀ s op, I s → C s op → I (M.next s op)) (hD : ∀ s op, I s → C s op → D s op)
    {s : State} {ops : List Op} (h : M.Each C s ops) (hs : I s) : M.Each D s ops := by
  induction ops generalizing s with
  | nil => trivial
  | cons op ops ih => exact ⟨hD s op hs h.1, ih h.2 (hstep s op hs h.1)⟩

/-- An invariant that every operation keeps which does not meet `E`. -/
theorem Each.eachUntil {I : State → Prop} {C D E : State → Op → Prop}
    (hstep : ∀ s op, I s → C s op → ¬ E s op → I (M.next s op))
    (hD : ∀ s op, I s → C s op → D s op) {s : State} {ops : List Op} (h : M.Each C s ops)
    (hs : I s) : M.EachUntil D E s ops := by
  induction ops generalizing s with
  | nil => trivial
  | cons op ops ih => exact ⟨hD s op hs h.1, fun hop => ih h.2 (hstep s op hs h.1 hop)⟩

/-- Two conditions that come to the same under an invariant. -/
theorem Each.congr {I : State → Prop} {C D E : State → Op → Prop}
    (hstep : ∀ s op, I s → C s op → I (M.next s op))
    (hDE : ∀ s op, I s → C s op → (D s op ↔ E s op)) {s : State} {ops : List Op}
    (h : M.Each C s ops) (hs : I s) : M.Each D s ops ↔ M.Each E s ops := by
  induction ops generalizing s with
  | nil => exact Iff.rfl
  | cons op ops ih => exact and_congr (hDE s op hs h.1) (ih h.2 (hstep s op hs h.1))

/-- Where an operation keeps `P` exactly when it meets `D`, a whole run stays in `P` exactly
when each of its operations meets `D`. -/
theorem Each.always_iff_each {I P : State → Prop} {C D : State → Op → Prop}
    (hstep : ∀ s op, I s → P s → C s op → D s op → I (M.next s op))
    (hP : ∀ s op, I s → P s → C s op → (P (M.next s op) ↔ D s op)) {s : State} {ops : List Op}
    (h : M.Each C s ops) (hs : I s) (hPs : P s) : M.Always P s ops ↔ M.Each D s ops := by
  induction ops generalizing s with
  | nil => exact ⟨fun _ => trivial, fun _ => hPs⟩
  | cons op ops ih =>
    have hop := hP s op hs hPs h.1
    constructor
    · rintro ⟨_, hrest⟩
      have hnext : P (M.next s op) := hrest.head
      have hD := hop.mp hnext
      exact ⟨hD, (ih h.2 (hstep s op hs hPs h.1 hD) hnext).mp hrest⟩
    · rintro ⟨hD, hrest⟩
      exact ⟨hPs, (ih h.2 (hstep s op hs hPs h.1 hD) (hop.mpr hD)).mpr hrest⟩

/-- A relation kept by every operation that meets `C` relates the ends of two runs. -/
theorem Each.simulation {State' : Type w} {N : Machine State' Op} {R : State → State' → Prop}
    {C : State → Op → Prop} (hstep : ∀ s t op, R s t → C s op → R (M.next s op) (N.next t op))
    {s : State} {t : State'} {ops : List Op} (h : M.Each C s ops) (hR : R s t) :
    R (M.run s ops) (N.run t ops) := by
  induction ops generalizing s t with
  | nil => exact hR
  | cons op ops ih => exact ih h.2 (hstep s t op hR h.1)

end Machine

end Runs
