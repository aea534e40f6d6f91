import Mathlib.Logic.Relation
import SensorLib.Threads.World

/-! # Threads that wait for each other

A thread waits for another that holds the lock it is about to take. An order
on the locks along which every wait goes up leaves no cycle of waits.
-/

namespace Threads

open Relation

/-- A rank that goes up along every edge with an edge before and an edge after it. -/
theorem not_transGen_self {α : Type} {R : α → α → Prop} (rank : α → Nat)
    (hrank : ∀ a b, R a b → (∃ c, R c a) → (∃ d, R b d) → rank a < rank b) (a : α) :
    ¬ TransGen R a a := by
  have hup : ∀ b, TransGen R a b → (∃ c, R c a) → (∃ d, R b d) → rank a < rank b := by
    intro b hab hin
    induction hab with
    | single hab => exact hrank a _ hab hin
    | @tail b c hab hbc ih =>
      intro hout
      have hbefore : ∃ d, R d b := by
        cases hab with
        | single h => exact ⟨_, h⟩
        | tail _ h => exact ⟨_, h⟩
      exact Nat.lt_trans (ih ⟨c, hbc⟩) (hrank b c hbc hbefore hout)
  intro hcycle
  have hin : ∃ c, R c a := by
    cases hcycle with
    | single h => exact ⟨_, h⟩
    | tail _ h => exact ⟨_, h⟩
  have hout : ∃ d, R a d := by
    obtain ⟨d, hd, _⟩ := TransGen.head'_iff.mp hcycle
    exact ⟨d, hd⟩
  exact Nat.lt_irrefl _ (hup a hcycle hin hout)

namespace World

variable {S : Signature} {Y : System S} (w : World Y)

/-- `t` is about to lock `l`, and `u` holds it in a way that keeps `t` from it. -/
structure Blocked (t u : Tid) (l : S.Lock) (m m' : Mode) : Prop where
  waits : ∃ f k, w.thread t = some (f, .lock l m k)
  holds : (l, m') ∈ w.heldBy u
  conflict : ¬ (m = .shared ∧ m' = .shared ∨ Y.reentrant l = true ∧ u = t)

def WaitsFor (t u : Tid) : Prop := ∃ l m m', w.Blocked t u l m m'

/-- Some threads wait for each other's locks in a cycle. -/
def Deadlock : Prop := ∃ t, TransGen w.WaitsFor t t

variable {w}

/-- A thread that cannot take a lock waits for one that holds it. -/
theorem exists_blocked {t : Tid} {l : S.Lock} {e : Y.Env} (hat : w.atLock t l = true)
    (hstuck : w.enabled (.run t e) = false) : ∃ u m m', w.Blocked t u l m m' := by
  obtain ⟨f, m, k, hthread⟩ := (w.atLock_iff).mp hat
  have hfree : ¬ w.Free t l m := by
    simp only [enabled, hthread] at hstuck
    exact of_decide_eq_false hstuck
  simp only [Free, not_forall] at hfree
  obtain ⟨⟨u, l', m'⟩, hmem, rfl, hconflict⟩ := hfree
  exact ⟨u, m, m', ⟨f, k, hthread⟩, mem_heldBy.mpr hmem, hconflict⟩

/-- The rank of the lock that a thread waits for. -/
def waitRank (rank : S.Lock → Nat) (w : World Y) (t : Tid) : Nat :=
  match w.thread t with
  | some (_, .lock l _ _) => rank l
  | _ => 0

theorem Blocked.waitRank_eq {rank : S.Lock → Nat} {t u : Tid} {l : S.Lock} {m m' : Mode}
    (h : w.Blocked t u l m m') : waitRank rank w t = rank l := by
  obtain ⟨f, k, hthread⟩ := h.waits
  simp only [waitRank, hthread]

/-- No cycle, if the lock that a thread waits for ranks above the one it is waited for, as long
as somebody waits for the thread that waits for it. -/
theorem not_deadlock_of_rank (rank : S.Lock → Nat)
    (h : ∀ t u l m m', w.Blocked t u l m m' → (∃ s, w.WaitsFor s t) →
      ∀ v l' n n', w.Blocked u v l' n n' → rank l < rank l') : ¬ w.Deadlock := by
  rintro ⟨t, hcycle⟩
  refine not_transGen_self (waitRank rank w) ?_ t hcycle
  rintro t u ⟨l, m, m', htu⟩ hbefore ⟨v, l', n, n', huv⟩
  rw [htu.waitRank_eq, huv.waitRank_eq]
  exact h t u l m m' htu hbefore v l' n n' huv

end World

end Threads
