import Mathlib.Data.Finmap

/-! # Finite maps read through `lookup`

Both update operations of `Finmap`, as case distinctions on the key that is read.
-/

namespace Finmap

universe u v

variable {α : Type u} {β : Type v} [DecidableEq α]

theorem lookup_insert_ite (m : Finmap fun _ : α => β) (k : α) (v : β) (x : α) :
    (m.insert k v).lookup x = if x = k then some v else m.lookup x := by
  by_cases h : x = k
  · subst h
    rw [if_pos rfl, lookup_insert]
  · rw [if_neg h, lookup_insert_of_ne m h]

theorem lookup_erase_ite (m : Finmap fun _ : α => β) (k x : α) :
    (m.erase k).lookup x = if x = k then none else m.lookup x := by
  by_cases h : x = k
  · subst h
    rw [if_pos rfl, lookup_erase]
  · rw [if_neg h, lookup_erase_ne h]

theorem lookup_insert_eq_some {m : Finmap fun _ : α => β} {k : α} {v : β} {x : α} {w : β} :
    (m.insert k v).lookup x = some w ↔ x = k ∧ w = v ∨ x ≠ k ∧ m.lookup x = some w := by
  rw [lookup_insert_ite]
  by_cases h : x = k <;> simp [h, eq_comm]

theorem lookup_erase_eq_some {m : Finmap fun _ : α => β} {k x : α} {w : β} :
    (m.erase k).lookup x = some w ↔ x ≠ k ∧ m.lookup x = some w := by
  rw [lookup_erase_ite]
  by_cases h : x = k <;> simp [h]

/-- A map already reads as if the value it has at `k` were put there. -/
theorem lookup_eq_ite {m : Finmap fun _ : α => β} {k : α} {v : Option β} (h : m.lookup k = v)
    (x : α) : m.lookup x = if x = k then v else m.lookup x := by
  by_cases hx : x = k
  · subst hx
    rw [if_pos rfl, h]
  · rw [if_neg hx]

end Finmap
