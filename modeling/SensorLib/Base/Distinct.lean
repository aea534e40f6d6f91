import Mathlib.Data.List.Induction
import Mathlib.Data.List.Nodup

/-! # The distinct elements of a list, in the order of their first appearance -/

namespace List

universe u v

variable {α : Type u} {β : Type v}

theorem eraseDups_concat [BEq α] [LawfulBEq α] (l : List α) (a : α) :
    (l ++ [a]).eraseDups = if a ∈ l then l.eraseDups else l.eraseDups ++ [a] := by
  rw [eraseDups_append]
  by_cases ha : a ∈ l <;> simp [List.removeAll, ha, eraseDups_cons]

theorem nodup_eraseDups [BEq α] [LawfulBEq α] (l : List α) : l.eraseDups.Nodup := by
  induction l using List.reverseRecOn with
  | nil => simp
  | append_singleton l a ih =>
    rw [eraseDups_concat]
    split
    · exact ih
    · rename_i ha
      simp only [nodup_append, ih, nodup_singleton, mem_eraseDups, mem_singleton, true_and]
      rintro b hb _ rfl rfl
      exact ha hb

/-- The entry of one key is changed where it is found first, as if every entry of the key were. -/
theorem modify_findIdx_map [DecidableEq α] {l : List α} (hl : l.Nodup) {a : α} (ha : a ∈ l) (f : α → β)
    {p : β → Bool} (hp : ∀ x, p (f x) = decide (x = a)) (g : β → β) :
    (l.map f).modify ((l.map f).findIdx p) g = l.map fun x => if x = a then g (f x) else f x := by
  induction l with
  | nil => rfl
  | cons x l ih =>
    rw [nodup_cons] at hl
    rw [map_cons, findIdx_cons, hp, map_cons]
    by_cases hx : x = a
    · subst hx
      have hrest : ∀ y ∈ l, (if y = x then g (f y) else f y) = f y := fun y hy =>
        if_neg fun (heq : y = x) => hl.1 (heq ▸ hy)
      simp [map_congr_left hrest]
    · have hmem : a ∈ l := (mem_cons.mp ha).resolve_left (Ne.symm hx)
      rw [decide_eq_false hx, if_neg hx, ← ih hl.2 hmem]
      rfl

end List
