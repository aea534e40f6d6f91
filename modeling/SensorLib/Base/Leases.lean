import Mathlib.Data.Finset.Basic
import Mathlib.Data.Finset.Option

/-! # Items leased from a pool

Every item is free or held. The moves below are all that can happen to one
item, and for each of the two laws, exclusive ownership and conservation, the
rule says exactly which moves keep it.
-/

@[ext]
structure Leases (Holder Item : Type*) where
  holds : Holder → Option Item
  free : Finset Item

namespace Leases

variable {Holder Item : Type*} [DecidableEq Holder] [DecidableEq Item]

/-- An item has at most one holder, and a held item is not free. -/
structure Exclusive (l : Leases Holder Item) : Prop where
  unique : ∀ a b i, l.holds a = some i → l.holds b = some i → a = b
  notFree : ∀ a i, l.holds a = some i → i ∉ l.free

/-- No item of `all` is lost. -/
def Conserved (all : Finset Item) (l : Leases Holder Item) : Prop :=
  ∀ i ∈ all, i ∈ l.free ∨ ∃ a, l.holds a = some i

structure Within (all : Finset Item) (l : Leases Holder Item) : Prop where
  free : ∀ i ∈ l.free, i ∈ all
  held : ∀ a i, l.holds a = some i → i ∈ all

/-- `publish` frees an item its holder keeps, `lose` takes an item for nobody, and `drop`
forgets what was held. -/
inductive Move (Holder Item : Type*)
  | keep
  | take (a : Holder) (i : Item)
  | lose (i : Item)
  | publish (a : Holder)
  | giveBack (a : Holder)
  | drop (a : Holder)

namespace Move

def apply : Move Holder Item → Leases Holder Item → Leases Holder Item
  | keep, l => l
  | take a i, l => ⟨Function.update l.holds a (some i), l.free.erase i⟩
  | lose i, l => ⟨l.holds, l.free.erase i⟩
  | publish a, l => ⟨l.holds, l.free ∪ (l.holds a).toFinset⟩
  | giveBack a, l => ⟨Function.update l.holds a none, l.free ∪ (l.holds a).toFinset⟩
  | drop a, l => ⟨Function.update l.holds a none, l.free⟩

/-- Only a free item is taken. -/
def Possible (l : Leases Holder Item) : Move Holder Item → Prop
  | take _ i | lose i => i ∈ l.free
  | _ => True

def KeepsExclusive (l : Leases Holder Item) : Move Holder Item → Prop
  | publish a => l.holds a = none
  | _ => True

def KeepsConserved (l : Leases Holder Item) : Move Holder Item → Prop
  | take a _ | drop a => l.holds a = none
  | lose _ => False
  | _ => True

end Move

variable {l : Leases Holder Item} {all : Finset Item}

omit [DecidableEq Item] in
theorem holds_update {a b : Holder} {v : Option Item} {i : Item} :
    Function.update l.holds a v b = some i ↔ b = a ∧ v = some i ∨ b ≠ a ∧ l.holds b = some i := by
  rw [Function.update_apply]
  by_cases h : b = a <;> simp [h]

theorem Within.apply (h : l.Within all) {m : Move Holder Item} (hm : m.Possible l) :
    (m.apply l).Within all := by
  cases m with
  | keep => exact h
  | take a i =>
    refine ⟨fun j hj => h.free j (Finset.mem_of_mem_erase hj), fun b j hj => ?_⟩
    rcases holds_update.mp hj with ⟨_, hij⟩ | ⟨_, hj⟩
    · cases hij
      exact h.free i hm
    · exact h.held b j hj
  | lose i => exact ⟨fun j hj => h.free j (Finset.mem_of_mem_erase hj), h.held⟩
  | publish a =>
    refine ⟨fun j hj => ?_, h.held⟩
    rcases Finset.mem_union.mp hj with hj | hj
    · exact h.free j hj
    · exact h.held a j (Option.mem_toFinset.mp hj)
  | giveBack a =>
    refine ⟨fun j hj => ?_, fun b j hj => ?_⟩
    · rcases Finset.mem_union.mp hj with hj | hj
      · exact h.free j hj
      · exact h.held a j (Option.mem_toFinset.mp hj)
    · rcases holds_update.mp hj with ⟨_, hnone⟩ | ⟨_, hj⟩
      · cases hnone
      · exact h.held b j hj
  | drop a =>
    refine ⟨h.free, fun b j hj => ?_⟩
    rcases holds_update.mp hj with ⟨_, hnone⟩ | ⟨_, hj⟩
    · cases hnone
    · exact h.held b j hj

theorem Exclusive.apply (h : l.Exclusive) {m : Move Holder Item} (hm : m.Possible l)
    (hkeep : m.KeepsExclusive l) : (m.apply l).Exclusive := by
  cases m with
  | keep => exact h
  | take a i =>
    have hother : ∀ b j, b ≠ a → l.holds b = some j → j ≠ i := by
      rintro b j _ hj rfl
      exact h.notFree b j hj hm
    refine ⟨fun b c j hb hc => ?_, fun b j hb => ?_⟩
    · rcases holds_update.mp hb with ⟨rfl, hij⟩ | ⟨hba, hb'⟩ <;>
        rcases holds_update.mp hc with ⟨rfl, hij'⟩ | ⟨hca, hc'⟩
      · rfl
      · exact absurd (Option.some.inj hij).symm (hother c j hca hc')
      · exact absurd (Option.some.inj hij').symm (hother b j hba hb')
      · exact h.unique b c j hb' hc'
    · rcases holds_update.mp hb with ⟨rfl, hij⟩ | ⟨hba, hb⟩
      · cases hij
        exact Finset.notMem_erase i l.free
      · exact fun hmem => h.notFree b j hb (Finset.mem_of_mem_erase hmem)
  | lose i => exact ⟨h.unique, fun b j hb hmem => h.notFree b j hb (Finset.mem_of_mem_erase hmem)⟩
  | publish a =>
    have hnone : l.holds a = none := hkeep
    refine ⟨h.unique, fun b j hb hmem => ?_⟩
    rcases Finset.mem_union.mp hmem with hmem | hmem
    · exact h.notFree b j hb hmem
    · rw [hnone] at hmem
      cases hmem
  | giveBack a =>
    refine ⟨fun b c j hb hc => ?_, fun b j hb hmem => ?_⟩
    · rcases holds_update.mp hb with ⟨_, hnone⟩ | ⟨_, hb⟩
      · cases hnone
      · rcases holds_update.mp hc with ⟨_, hnone⟩ | ⟨_, hc⟩
        · cases hnone
        · exact h.unique b c j hb hc
    · rcases holds_update.mp hb with ⟨_, hnone⟩ | ⟨hba, hb⟩
      · cases hnone
      · rcases Finset.mem_union.mp hmem with hmem | hmem
        · exact h.notFree b j hb hmem
        · exact hba (h.unique b a j hb (Option.mem_toFinset.mp hmem))
  | drop a =>
    refine ⟨fun b c j hb hc => ?_, fun b j hb hmem => ?_⟩
    · rcases holds_update.mp hb with ⟨_, hnone⟩ | ⟨_, hb⟩
      · cases hnone
      · rcases holds_update.mp hc with ⟨_, hnone⟩ | ⟨_, hc⟩
        · cases hnone
        · exact h.unique b c j hb hc
    · rcases holds_update.mp hb with ⟨_, hnone⟩ | ⟨_, hb⟩
      · cases hnone
      · exact h.notFree b j hb hmem

theorem Exclusive.apply_iff (h : l.Exclusive) {m : Move Holder Item} (hm : m.Possible l) :
    (m.apply l).Exclusive ↔ m.KeepsExclusive l := by
  refine ⟨fun hnext => ?_, h.apply hm⟩
  cases m with
  | publish a =>
    cases ha : l.holds a with
    | none => exact ha
    | some i =>
      refine absurd (Finset.mem_union_right _ ?_) (hnext.notFree a i ha)
      rw [ha]
      exact Option.mem_toFinset.mpr rfl
  | keep | take | lose | giveBack | drop => trivial

theorem Conserved.apply (h : l.Conserved all) {m : Move Holder Item}
    (hkeep : m.KeepsConserved l) : (m.apply l).Conserved all := by
  intro j hj
  cases m with
  | keep => exact h j hj
  | lose i => exact absurd hkeep not_false
  | take a i =>
    have hnone : l.holds a = none := hkeep
    by_cases hji : j = i
    · exact Or.inr ⟨a, holds_update.mpr (Or.inl ⟨rfl, hji ▸ rfl⟩)⟩
    · rcases h j hj with hfree | ⟨b, hb⟩
      · exact Or.inl (Finset.mem_erase.mpr ⟨hji, hfree⟩)
      · refine Or.inr ⟨b, holds_update.mpr (Or.inr ⟨?_, hb⟩)⟩
        rintro rfl
        rw [hnone] at hb
        cases hb
  | publish a =>
    rcases h j hj with hfree | hheld
    · exact Or.inl (Finset.mem_union_left _ hfree)
    · exact Or.inr hheld
  | giveBack a =>
    rcases h j hj with hfree | ⟨b, hb⟩
    · exact Or.inl (Finset.mem_union_left _ hfree)
    · by_cases hba : b = a
      · subst hba
        exact Or.inl (Finset.mem_union_right _ (Option.mem_toFinset.mpr hb))
      · exact Or.inr ⟨b, holds_update.mpr (Or.inr ⟨hba, hb⟩)⟩
  | drop a =>
    have hnone : l.holds a = none := hkeep
    rcases h j hj with hfree | ⟨b, hb⟩
    · exact Or.inl hfree
    · refine Or.inr ⟨b, holds_update.mpr (Or.inr ⟨?_, hb⟩)⟩
      rintro rfl
      rw [hnone] at hb
      cases hb

/-- What is overwritten, lost or dropped is in no other place. -/
theorem Conserved.apply_iff (h : l.Conserved all) (hex : l.Exclusive) (hin : l.Within all)
    {m : Move Holder Item} (hm : m.Possible l) :
    (m.apply l).Conserved all ↔ m.KeepsConserved l := by
  refine ⟨fun hnext => ?_, h.apply⟩
  cases m with
  | take a i =>
    cases ha : l.holds a with
    | none => exact ha
    | some j =>
      have hji : j ≠ i := by
        rintro rfl
        exact hex.notFree a j ha hm
      rcases hnext j (hin.held a j ha) with hfree | ⟨b, hb⟩
      · exact absurd (Finset.mem_of_mem_erase hfree) (hex.notFree a j ha)
      · rcases holds_update.mp hb with ⟨_, hij⟩ | ⟨hba, hb⟩
        · cases hij
          exact absurd rfl hji
        · exact absurd (hex.unique b a j hb ha) hba
  | lose i =>
    rcases hnext i (hin.free i hm) with hfree | ⟨b, hb⟩
    · exact Finset.notMem_erase i l.free hfree
    · exact hex.notFree b i hb hm
  | drop a =>
    cases ha : l.holds a with
    | none => exact ha
    | some j =>
      rcases hnext j (hin.held a j ha) with hfree | ⟨b, hb⟩
      · exact absurd hfree (hex.notFree a j ha)
      · rcases holds_update.mp hb with ⟨_, hnone⟩ | ⟨hba, hb⟩
        · cases hnone
        · exact absurd (hex.unique b a j hb ha) hba
  | keep | publish | giveBack => trivial

end Leases
