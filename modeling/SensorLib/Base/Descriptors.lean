import Mathlib.Data.List.Nodup
import Mathlib.Logic.Function.Basic

/-! # A table of descriptors

The numbers that sockets were given, the newest first, and how often each of
them was closed. A number is given out again once its socket is closed.
-/

namespace Descriptors

structure Entry where
  fd : Int
  closes : Nat := 0
  deriving DecidableEq, Repr

abbrev Table := List Entry

/-- The numbers of the sockets that were not closed. -/
def live : Table → List Int
  | [] => []
  | e :: T => if e.closes = 0 then e.fd :: live T else live T

def opened (T : Table) (fd : Int) : Table := { fd } :: T

/-- `close` reaches the last socket that was given the number. -/
def closed (fd : Int) : Table → Table
  | [] => []
  | e :: T => if e.fd = fd then { e with closes := e.closes + 1 } :: T else e :: closed fd T

def closedAll (T : Table) (fds : List Int) : Table := fds.foldl (fun T fd => closed fd T) T

/-- A system call that returned `fd`. An error gives out nothing. -/
def takes (T : Table) (fd : Int) : Table := if fd = -1 then T else opened T fd

/-- The socket that a variable holds. A negative number is the sign of an error. -/
def held (fd : Int) : Option Int := if 0 ≤ fd then some fd else none

/-- What a system call may return: an error, or a number that is not in use. -/
def Fresh (T : Table) (fd : Int) : Prop := fd = -1 ∨ 0 ≤ fd ∧ fd ∉ live T

instance (T : Table) (fd : Int) : Decidable (Fresh T fd) :=
  inferInstanceAs (Decidable (fd = -1 ∨ 0 ≤ fd ∧ fd ∉ live T))

variable {T : Table} {e : Entry} {fd : Int}

theorem mem_live : fd ∈ live T ↔ ∃ e ∈ T, e.fd = fd ∧ e.closes = 0 := by
  induction T with
  | nil => simp [live]
  | cons e T ih =>
    unfold live
    split
    · rename_i hopen
      simp only [List.mem_cons, ih]
      constructor
      · rintro (rfl | ⟨e', he', heq, hzero⟩)
        · exact ⟨e, Or.inl rfl, rfl, hopen⟩
        · exact ⟨e', Or.inr he', heq, hzero⟩
      · rintro ⟨e', rfl | he', heq, hzero⟩
        · exact Or.inl heq.symm
        · exact Or.inr ⟨e', he', heq, hzero⟩
    · rename_i hclosed
      simp only [List.mem_cons, ih]
      constructor
      · rintro ⟨e', he', heq, hzero⟩
        exact ⟨e', Or.inr he', heq, hzero⟩
      · rintro ⟨e', rfl | he', heq, hzero⟩
        · exact absurd hzero hclosed
        · exact ⟨e', he', heq, hzero⟩

/-- No socket was closed twice, and no number was given out while its socket was open. -/
structure Sane (T : Table) : Prop where
  once : ∀ e ∈ T, e.closes ≤ 1
  apart : T.Pairwise fun e e' => e'.closes = 0 → e.fd ≠ e'.fd
  nonneg : ∀ e ∈ T, 0 ≤ e.fd

namespace Sane

theorem nil : Sane [] := ⟨by simp, List.Pairwise.nil, by simp⟩

theorem tail (h : Sane (e :: T)) : Sane T :=
  ⟨fun x hx => h.once x (List.mem_cons_of_mem e hx), h.apart.of_cons,
    fun x hx => h.nonneg x (List.mem_cons_of_mem e hx)⟩

/-- The socket of a number that is not open was closed once. -/
theorem closes_eq_one (h : Sane T) (he : e ∈ T) (hfd : e.fd ∉ live T) : e.closes = 1 := by
  have hne : e.closes ≠ 0 := fun hzero => hfd (mem_live.mpr ⟨e, he, rfl, hzero⟩)
  have hle := h.once e he
  omega

theorem nonneg_of_live (h : Sane T) (hfd : fd ∈ live T) : 0 ≤ fd := by
  obtain ⟨e, he, rfl, -⟩ := mem_live.mp hfd
  exact h.nonneg e he

/-- A newer socket does not have the number of one that is open. -/
theorem notMem_live (h : Sane (e :: T)) : e.fd ∉ live T := by
  intro hfd
  obtain ⟨x, hx, heq, hzero⟩ := mem_live.mp hfd
  exact List.rel_of_pairwise_cons h.apart hx hzero heq.symm

theorem opened (h : Sane T) (hfd : 0 ≤ fd) (hnew : fd ∉ live T) : Sane (opened T fd) where
  once x hx := by
    rcases List.mem_cons.mp hx with rfl | hx
    · exact Nat.zero_le 1
    · exact h.once x hx
  apart := by
    refine List.pairwise_cons.mpr ⟨fun x hx hzero heq => ?_, h.apart⟩
    exact hnew (mem_live.mpr ⟨x, hx, heq.symm, hzero⟩)
  nonneg x hx := by
    rcases List.mem_cons.mp hx with rfl | hx
    · exact hfd
    · exact h.nonneg x hx

end Sane

theorem live_opened (T : Table) (fd : Int) : live (opened T fd) = fd :: live T := rfl

/-- A number that was never given out is closed in vain. -/
theorem closed_of_notMem (h : ∀ e ∈ T, e.fd ≠ fd) : closed fd T = T := by
  induction T with
  | nil => rfl
  | cons e T ih =>
    rw [closed, if_neg (h e List.mem_cons_self), ih fun x hx => h x (List.mem_cons_of_mem e hx)]

theorem held_eq_some {n : Int} : held fd = some n ↔ 0 ≤ n ∧ fd = n := by
  unfold held
  split
  · rw [Option.some.injEq]
    constructor
    · rintro rfl
      exact ⟨by assumption, rfl⟩
    · exact fun h => h.2
  · constructor
    · intro h
      cases h
    · rintro ⟨hn, rfl⟩
      contradiction

theorem Sane.live_closed (h : Sane T) (hfd : fd ∈ live T) (x : Int) :
    x ∈ live (closed fd T) ↔ x ∈ live T ∧ x ≠ fd := by
  induction T with
  | nil => exact absurd hfd List.not_mem_nil
  | cons e T ih =>
    unfold closed
    split
    · rename_i heq
      have hnotin := h.notMem_live
      rw [heq] at hnotin
      have hzero : e.closes = 0 := by
        by_contra hne
        rw [live, if_neg hne] at hfd
        exact hnotin hfd
      simp only [live, hzero, Nat.zero_add, Nat.one_ne_zero, if_false, if_true, List.mem_cons, heq]
      constructor
      · intro hx
        exact ⟨Or.inr hx, fun hxfd => hnotin (hxfd ▸ hx)⟩
      · rintro ⟨rfl | hx, hne⟩
        · exact absurd rfl hne
        · exact hx
    · rename_i hne
      have hfd' : fd ∈ live T := by
        unfold live at hfd
        split at hfd
        · exact (List.mem_cons.mp hfd).resolve_left (Ne.symm hne)
        · exact hfd
      simp only [live]
      split
      · simp only [List.mem_cons, ih h.tail hfd']
        constructor
        · rintro (rfl | ⟨hx, hxfd⟩)
          · exact ⟨Or.inl rfl, hne⟩
          · exact ⟨Or.inr hx, hxfd⟩
        · rintro ⟨rfl | hx, hxfd⟩
          · exact Or.inl rfl
          · exact Or.inr ⟨hx, hxfd⟩
      · exact ih h.tail hfd'

theorem Sane.closed (h : Sane T) (hfd : fd ∈ live T) : Sane (closed fd T) := by
  induction T with
  | nil => exact absurd hfd List.not_mem_nil
  | cons e T ih =>
    have hlive := h.live_closed hfd
    unfold Descriptors.closed at hlive ⊢
    split
    · rename_i heq
      have hzero : e.closes = 0 := by
        by_contra hne
        rw [live, if_neg hne] at hfd
        exact h.notMem_live (heq ▸ hfd)
      refine ⟨fun x hx => ?_, ?_, fun x hx => ?_⟩
      · rcases List.mem_cons.mp hx with rfl | hx
        · simp [hzero]
        · exact h.tail.once x hx
      · exact List.pairwise_cons.mpr ⟨(List.pairwise_cons.mp h.apart).1, h.tail.apart⟩
      · rcases List.mem_cons.mp hx with rfl | hx
        · exact h.nonneg e List.mem_cons_self
        · exact h.tail.nonneg x hx
    · rename_i hne
      have hfd' : fd ∈ live T := by
        unfold live at hfd
        split at hfd
        · exact (List.mem_cons.mp hfd).resolve_left (Ne.symm hne)
        · exact hfd
      have hsane := ih h.tail hfd'
      refine ⟨fun x hx => ?_, ?_, fun x hx => ?_⟩
      · rcases List.mem_cons.mp hx with rfl | hx
        · exact h.once x List.mem_cons_self
        · exact hsane.once x hx
      · refine List.pairwise_cons.mpr ⟨fun x hx hzero heq => ?_, hsane.apart⟩
        have hxlive : x.fd ∈ live (Descriptors.closed fd T) := mem_live.mpr ⟨x, hx, rfl, hzero⟩
        have hxlive' := ((h.tail.live_closed hfd' x.fd).mp hxlive).1
        exact h.notMem_live (heq ▸ hxlive')
      · rcases List.mem_cons.mp hx with rfl | hx
        · exact h.nonneg x List.mem_cons_self
        · exact hsane.nonneg x hx

/-! ## Owners -/

universe u

variable {Owner : Type u} [DecidableEq Owner] {owns owns' : Owner → Option Int} {fds fds' : List Int}
  {o o' : Owner}

/-- What the owners hold is open, and no two hold the same. -/
structure Separate (fds : List Int) (owns : Owner → Option Int) : Prop where
  isOpen : ∀ o fd, owns o = some fd → fd ∈ fds
  alone : ∀ o o' fd, owns o = some fd → owns o' = some fd → o = o'

namespace Separate

omit [DecidableEq Owner] in
/-- Some descriptors are closed, and nobody holds one of them any more. -/
theorem closes (h : Separate fds owns)
    (hkept : ∀ o fd, owns' o = some fd → owns o = some fd ∧ fd ∈ fds') : Separate fds' owns' where
  isOpen o fd ho := (hkept o fd ho).2
  alone o o' fd ho ho' := h.alone o o' fd (hkept o fd ho).1 (hkept o' fd ho').1

/-- An owner holds what was opened for it, in the place of what it held. -/
theorem opens (h : Separate fds owns) (hnew : fd ∉ fds) :
    Separate (fd :: fds) (Function.update owns o (some fd)) where
  isOpen x n hx := by
    rw [Function.update_apply] at hx
    split at hx
    · cases hx
      exact List.mem_cons_self
    · exact List.mem_cons_of_mem _ (h.isOpen x n hx)
  alone x y n hx hy := by
    have hold : ∀ z, owns z ≠ some fd := fun z hz => hnew (h.isOpen z fd hz)
    rw [Function.update_apply] at hx hy
    split at hx <;> split at hy
    · rename_i hxo hyo
      exact hxo.trans hyo.symm
    · cases hx
      exact absurd hy (hold y)
    · cases hy
      exact absurd hx (hold x)
    · exact h.alone x y n hx hy

end Separate

/-- Each open socket is owned by one owner, and each owner owns an open one or none. -/
structure Kept (T : Table) (owns : Owner → Option Int) : Prop where
  sane : Sane T
  isLive : ∀ o fd, owns o = some fd → fd ∈ live T
  alone : ∀ o o' fd, owns o = some fd → owns o' = some fd → o = o'
  owned : ∀ fd ∈ live T, ∃ o, owns o = some fd

namespace Kept

variable (h : Kept T owns)

include h

omit [DecidableEq Owner] in
theorem separate : Separate (live T) owns := ⟨h.isLive, h.alone⟩

theorem opened (hfd : 0 ≤ fd) (hnew : fd ∉ live T) (ho : owns o = none) :
    Kept (opened T fd) (Function.update owns o (some fd)) where
  sane := h.sane.opened hfd hnew
  isLive := by
    rw [live_opened]
    exact (h.separate.opens hnew).isOpen
  alone := (h.separate.opens hnew).alone
  owned n hn := by
    rw [live_opened, List.mem_cons] at hn
    rcases hn with rfl | hn
    · exact ⟨o, Function.update_self _ _ _⟩
    · obtain ⟨x, hx⟩ := h.owned n hn
      have hxo : x ≠ o := by
        rintro rfl
        rw [ho] at hx
        cases hx
      exact ⟨x, by rw [Function.update_of_ne hxo, hx]⟩

/-- What is left when one owner lets go. -/
theorem separate_closed (ho : owns o = some fd) :
    Separate (live (Descriptors.closed fd T)) (Function.update owns o none) := by
  refine h.separate.closes fun x n hx => ?_
  have hxo : x ≠ o := by
    rintro rfl
    rw [Function.update_self] at hx
    cases hx
  rw [Function.update_of_ne hxo] at hx
  refine ⟨hx, (h.sane.live_closed (h.isLive o fd ho) n).mpr ⟨h.isLive x n hx, ?_⟩⟩
  rintro rfl
  exact hxo (h.alone x o n hx ho)

theorem closed (ho : owns o = some fd) :
    Kept (closed fd T) (Function.update owns o none) where
  sane := h.sane.closed (h.isLive o fd ho)
  isLive := (h.separate_closed ho).isOpen
  alone := (h.separate_closed ho).alone
  owned n hn := by
    obtain ⟨hlive, hne⟩ := (h.sane.live_closed (h.isLive o fd ho) n).mp hn
    obtain ⟨x, hx⟩ := h.owned n hlive
    have hxo : x ≠ o := by
      rintro rfl
      rw [ho, Option.some.injEq] at hx
      exact hne hx.symm
    exact ⟨x, by rw [Function.update_of_ne hxo, hx]⟩

/-- An owner of nothing keeps what a system call gave it. -/
theorem takes (hfd : Fresh T fd) (ho : owns o = none) :
    Kept (takes T fd) (Function.update owns o (held fd)) := by
  unfold Descriptors.takes
  rcases hfd with rfl | ⟨hpos, hnew⟩
  · have hsame : Function.update owns o (held (-1)) = owns := by
      rw [Function.update_eq_self_iff]
      exact ho.symm
    rw [if_pos rfl, hsame]
    exact h
  · have hheld : held fd = some fd := if_pos hpos
    rw [if_neg (by omega), hheld]
    exact h.opened hpos hnew ho

/-- An owner closes what it holds, if it holds anything. -/
theorem closes (ho : owns o = held fd) : Kept (Descriptors.closed fd T)
    (Function.update owns o none) := by
  by_cases hpos : 0 ≤ fd
  · exact h.closed (ho.trans (if_pos hpos))
  · have hsame : Function.update owns o none = owns := by
      rw [Function.update_eq_self_iff, ho]
      exact (if_neg hpos).symm
    have hnever : ∀ e ∈ T, e.fd ≠ fd := by
      rintro e he rfl
      exact hpos (h.sane.nonneg e he)
    rw [closed_of_notMem hnever, hsame]
    exact h

omit [DecidableEq Owner] in
theorem live_of_closes (ho : owns o = held fd) {n : Int}
    (hn : n ∈ live (Descriptors.closed fd T)) : n ∈ live T ∧ n ≠ fd := by
  by_cases hpos : 0 ≤ fd
  · exact (h.sane.live_closed (h.isLive o fd (ho.trans (if_pos hpos))) n).mp hn
  · have hnever : ∀ e ∈ T, e.fd ≠ fd := by
      rintro e he rfl
      exact hpos (h.sane.nonneg e he)
    rw [closed_of_notMem hnever] at hn
    refine ⟨hn, ?_⟩
    rintro rfl
    exact hpos (h.sane.nonneg_of_live hn)

/-- An owner hands its socket to another one. -/
theorem handed (ho : owns o = some fd) (ho' : owns o' = none) :
    Kept T (Function.update (Function.update owns o none) o' (some fd)) where
  sane := h.sane
  isLive x n hx := by
    by_cases hxo' : x = o'
    · subst hxo'
      rw [Function.update_self, Option.some.injEq] at hx
      exact hx ▸ h.isLive o fd ho
    · rw [Function.update_of_ne hxo'] at hx
      by_cases hxo : x = o
      · subst hxo
        rw [Function.update_self] at hx
        cases hx
      · rw [Function.update_of_ne hxo] at hx
        exact h.isLive x n hx
  alone x y n hx hy := by
    have hstep : ∀ z, Function.update (Function.update owns o none) o' (some fd) z = some n →
        z = o' ∧ n = fd ∨ z ≠ o' ∧ z ≠ o ∧ owns z = some n := by
      intro z hz
      by_cases hzo' : z = o'
      · subst hzo'
        rw [Function.update_self, Option.some.injEq] at hz
        exact Or.inl ⟨rfl, hz.symm⟩
      · rw [Function.update_of_ne hzo'] at hz
        by_cases hzo : z = o
        · subst hzo
          rw [Function.update_self] at hz
          cases hz
        · rw [Function.update_of_ne hzo] at hz
          exact Or.inr ⟨hzo', hzo, hz⟩
    rcases hstep x hx with ⟨hxo', rfl⟩ | ⟨-, hxo, hx'⟩
    · rcases hstep y hy with ⟨hyo', -⟩ | ⟨-, hyo, hy'⟩
      · rw [hxo', hyo']
      · exact absurd (h.alone y o n hy' ho) hyo
    · rcases hstep y hy with ⟨-, rfl⟩ | ⟨-, -, hy'⟩
      · exact absurd (h.alone x o n hx' ho) hxo
      · exact h.alone x y n hx' hy'
  owned n hn := by
    by_cases hnfd : n = fd
    · subst hnfd
      exact ⟨o', Function.update_self _ _ _⟩
    · obtain ⟨x, hx⟩ := h.owned n hn
      have hxo : x ≠ o := by
        rintro rfl
        rw [ho, Option.some.injEq] at hx
        exact hnfd hx.symm
      have hxo' : x ≠ o' := by
        rintro rfl
        rw [ho'] at hx
        cases hx
      exact ⟨x, by rw [Function.update_of_ne hxo', Function.update_of_ne hxo, hx]⟩

end Kept

end Descriptors
