import SensorLib.Socket.Connecting

/-! # How a connection is ended

`disconn` closes the socket of an adapter and makes another one. Between each of
these calls and the setting of `sockfd_` after it, the member does not say what
the adapter holds.
-/

namespace SensorLib

open Threads Threads.Prog Runs Descriptors

/-- `sockfd_` is `fd`, as it was read or set. -/
structure Holding (x : SocketPtr) (fd : Int) (s : SharedState × Connections) : Prop
    extends Agreed (some x) s where
  sockfd : s.1.holds x .sockfd = held fd

/-- The descriptors that adapters hold are apart once `sockfd_` is set to `fd`. -/
structure Reopening (x : SocketPtr) (fd : Int) (s : SharedState × Connections) : Prop
    extends Flagged (some x) s where
  nonneg : ∀ n ∈ s.1.openFds, 0 ≤ n
  members : Descriptors.Separate s.1.openFds (Function.update
    (fun o : SocketPtr × Adapter.Member => s.1.holds o.1 o.2) (x, .sockfd) (held fd))

namespace Connections

variable {reuse : Bool} {s s' : SharedState × Connections} {x : SocketPtr} {e : Choice}
  {act : AdapterAct}

/-- An act on the adapter of an exempt handle that closes nothing of the others. -/
theorem flagged_own (h : Flagged (some x) s)
    (hclosed : ∀ y, y ≠ x → ∀ a, Linked y a s → a.sockfd ∉ s.1.closedBy (.adapter x act))
    {answer : act.Answer}
    (hexec : (connectionSystem reuse).exec (.adapter x act) e s = some (answer, s')) :
    Flagged (some x) s' ∧ s'.1.registry = s.1.registry := by
  have hexec' : s.1.exec reuse (.adapter x act) e = some (answer, s'.1) :=
    (System.recording_exec hexec).1
  obtain ⟨_, _, hstep, -⟩ := SharedState.exec_adapter hexec'
  have hne : ∀ y, some x ≠ some y → y ≠ x := fun y hy heq => hy (heq ▸ rfl)
  refine ⟨h.exec (fun y hy => hclosed y (hne y hy)) (fun y hy => ⟨fun heq => ?_, fun heq => ?_⟩) hexec
    hstep.registry fun y _ => (SharedState.sameShape_adapter hexec').deviceOf, hstep.registry⟩
  · exact absurd heq.symm (hne y hy)
  · cases heq
    exact absurd rfl hy

/-- The members after an act that sets none of them. -/
theorem holds_same {a : Adapter} {answer : act.Answer}
    (hexec : (connectionSystem reuse).exec (.adapter x act) e s = some (answer, s'))
    (hsame : ∀ a' fds, a.exec s.1.openFds e act = some (answer, a', fds) → a' = a)
    (ha : s.1.adapterOf x = some a) (y : SocketPtr) (m : Adapter.Member) :
    s'.1.holds y m = s.1.holds y m := by
  obtain ⟨a₀, a', ha₀, hholds, hheld, hadapter⟩ := SharedState.Separate.holds_adapter
    (show s.1.exec reuse (.adapter x act) e = some (answer, s'.1) from
      (System.recording_exec hexec).1)
  cases ha₀.symm.trans ha
  cases hsame a' _ hadapter
  rw [hheld]
  split
  · rename_i heq
    rw [heq, hholds]
  · rfl

variable (R : BratislavaSocketRegistry → Prop)

theorem brings_sockfd : (connectionContract reuse).Brings
    (fun s => Agreed (some x) s ∧ R s.1.registry) (.adapter x .sockfd)
    fun fd s => Holding x fd s ∧ R s.1.registry := by
  have hkept : (connectionContract reuse).Keeps (fun s => Agreed (some x) s ∧ R s.1.registry)
      (.adapter x .sockfd) := keeps_exempt .sockfd trivial (by simp) R
  intro s hs
  obtain ⟨howes, hkeeps⟩ := hkept s hs
  refine ⟨howes, fun e fd s' hassumed hexec => ?_⟩
  obtain ⟨h, hR⟩ := hkeeps e fd s' hassumed hexec
  obtain ⟨a, a', -, ha', hadapter⟩ := exec_self hexec
  simp only [Adapter.exec, Option.some.injEq, Prod.mk.injEq] at hadapter
  obtain ⟨rfl, rfl, -⟩ := hadapter
  refine ⟨⟨h, ?_⟩, hR⟩
  rw [SharedState.holds, ha']
  rfl

/-- Nobody else holds the descriptor that is closed. -/
theorem brings_close (fd : Int) : (connectionContract reuse).Brings
    (fun s => Holding x fd s ∧ R s.1.registry) (.adapter x (.close fd))
    fun _ s => Reopening x (-1) s ∧ R s.1.registry := by
  rintro s ⟨h, hR⟩
  refine ⟨fun y heq => (by cases heq), fun e answer s' _ hexec => ?_⟩
  have halone : ∀ o : SocketPtr × Adapter.Member, s.1.holds o.1 o.2 = some fd →
      o = (x, .sockfd) := by
    intro o ho
    have hpos := h.separate.nonneg fd (h.separate.members.isOpen o fd ho)
    exact h.separate.members.alone o (x, .sockfd) fd ho (h.sockfd.trans (if_pos hpos))
  obtain ⟨a, a', ha, -, hadapter⟩ := exec_self hexec
  have hclosed : s.1.closedBy (.adapter x (.close fd)) = [fd] := by
    simp only [SharedState.closedBy, ha, Option.map_some, Option.getD_some, Adapter.closedBy]
  obtain ⟨hflagged, hregistry⟩ := flagged_own h.toFlagged (fun y hy b hlinked hmem => by
    rw [hclosed, List.mem_singleton] at hmem
    have hholds := hlinked.holds h.separate
    rw [hmem] at hholds
    cases halone (y, .sockfd) hholds
    exact hy rfl) hexec
  have hholds := holds_same hexec (fun a' fds heq => by
    simp only [Adapter.exec, Option.some.injEq, Prod.mk.injEq] at heq
    exact heq.2.1.symm) ha
  simp only [Adapter.exec, Adapter.closedBy, Option.some.injEq, Prod.mk.injEq, true_and] at hadapter
  obtain ⟨-, hfds⟩ := hadapter
  refine ⟨⟨hflagged, fun n hn => ?_, h.separate.members.closes fun o n ho => ?_⟩, hregistry ▸ hR⟩
  · rw [← hfds] at hn
    exact h.separate.nonneg n (mem_removeAll.mp hn).1
  · rw [Function.update_apply] at ho
    split at ho
    · cases ho
    · rename_i hne
      rw [hholds] at ho
      refine ⟨ho, ?_⟩
      rw [← hfds, mem_removeAll, List.mem_singleton]
      refine ⟨h.separate.members.isOpen o n ho, ?_⟩
      rintro rfl
      exact hne (halone o ho)

theorem brings_setSockfd (fd : Int) : (connectionContract reuse).Brings
    (fun s => Reopening x fd s ∧ R s.1.registry) (.adapter x (.setSockfd fd))
    fun _ s => Holding x fd s ∧ R s.1.registry := by
  rintro s ⟨h, hR⟩
  refine ⟨fun y heq => (by cases heq), fun e answer s' _ hexec => ?_⟩
  have hnone : s.1.closedBy (.adapter x (.setSockfd fd)) = [] :=
    SharedState.closedBy_adapter_nil fun _ => rfl
  obtain ⟨hflagged, hregistry⟩ := flagged_own h.toFlagged
    (fun _ _ _ _ => hnone ▸ List.not_mem_nil) hexec
  obtain ⟨a, a', -, hholds, hheld, hadapter⟩ := SharedState.Separate.holds_adapter
    (show s.1.exec reuse (.adapter x (.setSockfd fd)) e = some (answer, s'.1) from
      (System.recording_exec hexec).1)
  simp only [Adapter.exec, Option.some.injEq, Prod.mk.injEq, true_and] at hadapter
  obtain ⟨rfl, hfds⟩ := hadapter
  have hupdate : (fun o : SocketPtr × Adapter.Member => s'.1.holds o.1 o.2) =
      Function.update (fun o => s.1.holds o.1 o.2) (x, .sockfd) (held fd) := by
    funext o
    obtain ⟨y, m⟩ := o
    rw [Function.update_apply, hheld]
    by_cases hy : y = x
    · subst hy
      cases m <;> simp [hholds, Adapter.holds, Adapter.fd]
    · simp [hy]
  refine ⟨⟨⟨hflagged, ⟨fun n hn => h.nonneg n (hfds ▸ hn), ?_⟩⟩, ?_⟩, hregistry ▸ hR⟩
  · rw [hupdate, ← hfds]
    exact h.members
  · exact (congrFun hupdate (x, .sockfd)).trans (Function.update_self _ _ _)

theorem brings_socket : (connectionContract reuse).Brings
    (fun s => Holding x (-1) s ∧ R s.1.registry) (.adapter x .socket)
    fun fd s => Reopening x fd s ∧ R s.1.registry := by
  rintro s ⟨h, hR⟩
  refine ⟨fun y heq => (by cases heq), fun e fd s' _ hexec => ?_⟩
  have hnone : s.1.closedBy (.adapter x .socket) = [] :=
    SharedState.closedBy_adapter_nil fun _ => rfl
  obtain ⟨hflagged, hregistry⟩ := flagged_own h.toFlagged
    (fun _ _ _ _ => hnone ▸ List.not_mem_nil) hexec
  obtain ⟨a, a', ha, -, hadapter⟩ := exec_self hexec
  have hholds := holds_same hexec
    (fun _ _ heq => (Adapter.exec_socket heq).2.2.1) ha
  obtain ⟨-, hfresh, -, hfds⟩ := Adapter.exec_socket hadapter
  obtain ⟨hnonneg, hmembers⟩ := SharedState.Separate.opens
    ⟨h.separate.nonneg, h.separate.members⟩ hfresh (x, .sockfd)
  have hsame : (fun o : SocketPtr × Adapter.Member => s'.1.holds o.1 o.2) =
      fun o => s.1.holds o.1 o.2 := funext fun o => hholds o.1 o.2
  refine ⟨⟨hflagged, hfds ▸ hnonneg, ?_⟩, hregistry ▸ hR⟩
  rw [hsame, hfds]
  exact hmembers

theorem reopens : Reopens (connectionContract reuse) x (fun s => Agreed (some x) s ∧ R s.1.registry)
    (fun fd s => Holding x fd s ∧ R s.1.registry) (fun fd s => Reopening x fd s ∧ R s.1.registry) where
  flag := keeps_exempt (.setConnected false) trivial (by simp) R
  read := brings_sockfd R
  close := brings_close R
  set := brings_setSockfd R
  create := brings_socket R
  known _ _ h := ⟨h.1.toAgreed, h.2⟩
  absent _ _ h hneg := ⟨⟨h.1.toAgreed, h.1.sockfd.trans (if_neg hneg)⟩, h.2⟩
  holds _ _ := trivial
  pending _ _ _ := trivial

/-- `disconn` leaves the connections of the others up, and the registry as it is. -/
theorem wp_disconn (h : Agreed (some x) s ∧ R s.1.registry) :
    (connectionContract reuse).Wp (BaseAdapter.disconn x)
      (fun _ s => Agreed (some x) s ∧ R s.1.registry) s := by
  refine (keeps_exempt .kind trivial (by simp) R).wp_act (fun _ _ => trivial) h fun kind s₁ h₁ => ?_
  cases kind <;> exact (reopens R).wp_reopen h₁

end Connections

end SensorLib
