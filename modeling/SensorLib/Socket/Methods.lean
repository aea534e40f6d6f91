import SensorLib.Socket.Ledger
import SensorLib.Threads.Completion

/-! # The methods of the registry, run alone

Without another thread, the locks and the copies of a config do not show: the
programs compute what the sequential methods do. The system may write a history
of its acts, as long as the acts of the registry are not entered.
-/

namespace SensorLib

open Threads Threads.Prog Handles

/-- Every lock held ranks below `n`. -/
def Below (n : Nat) (held : Locks) : Prop := ∀ l ∈ lockNames held, l.rank < n

instance (n : Nat) (held : Locks) : Decidable (Below n held) :=
  inferInstanceAs (Decidable (∀ l ∈ lockNames held, l.rank < n))

variable {reuse : Bool} {H : Type} {record : SocketAct → Choice → SharedState → H → H}
  {held : Locks} {s s' : SharedState} {η : H} {x : SocketPtr} {α : Type}

theorem Below.cons {n : Nat} (h : Below n held) {l : Mutex} {m : Mode} (hl : n ≤ l.rank) :
    Below (l.rank + 1) ((l, m) :: held) := by
  intro k hk
  rcases List.mem_cons.mp hk with rfl | hk
  · exact Nat.lt_succ_self _
  · exact Nat.lt_succ_of_lt (Nat.lt_of_lt_of_le (h k hk) hl)

theorem below_nil (n : Nat) : Below n [] := fun _ hl => by cases hl

theorem Below.mono {n k : Nat} (h : Below n held) (hn : n ≤ k) : Below k held :=
  fun l hl => Nat.lt_of_lt_of_le (h l hl) hn

/-- A lock that ranks above those held is free. -/
theorem Below.grants {n : Nat} (h : Below n held) {l : Mutex} {m : Mode} (hl : n ≤ l.rank) :
    ((socketSystem reuse).recording record).Grants held l m := by
  intro m' hmem
  exact absurd (h l (mem_lockNames_of_mem hmem)) (by omega)

theorem grants_recursive {m : Mode} :
    ((socketSystem reuse).recording record).Grants held Mutex.recursive m :=
  fun _ _ => Or.inr rfl

/-- The acts of the registry are not entered in the history. -/
def Overlooks (record : SocketAct → Choice → SharedState → H → H) : Prop :=
  ∀ a e s η, a.OffHeap → record a e s η = η

/-- After a program with one outcome that calls nothing, the rest is checked from there. -/
theorem wp_computes {β : Type} {p : Program α} {q : α → Program β} {a : α}
    {Q : β → SharedState × H → Prop}
    (hp : p.Computes ((socketSystem reuse).recording record) [] (s, η) a (s', η))
    (hcalls : p.ActsIn (S := socketSignature) fun _ => True)
    (hq : (Contract.free ((socketSystem reuse).recording record)).Wp (q a) Q (s', η)) :
    (Contract.free ((socketSystem reuse).recording record)).Wp (p.bind q) Q (s, η) :=
  Computes.wp (S := socketSignature) hp hcalls (fun _ _ _ => trivial) (fun _ => trivial) hq

/-- The methods that work on a pinned socket call nothing. -/
theorem Handles.PinnedBlock.actsIn {p : Program α}
    (hp : PinnedBlock (fun _ => True) x (fun _ => True) α p) :
    p.ActsIn (S := socketSignature) fun _ => True :=
  actsIn_built (P := fun _ => True) (T := fun _ => True) (fun _ _ => trivial) (fun _ _ => trivial)
    (built_block (S := socketSignature) hp)

variable (hrecord : Overlooks record)

include hrecord

theorem recording_exec_offHeap {a : SocketAct} (hoff : a.OffHeap) {answer : a.Answer} {e : Choice}
    (hexec : s.exec reuse a e = some (answer, s')) :
    ((socketSystem reuse).recording record).exec a e (s, η) = some (answer, s', η) := by
  show (s.exec reuse a e).map _ = _
  rw [hexec, Option.map_some, hrecord a e s η hoff]

theorem computes_act (a : SocketAct) (hoff : a.OffHeap) {answer : a.Answer}
    (hexec : ∀ e, s.exec reuse a e = some (answer, s')) :
    (act a).Computes ((socketSystem reuse).recording record) held (s, η) answer (s', η) :=
  computes_perform ({} : Choice) fun e => recording_exec_offHeap hrecord hoff (hexec e)

theorem computes_getConfigSocket (hheld : Below 5 held) :
    (Registry.getConfigSocket x).Computes ((socketSystem reuse).recording record) held (s, η)
      (s.registry.getConfigSocket x) (s, η) :=
  Computes.locked (hheld.grants (by decide))
    (computes_act hrecord (.getConfigSocket x) trivial fun _ => rfl)

theorem computes_getConfigId (hheld : Below 5 held) (id : String) :
    (Registry.getConfigId id).Computes ((socketSystem reuse).recording record) held (s, η)
      (s.registry.getConfigId id) (s, η) :=
  Computes.locked (hheld.grants (by decide))
    (computes_act hrecord (.getConfigId id) trivial fun _ => rfl)

theorem computes_updateConfig (hheld : Below 5 held) (config : BratislavaSocketConfig) :
    (Registry.updateConfig config).Computes ((socketSystem reuse).recording record) held (s, η)
      (s.registry.updateConfig config).1 (s.setRegistry (s.registry.updateConfig config).2, η) :=
  Computes.locked (hheld.grants (by decide))
    (computes_act hrecord (.updateConfig config) trivial fun _ => rfl)

theorem computes_modifyConfig (hheld : Below 5 held) {get : Program (Option BratislavaSocketConfig)}
    {found : Option BratislavaSocketConfig} (change : BratislavaSocketConfig → BratislavaSocketConfig)
    (hget : get.Computes ((socketSystem reuse).recording record) held (s, η) found (s, η)) :
    (Registry.modifyConfig get change).Computes ((socketSystem reuse).recording record) held (s, η)
      (s.registry.modifyConfig found change).1
      (s.setRegistry (s.registry.modifyConfig found change).2, η) := by
  refine hget.ends ?_
  cases found with
  | none => exact computes_pure _ _ _
  | some config => exact computes_updateConfig hrecord hheld (change config)

omit hrecord in
/-- What a getter computes of the config that it reads. -/
theorem computes_readConfig {get : Program (Option BratislavaSocketConfig)}
    {found : Option BratislavaSocketConfig} {default : α} {field : BratislavaSocketConfig → α}
    (hget : get.Computes ((socketSystem reuse).recording record) held (s, η) found (s, η)) :
    (Registry.readConfig get default field).Computes ((socketSystem reuse).recording record) held
      (s, η) ((found.map field).getD default) (s, η) := by
  refine hget.ends ?_
  cases found <;> exact computes_pure _ _ _

theorem computes_connect (hheld : Below 4 held) :
    (Registry.connect x).Computes ((socketSystem reuse).recording record) held (s, η)
      (s.registry.connect x).1 (s.setRegistry (s.registry.connect x).2, η) := by
  have hinner := hheld.cons (l := .sharedRegistry) (m := .exclusive) (by decide)
  refine Computes.locked (hheld.grants (by decide)) ?_
  exact computes_modifyConfig hrecord hinner _ (computes_getConfigSocket hrecord hinner)

theorem computes_disconnectSocket (hheld : Below 4 held) :
    (Registry.disconnectSocket x).Computes ((socketSystem reuse).recording record) held (s, η)
      (s.registry.disconnectSocket x).1 (s.setRegistry (s.registry.disconnectSocket x).2, η) := by
  have hinner := hheld.cons (l := .sharedRegistry) (m := .exclusive) (by decide)
  refine Computes.locked (hheld.grants (by decide)) ?_
  exact computes_modifyConfig hrecord hinner _ (computes_getConfigSocket hrecord hinner)

theorem computes_disconnectId (hheld : Below 4 held) (id : String) :
    (Registry.disconnectId id).Computes ((socketSystem reuse).recording record) held (s, η)
      (s.registry.disconnectId id).1 (s.setRegistry (s.registry.disconnectId id).2, η) := by
  have hinner := hheld.cons (l := .sharedRegistry) (m := .exclusive) (by decide)
  refine Computes.locked (hheld.grants (by decide)) ?_
  exact computes_modifyConfig hrecord hinner _ (computes_getConfigId hrecord hinner id)

theorem computes_isConnectedSocket (hheld : Below 4 held) :
    (Registry.isConnectedSocket x).Computes ((socketSystem reuse).recording record) held (s, η)
      (s.registry.isConnectedSocket x) (s, η) := by
  have hinner := hheld.cons (l := .sharedRegistry) (m := .shared) (by decide)
  have hread : s.registry.isConnectedSocket x =
      ((s.registry.getConfigSocket x).map fun config => config.connected).getD false := by
    rw [BratislavaSocketRegistry.isConnectedSocket]
    cases s.registry.getConfigSocket x <;> rfl
  rw [hread]
  exact Computes.locked (hheld.grants (by decide))
    (computes_readConfig (computes_getConfigSocket hrecord hinner))

/-- A getter of an attribute of a device leaves everything as it was. -/
theorem computes_getAttribute (hheld : Below 4 held) (id : String) (default : α)
    (field : BratislavaSocketConfig → α) :
    (locked .sharedRegistry .shared
      (Registry.readConfig (Registry.getConfigId id) default field)).Computes
      ((socketSystem reuse).recording record) held (s, η)
      (((s.registry.getConfigId id).map field).getD default) (s, η) := by
  have hinner := hheld.cons (l := .sharedRegistry) (m := .shared) (by decide)
  exact Computes.locked (hheld.grants (by decide))
    (computes_readConfig (computes_getConfigId hrecord hinner id))

theorem computes_addLocalPort (hheld : Below 4 held) (id : String) :
    (Registry.addLocalPort id).Computes ((socketSystem reuse).recording record) held (s, η)
      (s.registry.addLocalPort id).1 (s.setRegistry (s.registry.addLocalPort id).2, η) := by
  have hinner := hheld.cons (l := .sharedRegistry) (m := .exclusive) (by decide)
  refine Computes.locked (hheld.grants (by decide)) ?_
  have hacquire : Registry.acquireLocalPort.Computes ((socketSystem reuse).recording record)
      ((.sharedRegistry, .exclusive) :: held) (s, η) s.registry.acquireLocalPort.1
      (s.setRegistry s.registry.acquireLocalPort.2, η) :=
    Computes.locked (hinner.grants (by decide))
      (computes_act hrecord .acquireLocalPort trivial fun _ => rfl)
  refine hacquire.ends ?_
  rw [BratislavaSocketRegistry.addLocalPort]
  generalize s.registry.acquireLocalPort = acquired
  obtain ⟨port, r⟩ := acquired
  by_cases hport : port = -1
  · simp only [hport, ne_eq, not_true_eq_false, if_false]
    exact computes_pure _ _ _
  · simp only [hport, ne_eq, not_false_eq_true, if_true]
    exact computes_modifyConfig (s := s.setRegistry r) hrecord hinner _
      (computes_getConfigId hrecord hinner id)

theorem computes_releaseLocalPortSocket (hheld : Below 4 held) :
    (Registry.releaseLocalPortSocket x).Computes ((socketSystem reuse).recording record) held (s, η)
      (s.registry.releaseLocalPortSocket x).1
      (s.setRegistry (s.registry.releaseLocalPortSocket x).2, η) := by
  have hinner := hheld.cons (l := .sharedRegistry) (m := .exclusive) (by decide)
  refine Computes.locked (hheld.grants (by decide)) ?_
  refine (computes_getConfigSocket hrecord hinner).ends ?_
  rw [BratislavaSocketRegistry.releaseLocalPortSocket]
  cases s.registry.getConfigSocket x with
  | none => exact computes_pure _ _ _
  | some config =>
    show Computes _ (if config.localPort = -1 then _ else _) _ _ _ _
    rw [BratislavaSocketRegistry.releaseLocalPortOf]
    split
    · exact computes_pure _ _ _
    · exact Computes.locked (hinner.grants (by decide))
        (computes_act hrecord (.releaseLocalPort config.localPort) trivial fun _ => rfl)

theorem computes_existsSocket :
    (Registry.existsSocket x).Computes ((socketSystem reuse).recording record) held (s, η)
      (s.registry.existsSocket x) (s, η) :=
  Computes.locked grants_recursive (computes_act hrecord (.findSocket x) trivial fun _ => rfl)

theorem computes_removeConfig (hheld : Below 5 held) :
    (Registry.removeConfig x).Computes ((socketSystem reuse).recording record) held (s, η) ()
      (s.setRegistry (s.registry.removeConfig x), η) :=
  Computes.locked (hheld.grants (by decide))
    (computes_act hrecord (.removeConfig x) trivial fun _ => rfl)

/-- The whole of `Remove`, for a registered socket. -/
theorem computes_remove (hheld : Below 4 held) (hx : x ∈ s.registry.sockets) :
    (Registry.remove x).Computes ((socketSystem reuse).recording record) held (s, η) true
      ({ s.setRegistry (s.registry.remove x).2 with removed := x :: s.removed }, η) := by
  have hinner : Below 4 ((.recursive, .exclusive) :: held) := by
    intro l hl
    rcases List.mem_cons.mp hl with rfl | hl
    · decide
    · exact hheld l hl
  have hfound : s.registry.existsSocket x = true := decide_eq_true hx
  refine Computes.locked grants_recursive ?_
  refine (computes_act hrecord (.findSocket x) trivial fun _ => rfl).ends ?_
  rw [hfound, if_pos rfl]
  refine (computes_releaseLocalPortSocket hrecord hinner).ends ?_
  refine (computes_disconnectSocket hrecord hinner).ends ?_
  refine (computes_removeConfig hrecord (hinner.mono (by decide))).ends ?_
  refine (computes_act hrecord (.eraseSocket x) trivial fun _ => rfl).ends ?_
  simp only [BratislavaSocketRegistry.remove, if_pos hx]
  exact computes_pure _ _ _

end SensorLib
