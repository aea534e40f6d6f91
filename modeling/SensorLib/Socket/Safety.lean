import SensorLib.Registry.Sharing
import SensorLib.Socket.Handles

/-! # The discipline of handles is sound

What threads know stays true whatever the others do, as long as every thread
keeps to the discipline.
-/

namespace SensorLib

open Threads

namespace SharedState

variable {s s' : SharedState} {x y : SocketPtr}

theorem adapterOf_isSome_mem (h : (s.adapterOf x).isSome) : x ∈ s.heap := by
  rw [← Finmap.lookup_isSome]
  unfold adapterOf at h
  cases hlookup : s.heap.lookup x with
  | none => simp [hlookup] at h
  | some b => rfl

/-- The same handles are registered, allocated and deleted, and the same ones have adapters. -/
structure SameHandles (s s' : SharedState) : Prop where
  sockets : s'.registry.sockets = s.registry.sockets
  adapters : ∀ x, (s'.adapterOf x).isSome = (s.adapterOf x).isSome
  heap : ∀ x, x ∈ s'.heap ↔ x ∈ s.heap
  used : s'.used = s.used
  removed : s'.removed = s.removed
  deleted : s'.deleted = s.deleted

theorem SameHandles.refl (s : SharedState) : SameHandles s s :=
  ⟨rfl, fun _ => rfl, fun _ => Iff.rfl, rfl, rfl, rfl⟩

theorem SameHandles.setRegistry {r : BratislavaSocketRegistry}
    (h : r.sockets = s.registry.sockets) : SameHandles s (s.setRegistry r) :=
  ⟨h, fun _ => rfl, fun _ => Iff.rfl, rfl, rfl, rfl⟩

end SharedState

/-- The acts that change neither which handles there are nor which have adapters. -/
def SocketAct.Plain : SocketAct → Prop
  | .pushSocket _ | .eraseSocket _ | .newSocket _ | .deleteAdapter _ | .deleteSocket _ => False
  | _ => True

namespace SharedState

variable {s s' : SharedState}

theorem sameHandles_adapter {reuse : Bool} {bsock : SocketPtr} {act : AdapterAct} {e : Choice}
    {x : act.Answer} (h : s.exec reuse (.adapter bsock act) e = some (x, s')) :
    SameHandles s s' := by
  simp only [exec] at h
  split at h
  · rename_i link a hlookup
    obtain ⟨⟨answer, a', fds⟩, hexec, hs⟩ := Option.map_eq_some_iff.mp h
    cases hs
    refine ⟨rfl, fun y => ?_, fun y => ?_, rfl, rfl, rfl⟩
    · by_cases hy : y = bsock
      · subst hy
        simp [adapterOf, insertSocket, hlookup]
      · simp [adapterOf, insertSocket, hy]
    · have hmem : bsock ∈ s.heap := Finmap.mem_of_lookup_eq_some hlookup
      simp only [insertSocket, Finmap.mem_insert]
      constructor
      · rintro (rfl | hy)
        · exact hmem
        · exact hy
      · exact Or.inr
  · cases h

/-- A plain act leaves the handles alone. -/
theorem SameHandles.of_exec {reuse : Bool} {act : SocketAct} {e : Choice} {x : act.Answer}
    (hplain : act.Plain) (h : s.exec reuse act e = some (x, s')) : SameHandles s s' := by
  cases act with
  | pushSocket | eraseSocket | newSocket | deleteAdapter | deleteSocket => exact hplain.elim
  | adapter bsock act => exact sameHandles_adapter h
  | findSocket | lastSocket | getConfigSocket | getConfigId | turn =>
    cases h
    exact .refl s
  | updateConfig | removeConfig | removeUnusedConfig | acquireLocalPort | releaseLocalPort =>
    cases h
    exact .setRegistry (by simp)
  | createConfigSocket | createConfigId =>
    simp only [exec] at h
    split at h
    · cases h
    · cases h
      exact .setRegistry (by simp)
  | readLink | hasAdapter =>
    obtain ⟨b, _, hs⟩ := Option.map_eq_some_iff.mp h
    cases hs
    exact .refl s

end SharedState

/-! ## Names of locks -/

section Locks

variable {h : Locks} {l k : Mutex} {m : Mode} {x : SocketPtr}

theorem mem_lockNames_of_mem (hl : (l, m) ∈ h) : l ∈ lockNames h :=
  List.mem_map_of_mem (f := Prod.fst) hl

theorem mem_lockNames : l ∈ lockNames h ↔ ∃ m, (l, m) ∈ h := by
  simp [lockNames]

@[simp] theorem lockNames_nil : lockNames [] = [] := rfl

@[simp] theorem lockNames_cons : lockNames ((l, m) :: h) = l :: lockNames h := rfl

theorem lockNames_erase (hl : l ∈ lockNames (h.erase (k, m))) : l ∈ lockNames h := by
  obtain ⟨m', hm'⟩ := mem_lockNames.mp hl
  exact mem_lockNames_of_mem (List.mem_of_mem_erase hm')

theorem mem_lockNames_erase_of_ne (hne : l ≠ k) (hl : l ∈ lockNames h) :
    l ∈ lockNames (h.erase (k, m)) := by
  obtain ⟨m', hm'⟩ := mem_lockNames.mp hl
  refine mem_lockNames_of_mem ((List.mem_erase_of_ne ?_).mpr hm')
  intro heq
  exact hne (congrArg Prod.fst heq)

theorem Justified.cons (hx : Justified h x) : Justified ((l, m) :: h) x := by
  rcases hx with hx | hx | hx
  · exact Or.inl (List.mem_cons_of_mem _ hx)
  · exact Or.inr (Or.inl (List.mem_cons_of_mem _ hx))
  · exact Or.inr (Or.inr (List.mem_cons_of_mem _ hx))

abbrev Excludes (H : Tid → Locks) : Prop := Discipline.Excludes (S := socketSignature) H

theorem excludes_names {H : Tid → Locks} (hex : Excludes H) {t u : Tid}
    (ht : (l, .exclusive) ∈ H t) (hu : l ∈ lockNames (H u)) : u = t := by
  obtain ⟨m', hm'⟩ := mem_lockNames.mp hu
  exact hex t u l m' ht hm'

end Locks

namespace Handles

/-- What one thread knows is true. -/
structure Holds (s : SharedState) (h : Locks) (g : Knowledge) : Prop where
  known : ∀ x, g.known = some x → x ∈ s.registry.sockets ∧ Justified h x
  pinned : ∀ x, .sharedBsock x ∈ lockNames h →
    (.bsockDeletion, .exclusive) ∈ h ∨ g.known = some x
  exclusive : ∀ m, (.recursive, m) ∈ h → m = .exclusive
  fresh : ∀ x, g.fresh = some x → x ∉ s.registry.sockets ∧ (s.adapterOf x).isSome ∧
    (.bsockCreation, .exclusive) ∈ h ∧ .bsockDeletion ∈ lockNames h
  owned : ∀ x b, g.owned = some (x, b) → x ∉ s.registry.sockets ∧ x ∈ s.heap ∧
    (b = false → (s.adapterOf x).isSome) ∧ (.bsockDeletion, .exclusive) ∈ h

/-- What is true of the handles of the past where no address is used twice. -/
structure Past (s : SharedState) : Prop where
  heapUsed : ∀ x ∈ s.heap, x ∈ s.used
  removedUsed : ∀ x ∈ s.removed, x ∈ s.used
  removedOut : ∀ x ∈ s.removed, x ∉ s.registry.sockets
  deletedUsed : ∀ x ∈ s.deleted, x ∈ s.used
  deletedDead : ∀ x ∈ s.deleted, x ∉ s.heap
  deletedNodup : s.deleted.Nodup

structure History (s : SharedState) (G : Tid → Knowledge) : Prop where
  past : Past s
  removedGone : ∀ x ∈ s.removed, x ∈ s.deleted ∨ ∃ t b, (G t).owned = some (x, b)
  seen : ∀ t x, (G t).seen = some x → x ∈ s.registry.sockets ∨ x ∈ s.removed
  gone : ∀ t x, (G t).seen = some x → (G t).gone = true → x ∈ s.deleted

structure Safe (reuse : Bool) (s : SharedState) (H : Tid → Locks) (G : Tid → Knowledge) :
    Prop where
  nodup : s.registry.sockets.Nodup
  live : ∀ x ∈ s.registry.sockets, (s.adapterOf x).isSome
  thread : ∀ t, Holds s (H t) (G t)
  history : reuse = false → History s G

/-- In `strict` runs `bratislavaDestroy` takes the deletion lock for good while its handle is
still registered. -/
def Returns (strict : Bool) (s : SharedState) (f : Call) (i : Instr socketSignature) : Prop :=
  strict = true → ∀ x, f = .bratislavaDestroy (some x) → i = .lock .bsockDeletion .exclusive →
    x ∈ s.registry.sockets

variable {reuse strict : Bool} {s s' : SharedState} {H : Tid → Locks} {G G' : Tid → Knowledge}
  {t u : Tid} {h : Locks} {g g' : Knowledge} {x : SocketPtr}

theorem Holds.of_same (hs : s.SameHandles s') (hg : Holds s h g) : Holds s' h g where
  known x hx := hs.sockets ▸ hg.known x hx
  pinned := hg.pinned
  exclusive := hg.exclusive
  fresh x hx := by
    rw [hs.sockets, hs.adapters]
    exact hg.fresh x hx
  owned x b hx := by
    rw [hs.sockets, hs.adapters, hs.heap]
    exact hg.owned x b hx

theorem Past.of_same (hs : s.SameHandles s') (hpast : Past s) : Past s' where
  heapUsed x hx := hs.used ▸ hpast.heapUsed x ((hs.heap x).mp hx)
  removedUsed x hx := hs.used ▸ hpast.removedUsed x (hs.removed ▸ hx)
  removedOut x hx := hs.sockets ▸ hpast.removedOut x (hs.removed ▸ hx)
  deletedUsed x hx := hs.used ▸ hpast.deletedUsed x (hs.deleted ▸ hx)
  deletedDead x hx := fun hmem => hpast.deletedDead x (hs.deleted ▸ hx) ((hs.heap x).mp hmem)
  deletedNodup := hs.deleted ▸ hpast.deletedNodup

/-- The knowledge of one thread changes with the state. -/
theorem History.update (hG : History s G) (hpast : Past s')
    (hremoved : ∀ y ∈ s'.removed, y ∈ s'.deleted ∨ (∃ b, g'.owned = some (y, b)) ∨
      ∃ u, u ≠ t ∧ ∃ b, (G u).owned = some (y, b))
    (hkept : ∀ y, y ∈ s.registry.sockets ∨ y ∈ s.removed →
      y ∈ s'.registry.sockets ∨ y ∈ s'.removed)
    (hdeleted : ∀ y ∈ s.deleted, y ∈ s'.deleted)
    (hseen : g'.seen = (G t).seen)
    (hgone : ∀ y, (G t).seen = some y → g'.gone = true → (G t).gone = true ∨ y ∈ s'.deleted) :
    History s' (Function.update G t g') where
  past := hpast
  removedGone y hy := by
    rcases hremoved y hy with hdel | ⟨b, hown⟩ | ⟨u, hu, b, hown⟩
    · exact Or.inl hdel
    · exact Or.inr ⟨t, b, by rwa [Function.update_self]⟩
    · exact Or.inr ⟨u, b, by rwa [Function.update_of_ne hu]⟩
  seen u y hy := by
    by_cases hu : u = t
    · subst hu
      rw [Function.update_self, hseen] at hy
      exact hkept y (hG.seen u y hy)
    · rw [Function.update_of_ne hu] at hy
      exact hkept y (hG.seen u y hy)
  gone u y hy hg := by
    by_cases hu : u = t
    · subst hu
      rw [Function.update_self] at hy hg
      rw [hseen] at hy
      rcases hgone y hy hg with hg | hdel
      · exact hdeleted y (hG.gone u y hy hg)
      · exact hdel
    · rw [Function.update_of_ne hu] at hy hg
      exact hdeleted y (hG.gone u y hy hg)

/-- The handles stay as they are, and one thread owns what it owned. -/
theorem History.learn (hG : History s G) (hs : s.SameHandles s')
    (howned : g'.owned = (G t).owned) (hseen : g'.seen = (G t).seen)
    (hgone : ∀ y, (G t).seen = some y → g'.gone = true → (G t).gone = true ∨ y ∈ s.deleted) :
    History s' (Function.update G t g') := by
  refine hG.update (hG.past.of_same hs) (fun y hy => ?_) (fun y hy => ?_)
    (fun y hy => hs.deleted ▸ hy) hseen (hs.deleted ▸ hgone)
  · rw [hs.removed] at hy
    rw [hs.deleted]
    rcases hG.removedGone y hy with hdel | ⟨u, b, hown⟩
    · exact Or.inl hdel
    · by_cases hu : u = t
      · subst hu
        exact Or.inr (Or.inl ⟨b, howned ▸ hown⟩)
      · exact Or.inr (Or.inr ⟨u, hu, b, hown⟩)
  · rwa [hs.sockets, hs.removed]

theorem threads_update {H : Tid → Locks} (ht : Holds s' (H t) g')
    (hu : ∀ u, u ≠ t → Holds s' (H u) (G u)) (u : Tid) :
    Holds s' (H u) (Function.update G t g' u) := by
  by_cases hut : u = t
  · subst hut
    rwa [Function.update_self]
  · rw [Function.update_of_ne hut]
    exact hu u hut

/-- One thread learns, the handles stay as they are. -/
theorem Safe.learn (hsafe : Safe reuse s H G) (hs : s.SameHandles s')
    (hg : Holds s' (H t) g') (howned : g'.owned = (G t).owned) (hseen : g'.seen = (G t).seen)
    (hgone : reuse = false → ∀ y, (G t).seen = some y → g'.gone = true →
      (G t).gone = true ∨ y ∈ s.deleted) :
    Safe reuse s' H (Function.update G t g') where
  nodup := hs.sockets ▸ hsafe.nodup
  live x hx := by
    rw [hs.adapters]
    exact hsafe.live x (hs.sockets ▸ hx)
  thread := threads_update hg fun u _ => (hsafe.thread u).of_same hs
  history hreuse := (hsafe.history hreuse).learn hs howned hseen (hgone hreuse)

/-- Nobody learns. -/
theorem Safe.of_same (hsafe : Safe reuse s H G) (hs : s.SameHandles s') : Safe reuse s' H G := by
  have hg : Holds s' (H 0) (G 0) := (hsafe.thread 0).of_same hs
  have h := hsafe.learn hs hg rfl rfl fun _ _ _ hgone => Or.inl hgone
  rwa [Function.update_eq_self] at h

/-! ## Starts and locks -/

theorem Safe.start (hsafe : Safe reuse s H G) (hheld : H t = []) (f : Call) :
    Safe reuse s H (Function.update G t (initial f s)) where
  nodup := hsafe.nodup
  live := hsafe.live
  thread u := by
    by_cases hu : u = t
    · subst hu
      rw [Function.update_self, hheld]
      unfold initial
      split <;> exact ⟨by simp, by simp, by simp, by simp, by simp⟩
    · rw [Function.update_of_ne hu]
      exact hsafe.thread u
  history hreuse := by
    have hG := hsafe.history hreuse
    have hidle : (G t).owned = none := by
      cases hown : (G t).owned with
      | none => rfl
      | some xb =>
        have hx := (hsafe.thread t).owned xb.1 xb.2 hown
        rw [hheld] at hx
        exact absurd hx.2.2.2 List.not_mem_nil
    have hinit : (initial f s).owned = none ∧ (initial f s).gone = false ∧
        ∀ x, (initial f s).seen = some x → x ∈ s.registry.sockets := by
      unfold initial
      split
      · refine ⟨rfl, rfl, fun x hx => ?_⟩
        simp only [Option.ite_none_right_eq_some, Option.some.injEq] at hx
        obtain ⟨hmem, rfl⟩ := hx
        exact hmem
      · exact ⟨rfl, rfl, fun x hx => by cases hx⟩
    refine ⟨hG.past, fun x hx => ?_, fun u x hx => ?_, fun u x hx hgone => ?_⟩
    · rcases hG.removedGone x hx with hdel | ⟨u, b, hown⟩
      · exact Or.inl hdel
      · have hu : u ≠ t := by
          rintro rfl
          rw [hidle] at hown
          cases hown
        exact Or.inr ⟨u, b, by rwa [Function.update_of_ne hu]⟩
    · by_cases hu : u = t
      · subst hu
        rw [Function.update_self] at hx
        exact Or.inl (hinit.2.2 x hx)
      · rw [Function.update_of_ne hu] at hx
        exact hG.seen u x hx
    · by_cases hu : u = t
      · subst hu
        rw [Function.update_self, hinit.2.1] at hgone
        cases hgone
      · rw [Function.update_of_ne hu] at hx hgone
        exact hG.gone u x hx hgone

/-- One thread takes or releases a lock, and the handles stay as they are. -/
theorem Safe.relock (hsafe : Safe reuse s H G) {h' : Locks} (hg : Holds s h' g')
    (howned : g'.owned = (G t).owned) (hseen : g'.seen = (G t).seen)
    (hgone : g'.gone = (G t).gone) :
    Safe reuse s (Function.update H t h') (Function.update G t g') where
  nodup := hsafe.nodup
  live := hsafe.live
  thread u := by
    by_cases hu : u = t
    · subst hu
      rwa [Function.update_self, Function.update_self]
    · rw [Function.update_of_ne hu, Function.update_of_ne hu]
      exact hsafe.thread u
  history hreuse := (hsafe.history hreuse).learn (.refl s) howned hseen
    fun _ _ hg => Or.inl (hgone ▸ hg)

/-- Taking a lock only adds to what justifies. -/
theorem Holds.cons (hg : Holds s h g) {l : Mutex} {m : Mode}
    (hl : ∀ x, l = .sharedBsock x → (.bsockDeletion, .exclusive) ∈ h ∨ g.known = some x)
    (hm : l = .recursive → m = .exclusive) : Holds s ((l, m) :: h) g where
  known x hx := ⟨(hg.known x hx).1, (hg.known x hx).2.cons⟩
  pinned x hx := by
    rcases List.mem_cons.mp hx with heq | hx
    · exact (hl x heq.symm).imp_left (List.mem_cons_of_mem _)
    · exact (hg.pinned x hx).imp_left (List.mem_cons_of_mem _)
  exclusive m' hm' := by
    rcases List.mem_cons.mp hm' with heq | hm'
    · cases heq
      exact hm rfl
    · exact hg.exclusive m' hm'
  fresh x hx := by
    obtain ⟨hout, hlive, hc, hd⟩ := hg.fresh x hx
    exact ⟨hout, hlive, List.mem_cons_of_mem _ hc, List.mem_cons_of_mem _ hd⟩
  owned x b hx := by
    obtain ⟨hout, hmem, hlive, hd⟩ := hg.owned x b hx
    exact ⟨hout, hmem, hlive, List.mem_cons_of_mem _ hd⟩

theorem locked_eq (strict : Bool) (f : Call) (g : Knowledge) (l : Mutex) (m : Mode) :
    locked strict f g l m = g ∨ ∃ x, strict = true ∧ f = .bratislavaDestroy (some x) ∧
      l = .bsockDeletion ∧ m = .exclusive ∧
      locked strict f g l m = { g with known := some x } := by
  unfold locked
  split
  · exact Or.inr ⟨_, rfl, rfl, rfl, rfl, rfl⟩
  · exact Or.inl rfl

theorem Safe.lock (hsafe : Safe reuse s H G) {f : Call} {l : Mutex} {m : Mode}
    (hret : Returns strict s f (.lock l m)) (hmay : MayLock strict (H t) (G t) l m) :
    Safe reuse s (Function.update H t ((l, m) :: H t))
      (Function.update G t (locked strict f (G t) l m)) := by
  have hg := hsafe.thread t
  have hcons : Holds s ((l, m) :: H t) (G t) :=
    hg.cons (fun x hx => ((hmay.2 x hx).imp_right And.right).symm) hmay.1.exclusive
  rcases locked_eq strict f (G t) l m with heq | ⟨x, hstrict, rfl, rfl, rfl, heq⟩
  · rw [heq]
    exact hsafe.relock hcons rfl rfl rfl
  · rw [heq]
    refine hsafe.relock ⟨?_, ?_, hcons.exclusive, hcons.fresh, hcons.owned⟩ rfl rfl rfl
    · rintro y ⟨⟩
      exact ⟨hret hstrict x rfl rfl, Or.inl List.mem_cons_self⟩
    · exact fun y _ => Or.inl List.mem_cons_self

theorem Holds.erase (hg : Holds s h g) {l : Mutex} {m : Mode} (hmay : MayUnlock strict h g l) :
    Holds s (h.erase (l, m)) (unlocked h g l m) where
  known x hx := by
    obtain ⟨hknown, hjust⟩ := Option.filter_eq_some_iff.mp hx
    exact ⟨(hg.known x hknown).1, of_decide_eq_true hjust⟩
  pinned x hx := by
    have hknown (hk : g.known = some x) : (unlocked h g l m).known = some x :=
      Option.filter_eq_some_iff.mpr ⟨hk, decide_eq_true (Or.inr (Or.inr hx))⟩
    by_cases hl : l = .bsockDeletion
    · exact Or.inr (hknown (hmay.pinned hl x (lockNames_erase hx)))
    · rcases hg.pinned x (lockNames_erase hx) with hd | hk
      · refine Or.inl ((List.mem_erase_of_ne fun heq => ?_).mpr hd)
        exact hl (congrArg Prod.fst heq).symm
      · exact Or.inr (hknown hk)
  exclusive m' hm' := hg.exclusive m' (List.mem_of_mem_erase hm')
  fresh x hx := by
    obtain ⟨hout, hlive, hc, hd⟩ := hg.fresh x hx
    have hl : ¬(l = .bsockDeletion ∨ l = .bsockCreation) := fun hl => by
      have hnone := (hmay.nothingOpen hl).2
      rw [show g.fresh = some x from hx] at hnone
      cases hnone
    rw [not_or] at hl
    refine ⟨hout, hlive, (List.mem_erase_of_ne fun heq => ?_).mpr hc,
      mem_lockNames_erase_of_ne (Ne.symm hl.1) hd⟩
    exact hl.2 (congrArg Prod.fst heq).symm
  owned x b hx := by
    obtain ⟨hout, hmem, hlive, hd⟩ := hg.owned x b hx
    have hl : l ≠ .bsockDeletion := fun hl => by
      have hnone := (hmay.nothingOpen (Or.inl hl)).1
      rw [show g.owned = some (x, b) from hx] at hnone
      cases hnone
    refine ⟨hout, hmem, hlive, (List.mem_erase_of_ne fun heq => ?_).mpr hd⟩
    exact hl (congrArg Prod.fst heq).symm

/-! ## Acts -/

theorem Safe.find (hsafe : Safe reuse s H G) (hex : Excludes H)
    (hmay : .recursive ∈ lockNames (H t) ∧ NoPin (H t) ∧ (G t).owned = none) :
    ((G t).known = some x → s.registry.existsSocket x = true) ∧
      Safe reuse s H (Function.update G t
        (acted (H t) (G t) (.findSocket x) (s.registry.existsSocket x))) := by
  have hg := hsafe.thread t
  obtain ⟨hrec, hpin, hown⟩ := hmay
  refine ⟨fun hk => decide_eq_true (hg.known x hk).1, ?_⟩
  have hknow (hx : x ∈ s.registry.sockets) : Holds s (H t) { G t with known := some x } := by
    refine ⟨?_, fun y hy => ?_, hg.exclusive, hg.fresh, hg.owned⟩
    · rintro y ⟨⟩
      exact ⟨hx, Or.inr (Or.inl hrec)⟩
    · rcases hpin with hd | hnone
      · exact Or.inl hd
      · exact absurd hy (hnone y)
  simp only [acted]
  split
  · rename_i hfound
    have hx := of_decide_eq_true hfound
    exact hsafe.learn (.refl s) (hknow hx) rfl rfl fun _ _ _ hg => Or.inl hg
  · rename_i hmissed
    have hx : x ∉ s.registry.sockets := fun hx => hmissed (decide_eq_true hx)
    split
    · rename_i hseen
      refine hsafe.learn (.refl s) ⟨hg.known, hg.pinned, hg.exclusive, hg.fresh, hg.owned⟩ rfl
        rfl ?_
      intro hreuse y hy _
      cases hseen.1.symm.trans hy
      have hG := hsafe.history hreuse
      -- The one that took it out would hold the deletion lock, which this thread holds.
      rcases (hG.seen t x hy).resolve_left hx |> hG.removedGone x with hdel | ⟨u, b, hu⟩
      · exact Or.inr hdel
      · obtain rfl := excludes_names hex ((hsafe.thread u).owned x b hu).2.2.2 hseen.2
        rw [hown] at hu
        cases hu
    · rwa [Function.update_eq_self]

theorem Safe.last (hsafe : Safe reuse s H G)
    (hmay : .recursive ∈ lockNames (H t) ∧ NoPin (H t) ∧ (G t).owned = none) :
    Safe reuse s H (Function.update G t
      (acted (H t) (G t) .lastSocket s.registry.sockets.getLast?)) := by
  have hg := hsafe.thread t
  obtain ⟨hrec, hpin, -⟩ := hmay
  cases hlast : s.registry.sockets.getLast? with
  | none => simpa only [acted, Function.update_eq_self] using hsafe
  | some x =>
    refine hsafe.learn (.refl s) ⟨?_, fun y hy => ?_, hg.exclusive, hg.fresh, hg.owned⟩ rfl rfl
      fun _ _ _ hg => Or.inl hg
    · rintro y ⟨⟩
      exact ⟨List.mem_of_getLast? hlast, Or.inr (Or.inl hrec)⟩
    · rcases hpin with hd | hnone
      · exact Or.inl hd
      · exact absurd hy (hnone y)

/-- What a thread knows survives a change that spares its handles. -/
theorem Holds.transfer (hg : Holds s h g)
    (hknown : ∀ y, g.known = some y → y ∈ s'.registry.sockets)
    (hfresh : ∀ y, g.fresh = some y → y ∉ s'.registry.sockets ∧ (s'.adapterOf y).isSome)
    (howned : ∀ y b, g.owned = some (y, b) → y ∉ s'.registry.sockets ∧ y ∈ s'.heap ∧
      (b = false → (s'.adapterOf y).isSome)) : Holds s' h g where
  known y hy := ⟨hknown y hy, (hg.known y hy).2⟩
  pinned := hg.pinned
  exclusive := hg.exclusive
  fresh y hy := ⟨(hfresh y hy).1, (hfresh y hy).2, (hg.fresh y hy).2.2⟩
  owned y b hy :=
    ⟨(howned y b hy).1, (howned y b hy).2.1, (howned y b hy).2.2, (hg.owned y b hy).2.2.2⟩

/-- Two threads do not both hold the creation lock. -/
theorem Safe.fresh_unique (hsafe : Safe reuse s H G) (hex : Excludes H)
    {y : SocketPtr} (ht : (G t).fresh = some x) (hu : (G u).fresh = some y) : u = t :=
  hex t u _ _ ((hsafe.thread t).fresh x ht).2.2.1 ((hsafe.thread u).fresh y hu).2.2.1

/-- What a thread owns is not what another one is making. -/
theorem Safe.fresh_owned (hsafe : Safe reuse s H G) (hex : Excludes H)
    {y : SocketPtr} {b : Bool} (ht : (G t).fresh = some x) (hu : (G u).owned = some (y, b)) :
    t = u :=
  excludes_names hex ((hsafe.thread u).owned y b hu).2.2.2 ((hsafe.thread t).fresh x ht).2.2.2

theorem Safe.owned_unique (hsafe : Safe reuse s H G) (hex : Excludes H)
    {y : SocketPtr} {b c : Bool} (ht : (G t).owned = some (x, b))
    (hu : (G u).owned = some (y, c)) : u = t :=
  hex t u _ _ ((hsafe.thread t).owned x b ht).2.2.2 ((hsafe.thread u).owned y c hu).2.2.2

/-- Where a thread owns nothing, what was removed is deleted or owned by another. -/
theorem Safe.removed_owned (hsafe : Safe reuse s H G) (hown : (G t).owned = none)
    (hreuse : reuse = false) : ∀ y ∈ s.removed, y ∈ s.deleted ∨ (∃ b, g'.owned = some (y, b)) ∨
      ∃ u, u ≠ t ∧ ∃ b, (G u).owned = some (y, b) := by
  intro y hy
  rcases (hsafe.history hreuse).removedGone y hy with hdel | ⟨u, b, hu⟩
  · exact Or.inl hdel
  · refine Or.inr (Or.inr ⟨u, ?_, b, hu⟩)
    rintro rfl
    exact absurd (hown.symm.trans hu) (by simp)

theorem Safe.push (hsafe : Safe reuse s H G) (hex : Excludes H)
    (hmay : (G t).fresh = some x ∧ NoPin (H t) ∧ (G t).owned = none) :
    Safe reuse (s.setRegistry { s.registry with sockets := s.registry.sockets ++ [x] }) H
      (Function.update G t { G t with fresh := none, known := some x }) := by
  have hg := hsafe.thread t
  obtain ⟨hfresh, hpin, hown⟩ := hmay
  obtain ⟨hout, hlive, hcreate, hdel⟩ := hg.fresh x hfresh
  have hmem {y : SocketPtr} : y ∈ s.registry.sockets ++ [x] ↔ y ∈ s.registry.sockets ∨ y = x := by
    rw [List.mem_append, List.mem_singleton]
  refine ⟨?_, fun y hy => ?_, threads_update ?_ fun u hu => ?_, fun hreuse => ?_⟩
  · exact List.nodup_append'.mpr ⟨hsafe.nodup, List.nodup_singleton x,
      fun y hy hyx => hout (List.mem_singleton.mp hyx ▸ hy)⟩
  · rcases hmem.mp hy with hy | rfl
    · exact hsafe.live y hy
    · exact hlive
  · refine ⟨?_, fun y hy => ?_, hg.exclusive, fun y hy => (by cases hy), fun y b hy => ?_⟩
    · rintro y ⟨⟩
      exact ⟨hmem.mpr (Or.inr rfl), Or.inl hdel⟩
    · rcases hpin with hd | hnone
      · exact Or.inl hd
      · exact absurd hy (hnone y)
    · exact absurd (hown.symm.trans hy) (by simp)
  · have hgu := hsafe.thread u
    refine hgu.transfer (fun y hy => hmem.mpr (Or.inl (hgu.known y hy).1)) (fun y hy => ?_)
      fun y b hy => ?_
    · exact absurd (hsafe.fresh_unique hex hfresh hy) hu
    · exact absurd (hsafe.fresh_owned hex hfresh hy).symm hu
  · have hG := hsafe.history hreuse
    have hnew : x ∉ s.removed := by
      intro hx
      rcases hG.removedGone x hx with hdeleted | ⟨u, b, hu⟩
      · exact hG.past.deletedDead x hdeleted (SharedState.adapterOf_isSome_mem hlive)
      · cases hsafe.fresh_owned hex hfresh hu
        exact absurd (hown.symm.trans hu) (by simp)
    have hpast := hG.past
    refine hG.update ⟨hpast.heapUsed, hpast.removedUsed, fun y hy hy' => ?_, hpast.deletedUsed,
      hpast.deletedDead, hpast.deletedNodup⟩ (hsafe.removed_owned hown hreuse)
      (fun y hy => hy.imp_left fun hy => hmem.mpr (Or.inl hy)) (fun _ hy => hy) rfl
      fun _ _ hg => Or.inl hg
    rcases hmem.mp hy' with hy' | rfl
    · exact hpast.removedOut y hy hy'
    · exact hnew hy

theorem Safe.erase (hsafe : Safe reuse s H G) (hex : Excludes H)
    (hmay : (.recursive, .exclusive) ∈ H t ∧ (.bsockDeletion, .exclusive) ∈ H t ∧
      (.sharedBsock x, .exclusive) ∈ H t ∧ (G t).known = some x ∧ (G t).owned = none) :
    Safe reuse { s.setRegistry { s.registry with sockets := s.registry.sockets.erase x } with
        removed := x :: s.removed } H
      (Function.update G t { G t with known := none, owned := some (x, false) }) := by
  have hg := hsafe.thread t
  obtain ⟨hrec, hdel, hbsock, hknown, hown⟩ := hmay
  have hx := (hg.known x hknown).1
  have hlive := hsafe.live x hx
  have hmem {y : SocketPtr} : y ∈ s.registry.sockets.erase x ↔ y ≠ x ∧ y ∈ s.registry.sockets :=
    hsafe.nodup.mem_erase_iff
  have hout {y : SocketPtr} (hy : y ∉ s.registry.sockets) : y ∉ s.registry.sockets.erase x :=
    fun h => hy (List.mem_of_mem_erase h)
  refine ⟨hsafe.nodup.erase x, fun y hy => hsafe.live y (List.mem_of_mem_erase hy),
    threads_update ?_ fun u hu => ?_, fun hreuse => ?_⟩
  · refine ⟨fun y hy => (by cases hy), fun _ _ => Or.inl hdel, hg.exclusive, fun y hy => ?_, ?_⟩
    · exact ⟨hout (hg.fresh y hy).1, (hg.fresh y hy).2⟩
    · rintro y b ⟨⟩
      exact ⟨fun h => (hmem.mp h).1 rfl, SharedState.adapterOf_isSome_mem hlive,
        fun _ => hlive, hdel⟩
  · have hgu := hsafe.thread u
    refine hgu.transfer (fun y hy => ?_) (fun y hy => ?_) fun y b hy => ?_
    · -- What justifies another thread's knowledge of `x` is a lock that this thread holds alone.
      obtain ⟨hyin, hjust⟩ := hgu.known y hy
      refine hmem.mpr ⟨fun heq => hu ?_, hyin⟩
      subst heq
      rcases hjust with h | h | h
      · exact excludes_names hex hdel h
      · exact excludes_names hex hrec h
      · exact excludes_names hex hbsock h
    · exact ⟨hout (hgu.fresh y hy).1, (hgu.fresh y hy).2.1⟩
    · obtain ⟨h₁, h₂, h₃, -⟩ := hgu.owned y b hy
      exact ⟨hout h₁, h₂, h₃⟩
  · have hG := hsafe.history hreuse
    have hpast := hG.past
    refine hG.update ⟨hpast.heapUsed, fun y hy => ?_, fun y hy => ?_, hpast.deletedUsed,
      hpast.deletedDead, hpast.deletedNodup⟩ (fun y hy => ?_) (fun y hy => ?_) (fun _ hy => hy)
      rfl fun _ _ hg => Or.inl hg
    · rcases List.mem_cons.mp hy with rfl | hy
      · exact hpast.heapUsed y (SharedState.adapterOf_isSome_mem hlive)
      · exact hpast.removedUsed y hy
    · rcases List.mem_cons.mp hy with rfl | hy
      · exact fun h => (hmem.mp h).1 rfl
      · exact hout (hpast.removedOut y hy)
    · rcases List.mem_cons.mp hy with rfl | hy
      · exact Or.inr (Or.inl ⟨false, rfl⟩)
      · exact hsafe.removed_owned hown hreuse y hy
    · by_cases hyx : y = x
      · exact Or.inr (hyx ▸ List.mem_cons_self)
      · exact hy.imp (fun hy => hmem.mpr ⟨hyx, hy⟩) (List.mem_cons_of_mem _)

theorem adapterOf_congr (h : s'.heap.lookup x = s.heap.lookup x) :
    s'.adapterOf x = s.adapterOf x := by
  unfold SharedState.adapterOf
  rw [h]

/-- A thread's own handles, and the registered ones, keep their objects when a change is made
at another address. -/
theorem Holds.elsewhere (hg : Holds s h g) {a : SocketPtr}
    (hsock : s'.registry.sockets = s.registry.sockets)
    (hheap : ∀ y, y ≠ a → s'.heap.lookup y = s.heap.lookup y)
    (hfresh : g.fresh ≠ some a) (howned : ∀ b, g.owned ≠ some (a, b)) : Holds s' h g := by
  refine hg.transfer (fun y hy => hsock ▸ (hg.known y hy).1) (fun y hy => ?_) fun y b hy => ?_
  · obtain ⟨h₁, h₂, -⟩ := hg.fresh y hy
    have hya : y ≠ a := fun heq => hfresh (heq ▸ hy)
    exact ⟨hsock ▸ h₁, by rwa [adapterOf_congr (hheap y hya)]⟩
  · obtain ⟨h₁, h₂, h₃, -⟩ := hg.owned y b hy
    have hya : y ≠ a := fun heq => howned b (heq ▸ hy)
    refine ⟨hsock ▸ h₁, ?_, by rwa [adapterOf_congr (hheap y hya)]⟩
    rwa [← Finmap.lookup_isSome, hheap y hya, Finmap.lookup_isSome]

theorem lookup_allocate {a y : SocketPtr} {b : BratislavaSocket} {fds : List Int} (hy : y ≠ a) :
    (s.allocate a b fds).heap.lookup y = s.heap.lookup y :=
  Finmap.lookup_insert_of_ne _ hy

/-- A new object at an address that is not in use. -/
theorem Safe.allocate (hsafe : Safe reuse s H G) {a : SocketPtr} {b : BratislavaSocket}
    {fds : List Int} (ha : s.FreshAddress reuse a) (hg : Holds (s.allocate a b fds) (H t) g')
    (howned : g'.owned = (G t).owned) (hseen : g'.seen = (G t).seen)
    (hgone : g'.gone = (G t).gone) :
    Safe reuse (s.allocate a b fds) H (Function.update G t g') := by
  have hnot {y : SocketPtr} (hy : y ∈ s.heap) : y ≠ a := fun heq => ha.1 (heq ▸ hy)
  refine ⟨hsafe.nodup, fun y hy => ?_, threads_update hg fun u _ => ?_, fun hreuse => ?_⟩
  · have hlive := hsafe.live y hy
    have hya := hnot (SharedState.adapterOf_isSome_mem hlive)
    rwa [adapterOf_congr (lookup_allocate hya)]
  · have hgu := hsafe.thread u
    refine hgu.elsewhere rfl (fun _ => lookup_allocate) (fun hy => ?_) fun c hy => ?_
    · exact hnot (SharedState.adapterOf_isSome_mem (hgu.fresh a hy).2.1) rfl
    · exact hnot (hgu.owned a c hy).2.1 rfl
  · have hG := hsafe.history hreuse
    have hpast := hG.past
    have hused {y : SocketPtr} (hy : y ∈ s.used) : y ≠ a := fun heq => ha.2 hreuse (heq ▸ hy)
    refine hG.update ⟨fun y hy => ?_, fun y hy => List.mem_cons_of_mem _ (hpast.removedUsed y hy),
      hpast.removedOut, fun y hy => List.mem_cons_of_mem _ (hpast.deletedUsed y hy),
      fun y hy hmem => ?_, hpast.deletedNodup⟩ (fun y hy => ?_) (fun _ hy => hy)
      (fun _ hy => hy) hseen fun _ _ hg => Or.inl (hgone ▸ hg)
    · rcases Finmap.mem_insert.mp hy with rfl | hy
      · exact List.mem_cons_self
      · exact List.mem_cons_of_mem _ (hpast.heapUsed y hy)
    · rcases Finmap.mem_insert.mp hmem with rfl | hmem
      · exact hused (hpast.deletedUsed y hy) rfl
      · exact hpast.deletedDead y hy hmem
    · rcases hG.removedGone y hy with hdel | ⟨u, c, hown⟩
      · exact Or.inl hdel
      · by_cases hu : u = t
        · subst hu
          exact Or.inr (Or.inl ⟨c, howned ▸ hown⟩)
        · exact Or.inr (Or.inr ⟨u, hu, c, hown⟩)

theorem Safe.new (hsafe : Safe reuse s H G) {link : BratislavaLink} {e : Choice}
    {answer : Option SocketPtr} (h : s.newSocket reuse link e = some (answer, s'))
    (hmay : .bsockDeletion ∈ lockNames (H t) ∧ (.bsockCreation, .exclusive) ∈ H t ∧
      (G t).fresh = none) :
    Safe reuse s' H (Function.update G t (acted (H t) (G t) (.newSocket link) answer)) := by
  have hg := hsafe.thread t
  obtain ⟨hdel, hcreate, hfresh⟩ := hmay
  simp only [SharedState.newSocket] at h
  split at h
  · rename_i ha
    have hkeep (b : BratislavaSocket) (fds : List Int) :
        Holds (s.allocate e.address b fds) (H t) (G t) :=
      hg.elsewhere rfl (fun _ => lookup_allocate) (by simp [hfresh])
        fun c hy => ha.1 (hg.owned _ c hy).2.1
    split at h
    · split at h
      · cases h
        refine hsafe.allocate ha ⟨(hkeep _ _).known, hg.pinned, hg.exclusive, ?_,
          (hkeep _ _).owned⟩ rfl rfl rfl
        rintro y ⟨⟩
        refine ⟨fun hy => ha.1 (SharedState.adapterOf_isSome_mem (hsafe.live _ hy)), ?_, hcreate,
          hdel⟩
        simp [SharedState.adapterOf, SharedState.allocate]
      · cases h
    · cases h
      exact hsafe.allocate ha (hkeep _ _) rfl rfl rfl
  · cases h

/-- The object of a handle that a thread owns is changed or deleted. -/
theorem Safe.dismantle (hsafe : Safe reuse s H G) (hex : Excludes H) {b : Bool}
    (hown : (G t).owned = some (x, b))
    (hsock : s'.registry.sockets = s.registry.sockets)
    (hheap : ∀ y, y ≠ x → s'.heap.lookup y = s.heap.lookup y)
    (hg : Holds s' (H t) g') (hhistory : reuse = false → History s' (Function.update G t g')) :
    Safe reuse s' H (Function.update G t g') := by
  have hg' := hsafe.thread t
  refine ⟨hsock ▸ hsafe.nodup, fun y hy => ?_, threads_update hg fun u hu => ?_, hhistory⟩
  · rw [hsock] at hy
    have hyx : y ≠ x := fun heq => (hg'.owned x b hown).1 (heq ▸ hy)
    rw [adapterOf_congr (hheap y hyx)]
    exact hsafe.live y hy
  · refine (hsafe.thread u).elsewhere hsock hheap (fun hy => hu ?_) fun c hy => hu ?_
    · exact hsafe.fresh_owned hex hy hown
    · exact hsafe.owned_unique hex hown hy

theorem Safe.deleteAdapter (hsafe : Safe reuse s H G) (hex : Excludes H)
    (h : s.deleteAdapter x = some s') (hown : (G t).owned = some (x, false))
    (hfresh : (G t).fresh = none) :
    Safe reuse s' H (Function.update G t { G t with owned := some (x, true) }) := by
  have hg := hsafe.thread t
  obtain ⟨hout, hmem, -, hdel⟩ := hg.owned x false hown
  simp only [SharedState.deleteAdapter] at h
  split at h
  · cases h
    refine hsafe.dismantle hex hown rfl (fun y hy => Finmap.lookup_insert_of_ne _ hy)
      ⟨hg.known, hg.pinned, hg.exclusive, fun y hy => absurd (hfresh.symm.trans hy) (by simp), ?_⟩
      fun hreuse => ?_
    · rintro y b ⟨⟩
      exact ⟨hout, Finmap.mem_insert.mpr (Or.inl rfl), fun hb => (by cases hb), hdel⟩
    · have hG := hsafe.history hreuse
      have hpast := hG.past
      have hheap {y : SocketPtr} {b : BratislavaSocket} :
          y ∈ s.heap.insert x b ↔ y ∈ s.heap := by
        rw [Finmap.mem_insert]
        exact ⟨fun hy => hy.elim (fun heq => heq ▸ hmem) fun hy => hy, Or.inr⟩
      refine hG.update ⟨fun y hy => hpast.heapUsed y (hheap.mp hy), hpast.removedUsed,
        hpast.removedOut, hpast.deletedUsed, fun y hy h => hpast.deletedDead y hy (hheap.mp h),
        hpast.deletedNodup⟩ (fun y hy => ?_) (fun _ hy => hy) (fun _ hy => hy) rfl
        fun _ _ hg => Or.inl hg
      rcases hG.removedGone y hy with hdel | ⟨u, b, hu⟩
      · exact Or.inl hdel
      · by_cases hut : u = t
        · subst hut
          cases hown.symm.trans hu
          exact Or.inr (Or.inl ⟨true, rfl⟩)
        · exact Or.inr (Or.inr ⟨u, hut, b, hu⟩)
  · cases h

theorem Safe.deleteSocket (hsafe : Safe reuse s H G) (hex : Excludes H)
    (h : s.deleteSocket x = some s') (hown : (G t).owned = some (x, true))
    (hfresh : (G t).fresh = none) :
    Safe reuse s' H (Function.update G t
      { G t with owned := none, gone := if (G t).seen = some x then true else (G t).gone }) := by
  have hg := hsafe.thread t
  obtain ⟨hout, hmem, -, hdel⟩ := hg.owned x true hown
  simp only [SharedState.deleteSocket, if_pos hmem, Option.some.injEq] at h
  subst h
  refine hsafe.dismantle hex hown rfl (fun y hy => Finmap.lookup_erase_ne hy)
    ⟨hg.known, hg.pinned, hg.exclusive, fun y hy => absurd (hfresh.symm.trans hy) (by simp),
      fun y b hy => (by cases hy)⟩ fun hreuse => ?_
  have hG := hsafe.history hreuse
  have hpast := hG.past
  refine hG.update ⟨fun y hy => hpast.heapUsed y (Finmap.mem_erase.mp hy).2, hpast.removedUsed,
    hpast.removedOut, fun y hy => ?_, fun y hy h => ?_, ?_⟩ (fun y hy => ?_) (fun _ hy => hy)
    (fun y hy => List.mem_cons_of_mem _ hy) rfl fun y hy hg => ?_
  · rcases List.mem_cons.mp hy with rfl | hy
    · exact hpast.heapUsed y hmem
    · exact hpast.deletedUsed y hy
  · rcases List.mem_cons.mp hy with rfl | hy
    · exact (Finmap.mem_erase.mp h).1 rfl
    · exact hpast.deletedDead y hy (Finmap.mem_erase.mp h).2
  · exact List.nodup_cons.mpr ⟨fun hx => hpast.deletedDead x hx hmem, hpast.deletedNodup⟩
  · rcases hG.removedGone y hy with hdel | ⟨u, b, hu⟩
    · exact Or.inl (List.mem_cons_of_mem _ hdel)
    · by_cases hut : u = t
      · subst hut
        cases hown.symm.trans hu
        exact Or.inl List.mem_cons_self
      · exact Or.inr (Or.inr ⟨u, hut, b, hu⟩)
  · simp only at hg
    split at hg
    · rename_i hseen
      cases hseen.symm.trans hy
      exact Or.inr List.mem_cons_self
    · exact Or.inl hg

/-- The plain acts that teach a thread nothing. -/
theorem Safe.plain (hsafe : Safe reuse s H G) {act : SocketAct} {e : Choice} {x : act.Answer}
    (hexec : s.exec reuse act e = some (x, s')) (hplain : act.Plain)
    (hacted : acted (H t) (G t) act x = G t) :
    Safe reuse s' H (Function.update G t (acted (H t) (G t) act x)) := by
  rw [hacted, Function.update_eq_self]
  exact hsafe.of_same (.of_exec hplain hexec)

theorem Safe.act (hsafe : Safe reuse s H G) (hex : Excludes H) {f : Call}
    {act : SocketAct} {e : Choice} {x : act.Answer} (hmay : MayAct f (H t) (G t) act)
    (hexec : s.exec reuse act e = some (x, s')) :
    Answers (G t) act x ∧
      Safe reuse s' H (Function.update G t (acted (H t) (G t) act x)) := by
  cases act with
  | findSocket y =>
    cases hexec
    exact hsafe.find hex hmay
  | lastSocket =>
    cases hexec
    exact ⟨trivial, hsafe.last hmay⟩
  | pushSocket y =>
    cases hexec
    exact ⟨trivial, hsafe.push hex hmay⟩
  | eraseSocket y =>
    cases hexec
    exact ⟨trivial, hsafe.erase hex hmay⟩
  | newSocket link => exact ⟨trivial, hsafe.new hexec hmay⟩
  | deleteAdapter y =>
    obtain ⟨s₁, h, heq⟩ := Option.map_eq_some_iff.mp hexec
    cases heq
    exact ⟨trivial, hsafe.deleteAdapter hex h hmay.1 hmay.2.1⟩
  | deleteSocket y =>
    obtain ⟨s₁, h, heq⟩ := Option.map_eq_some_iff.mp hexec
    cases heq
    exact ⟨trivial, hsafe.deleteSocket hex h hmay.1 hmay.2⟩
  | hasAdapter y =>
    refine ⟨?_, hsafe.plain hexec trivial rfl⟩
    have hlive := hsafe.live y ((hsafe.thread t).known y hmay).1
    obtain ⟨b, hb, heq⟩ := Option.map_eq_some_iff.mp hexec
    cases heq
    refine decide_eq_true fun hnull => ?_
    obtain ⟨link, adapter⟩ := b
    cases hnull
    simp [SharedState.adapterOf, hb] at hlive
  | getConfigSocket | getConfigId | updateConfig | createConfigSocket | createConfigId
  | removeConfig | removeUnusedConfig | acquireLocalPort | releaseLocalPort | readLink
  | adapter | turn => exact ⟨trivial, hsafe.plain hexec trivial rfl⟩

end Handles

end SensorLib
