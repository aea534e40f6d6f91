import SensorLib.Socket.Pinned
import SensorLib.Socket.Safety

/-! # The functions of the API keep to the discipline -/

namespace SensorLib

open Threads Handles

variable {reuse strict : Bool} {f : Call} {h : Locks} {g : Knowledge} {x : SocketPtr}
  {α : Type}

/-! ## The inner locks of the registry -/

/-- The locks held rank below `n`, and they justify what is known. -/
structure Within (n : Nat) (h : Locks) (g : Knowledge) : Prop where
  below : ∀ l ∈ lockNames h, l.rank < n
  grounded : ∀ x, g.known = some x → Justified h x

theorem Within.cons {n : Nat} (hw : Within n h g) {l : Mutex} {m : Mode} (hl : n ≤ l.rank) :
    Within (l.rank + 1) ((l, m) :: h) g where
  below k hk := by
    rcases List.mem_cons.mp hk with rfl | hk
    · exact Nat.lt_succ_self _
    · exact Nat.lt_succ_of_lt (Nat.lt_of_lt_of_le (hw.below k hk) hl)
  grounded y hy := (hw.grounded y hy).cons

theorem Within.mono {n k : Nat} (hw : Within n h g) (hn : n ≤ k) : Within k h g :=
  ⟨fun l hl => Nat.lt_of_lt_of_le (hw.below l hl) hn, hw.grounded⟩

theorem unlocked_cons {l : Mutex} {m : Mode} (hg : ∀ x, g.known = some x → Justified h x) :
    unlocked ((l, m) :: h) g l m = g := by
  unfold unlocked
  rw [List.erase_cons_head]
  cases hk : g.known with
  | none => rw [Option.filter_none, ← hk]
  | some y => rw [Option.filter_some, if_pos (decide_eq_true (hg y hk)), ← hk]

theorem unlocked_of_none {l : Mutex} {m : Mode} (hk : g.known = none) : unlocked h g l m = g := by
  unfold unlocked
  rw [hk, Option.filter_none, ← hk]

/-- What is known is still justified after a lock is released. -/
theorem unlocked_of_justified {l : Mutex} {m : Mode} (hk : g.known = some x)
    (hj : Justified (h.erase (l, m)) x) : unlocked h g l m = g := by
  unfold unlocked
  rw [hk, Option.filter_some, if_pos (decide_eq_true hj), ← hk]

theorem unlocked_of_not {l : Mutex} {m : Mode} (hk : g.known = some x)
    (hj : ¬ Justified (h.erase (l, m)) x) : unlocked h g l m = { g with known := none } := by
  unfold unlocked
  rw [hk, Option.filter_some, if_neg (by simp [hj])]

/-- A scope under one of the innermost locks. -/
theorem keeps_locked {n : Nat} {l : Mutex} {m : Mode} {p : Program α} (hw : Within n h g)
    (hn : n ≤ l.rank) (hl : 4 ≤ l.rank)
    (hp : (handleDiscipline reuse strict).Keeps f p ((l, m) :: h) g) :
    (handleDiscipline reuse strict).Keeps f (locked l m p) h g := by
  have hne : l ≠ .bsockDeletion ∧ l ≠ .bsockCreation ∧ l ≠ .recursive ∧
      ∀ x, l ≠ .sharedBsock x := by
    refine ⟨?_, ?_, ?_, fun x => ?_⟩ <;> rintro rfl <;> simp [Mutex.rank] at hl
  have hlocked : Handles.locked strict f g l m = g := by
    unfold Handles.locked
    split
    · exact absurd rfl hne.1
    · rfl
  refine Discipline.obeys_locked.mpr ⟨⟨⟨fun k hk => Or.inr ?_, fun _ => Or.inr (Or.inl ?_),
    fun heq => absurd heq hne.2.2.1, fun heq => absurd heq hne.2.2.1⟩,
    fun x heq => absurd heq (hne.2.2.2 x)⟩, ?_⟩
  · exact Nat.lt_of_lt_of_le (hw.below k hk) hn
  · exact Nat.lt_of_lt_of_le (by decide) hl
  · rw [show (handleDiscipline reuse strict).locked f h g l m = g from hlocked]
    refine hp.mono ?_
    rintro a _ _ ⟨rfl, rfl⟩
    refine ⟨List.mem_cons_self, ⟨?_, fun heq => absurd heq hne.1,
      fun _ x heq => absurd heq (hne.2.2.2 x)⟩, List.erase_cons_head _ _, unlocked_cons hw.grounded⟩
    rintro (heq | heq)
    · exact absurd heq hne.1
    · exact absurd heq hne.2.1

/-- An act that any thread may run, and that teaches it nothing. -/
theorem keeps_act {a : SocketAct} (hmay : MayAct f h g a)
    (hacted : ∀ answer, acted h g a answer = g) :
    (handleDiscipline reuse strict).Keeps f (act a) h g :=
  ⟨hmay, fun answer _ => ⟨rfl, hacted answer⟩⟩

theorem keeps_pure (a : α) :
    (handleDiscipline reuse strict).Keeps f (pure a : Program α) h g := ⟨rfl, rfl⟩

namespace Registry

theorem keeps_getConfigSocket (hw : Within 5 h g) :
    (handleDiscipline reuse strict).Keeps f (getConfigSocket x) h g :=
  keeps_locked hw (Nat.le_refl 5) (by decide) (keeps_act trivial fun _ => rfl)

theorem keeps_getConfigId (hw : Within 5 h g) (id : String) :
    (handleDiscipline reuse strict).Keeps f (getConfigId id) h g :=
  keeps_locked hw (Nat.le_refl 5) (by decide) (keeps_act trivial fun _ => rfl)

theorem keeps_updateConfig (hw : Within 5 h g) (c : BratislavaSocketConfig) :
    (handleDiscipline reuse strict).Keeps f (updateConfig c) h g :=
  keeps_locked hw (Nat.le_refl 5) (by decide) (keeps_act trivial fun _ => rfl)

theorem keeps_removeConfig (hw : Within 5 h g) :
    (handleDiscipline reuse strict).Keeps f (removeConfig x) h g :=
  keeps_locked hw (Nat.le_refl 5) (by decide) (keeps_act trivial fun _ => rfl)

theorem keeps_modifyConfig {get : Program (Option BratislavaSocketConfig)}
    {change : BratislavaSocketConfig → BratislavaSocketConfig} (hw : Within 5 h g)
    (hget : (handleDiscipline reuse strict).Keeps f get h g) :
    (handleDiscipline reuse strict).Keeps f (modifyConfig get change) h g := by
  refine hget.bind fun found => ?_
  cases found with
  | none => exact keeps_pure false
  | some c => exact keeps_updateConfig hw (change c)

theorem keeps_readConfig {get : Program (Option BratislavaSocketConfig)} {default : α}
    {field : BratislavaSocketConfig → α}
    (hget : (handleDiscipline reuse strict).Keeps f get h g) :
    (handleDiscipline reuse strict).Keeps f (readConfig get default field) h g := by
  refine hget.bind fun found => ?_
  cases found with
  | none => exact keeps_pure default
  | some c => exact keeps_pure (field c)

theorem keeps_registry {m : Mode} {p : Program α} (hw : Within 4 h g)
    (hp : Within 5 ((.sharedRegistry, m) :: h) g →
      (handleDiscipline reuse strict).Keeps f p ((.sharedRegistry, m) :: h) g) :
    (handleDiscipline reuse strict).Keeps f (locked .sharedRegistry m p) h g :=
  keeps_locked hw (Nat.le_refl 4) (Nat.le_refl 4) (hp (hw.cons (l := .sharedRegistry) (Nat.le_refl 4)))

theorem keeps_connect (hw : Within 4 h g) :
    (handleDiscipline reuse strict).Keeps f (connect x) h g :=
  keeps_registry hw fun hw => keeps_modifyConfig hw (keeps_getConfigSocket hw)

theorem keeps_disconnectSocket (hw : Within 4 h g) :
    (handleDiscipline reuse strict).Keeps f (disconnectSocket x) h g :=
  keeps_registry hw fun hw => keeps_modifyConfig hw (keeps_getConfigSocket hw)

theorem keeps_isConnectedSocket (hw : Within 4 h g) :
    (handleDiscipline reuse strict).Keeps f (isConnectedSocket x) h g :=
  keeps_registry hw fun hw => keeps_readConfig (keeps_getConfigSocket hw)

theorem keeps_getRemotePort (hw : Within 4 h g) (id : String) :
    (handleDiscipline reuse strict).Keeps f (getRemotePort id) h g :=
  keeps_registry hw fun hw => keeps_readConfig (keeps_getConfigId hw id)

theorem keeps_getLocalPort (hw : Within 4 h g) (id : String) :
    (handleDiscipline reuse strict).Keeps f (getLocalPort id) h g :=
  keeps_registry hw fun hw => keeps_readConfig (keeps_getConfigId hw id)

theorem keeps_addLocalPort (hw : Within 4 h g) (id : String) :
    (handleDiscipline reuse strict).Keeps f (addLocalPort id) h g := by
  refine keeps_registry hw fun hw => ?_
  have hacquire : (handleDiscipline reuse strict).Keeps f acquireLocalPort
      ((.sharedRegistry, .exclusive) :: h) g :=
    keeps_locked hw (Nat.le_refl 5) (by decide) (keeps_act trivial fun _ => rfl)
  refine hacquire.bind fun port => ?_
  split
  · exact keeps_modifyConfig hw (keeps_getConfigId hw id)
  · exact keeps_pure false

theorem keeps_releaseLocalPortSocket (hw : Within 4 h g) :
    (handleDiscipline reuse strict).Keeps f (releaseLocalPortSocket x) h g := by
  refine keeps_registry hw fun hw => (keeps_getConfigSocket hw).bind fun found => ?_
  cases found with
  | none => exact keeps_pure false
  | some c =>
    show (handleDiscipline reuse strict).Keeps f (if c.localPort = -1 then _ else _) _ _
    split
    · exact keeps_pure false
    · exact keeps_locked hw (Nat.le_refl 5) (by decide) (keeps_act trivial fun _ => rfl)

end Registry

/-! ## One socket -/

/-- A handle that a call may use: it is registered, and the one the call is about. -/
structure Usable (f : Call) (g : Knowledge) (x : SocketPtr) : Prop where
  known : g.known = some x
  concerns : f.Concerns x

theorem keeps_only (hx : Usable f g x) {p : Program α} (hp : p.Only (Uses h x)) :
    (handleDiscipline reuse strict).Keeps f p h g := by
  refine Discipline.keeps_only (fun a ha => ?_) hp
  cases a with
  | adapter y a =>
    obtain ⟨rfl, hmay⟩ := ha
    exact ⟨⟨hx.known, hx.concerns, hmay⟩, fun _ => rfl⟩
  | turn => exact ⟨trivial, fun _ => rfl⟩
  | _ => exact ha.elim

/-- Work on one socket leaves what is known and the locks as they are. -/
theorem keeps_built (hx : Usable f g x) (hw : Within 4 h g) {p : Program α}
    (hp : p.Built (PinnedBlock (MayUse h x) x fun _ => True)) : (handleDiscipline reuse strict).Keeps f p h g := by
  refine Discipline.keeps_built (fun β q hq => ?_) hp
  cases hq with
  | only hq => exact keeps_only hx hq
  | readLink => exact keeps_act (Or.inl hx.known) fun _ => rfl
  | hasAdapter => exact keeps_act hx.known fun _ => rfl
  | connect => exact Registry.keeps_connect hw
  | disconnect => exact Registry.keeps_disconnectSocket hw
  | isConnected => exact Registry.keeps_isConnectedSocket hw
  | getRemotePort id => exact Registry.keeps_getRemotePort hw id
  | getLocalPort id => exact Registry.keeps_getLocalPort hw id
  | addLocalPort id _ => exact Registry.keeps_addLocalPort hw id

/-! ## Locks of the API -/

theorem locked_shared (l : Mutex) : Handles.locked strict f g l .shared = g := by
  rcases locked_eq strict f g l .shared with heq | ⟨_, _, _, _, hm, _⟩
  · exact heq
  · cases hm

theorem locked_of_ne {l : Mutex} {m : Mode} (hl : l ≠ .bsockDeletion) :
    Handles.locked strict f g l m = g := by
  rcases locked_eq strict f g l m with heq | ⟨_, _, _, hl', _⟩
  · exact heq
  · exact absurd hl' hl

/-- A scope under a lock that is no socket's, in which nothing is left open. -/
theorem obeys_scope {l : Mutex} {m : Mode} {p : Program α} {Q : α → Locks → Knowledge → Prop}
    (hw : MayWait h g l m) (hl : ∀ x, l ≠ .sharedBsock x)
    (hp : (handleDiscipline reuse strict).Obeys f p ((l, m) :: h) (Handles.locked strict f g l m)
      fun a h' g' => (l, m) ∈ h' ∧ MayUnlock strict h' g' l ∧
        Q a (h'.erase (l, m)) (unlocked h' g' l m)) :
    (handleDiscipline reuse strict).Obeys f (locked l m p) h g Q :=
  Discipline.obeys_locked.mpr ⟨⟨hw, fun x heq => absurd heq (hl x)⟩, hp⟩

theorem mayUnlock_recursive : MayUnlock strict h g .recursive where
  nothingOpen := by simp
  pinned := by simp
  alive _ x heq := by cases heq

/-- `Exists(bsock)` under the global deletion lock. -/
theorem obeys_existsSocket {Q : Bool → Locks → Knowledge → Prop} (hw : MayWait h g .recursive .exclusive)
    (hdel : .bsockDeletion ∈ lockNames h) (hpin : NoPin h) (hown : g.owned = none)
    (hfound : Q true h { g with known := some x })
    (hmissed : g.known ≠ some x →
      Q false h (if g.seen = some x then { g with gone := true } else g)) :
    (handleDiscipline reuse strict).Obeys f (Registry.existsSocket x) h g Q := by
  have hjust (y : SocketPtr) : Justified h y := Or.inl hdel
  refine obeys_scope hw (fun _ heq => by cases heq) ?_
  rw [locked_of_ne (by simp)]
  refine ⟨⟨List.mem_cons_self, ?_, hown⟩, fun found hfound' => ?_⟩
  · exact hpin.imp (List.mem_cons_of_mem _) fun hnone y hy =>
      hnone y ((List.mem_cons.mp hy).resolve_left (by simp))
  · refine ⟨List.mem_cons_self, mayUnlock_recursive, ?_⟩
    rw [List.erase_cons_head, unlocked_cons fun y _ => hjust y]
    cases found with
    | true => exact hfound
    | false =>
      have hne : g.known ≠ some x := fun hk => by cases hfound' hk
      have hmem : Mutex.bsockDeletion ∈ lockNames ((Mutex.recursive, Mode.exclusive) :: h) :=
        List.mem_cons_of_mem _ hdel
      have hacted : (handleDiscipline reuse strict).acted ((.recursive, .exclusive) :: h) g
          (.findSocket x) false =
          if g.seen = some x then { g with gone := true } else g := by
        simp only [handleDiscipline, acted, hmem, and_true, Bool.false_eq_true, if_false]
      rw [hacted]
      exact hmissed hne

theorem mayWait_nil {l : Mutex} {m : Mode} (hm : l = .recursive → m = .exclusive) :
    MayWait [] g l m := ⟨by simp, by simp, fun _ => Or.inl rfl, hm⟩

/-- A pin, from no locks and no knowledge. -/
theorem obeys_pinIfExists {m : Mode} {Q : Bool → Locks → Knowledge → Prop}
    (hfound : Q true [(.sharedBsock x, m)] { known := some x }) (hmissed : Q false [] {}) :
    (handleDiscipline reuse strict).Obeys f (pinIfExists m x) [] {} Q := by
  refine obeys_scope (mayWait_nil (by simp)) (fun _ heq => by cases heq) ?_
  rw [locked_shared]
  have hpin : NoPin [(Mutex.bsockDeletion, Mode.shared)] := Or.inr (by simp)
  have hw : MayWait [(.bsockDeletion, .shared)] {} .recursive .exclusive :=
    ⟨by simp [Mutex.rank], by simp, by simp, fun _ => rfl⟩
  refine Discipline.obeys_bind.mpr (obeys_existsSocket hw (by simp) hpin rfl ?_ fun _ => ?_)
  · refine ⟨⟨⟨by simp [Mutex.rank], by simp, by simp, by simp⟩, fun y heq => ?_⟩, ?_⟩
    · cases heq
      exact Or.inl rfl
    · show (handleDiscipline reuse strict).Obeys f _ _ (Handles.locked strict f _ _ m) _
      rw [locked_of_ne (by simp)]
      refine ⟨by simp, ⟨by simp, ?_, by simp⟩, ?_⟩
      · intro _ y hy
        simp at hy
        rw [hy]
      · have herase : List.erase [(Mutex.sharedBsock x, m), (.bsockDeletion, .shared)]
            (.bsockDeletion, .shared) = [(.sharedBsock x, m)] := by simp
        rw [unlocked_of_justified rfl (herase ▸ Or.inr (Or.inr (by simp))), herase]
        exact hfound
  · refine ⟨by simp, ⟨by simp, by simp, by simp⟩, ?_⟩
    rw [unlocked_of_none rfl]
    exact hmissed

theorem within_pinned {m : Mode} : Within 4 [(.sharedBsock x, m)] { known := some x } where
  below l hl := by
    rw [List.mem_singleton.mp hl]
    simp [Mutex.rank]
  grounded y hy := by
    cases hy
    exact Or.inr (Or.inr (by simp))

theorem keeps_withPin {m : Mode} {body : Program Status} (hf : f.Concerns x)
    (hbody : body.Built (PinnedBlock (MayUse [(.sharedBsock x, m)] x) x fun _ => True)) :
    (handleDiscipline reuse strict).Keeps f (withPin m x body) [] {} := by
  have hkeeps : (handleDiscipline reuse strict).Keeps f body [(.sharedBsock x, m)]
      { known := some x } := keeps_built ⟨rfl, hf⟩ within_pinned hbody
  refine Discipline.obeys_bind.mpr (obeys_pinIfExists ?_ (keeps_pure _))
  refine hkeeps.bind fun status => ?_
  refine ⟨by simp, ⟨by simp, by simp, fun _ y heq => ?_⟩, ?_⟩
  · cases heq
    exact Or.inl rfl
  · exact ⟨by simp, unlocked_of_not rfl (by simp [Justified])⟩

/-! ## The functions -/

theorem keeps_notNull {bsock : Option SocketPtr} {body : SocketPtr → Program Status}
    (hbody : ∀ x, bsock = some x → (handleDiscipline reuse strict).Keeps f (body x) h g) :
    (handleDiscipline reuse strict).Keeps f (notNull bsock body) h g := by
  cases bsock with
  | none => exact keeps_pure _
  | some x => exact hbody x rfl

theorem keeps_existsId (hw : MayWait h g .recursive .exclusive) (hin : Within 3 h g) (id : String) :
    (handleDiscipline reuse strict).Keeps f (Registry.existsId id) h g := by
  refine obeys_scope hw (fun _ heq => by cases heq) ?_
  rw [locked_of_ne (by simp)]
  have hin' := hin.cons (l := .recursive) (m := .exclusive) (Nat.le_refl 3)
  refine (Registry.keeps_getConfigId (hin'.mono (by decide)) id).bind fun found => ?_
  have hend : (Mutex.recursive, Mode.exclusive) ∈ (Mutex.recursive, Mode.exclusive) :: h ∧
      MayUnlock strict ((.recursive, .exclusive) :: h) g .recursive ∧
      List.erase ((Mutex.recursive, Mode.exclusive) :: h) (.recursive, .exclusive) = h ∧
      unlocked ((.recursive, .exclusive) :: h) g .recursive .exclusive = g :=
    ⟨List.mem_cons_self, mayUnlock_recursive, List.erase_cons_head _ _,
      unlocked_cons hin.grounded⟩
  cases found <;> exact hend

/-- The locks that `bratislavaSocket` holds. -/
def creating : Locks := [(.bsockCreation, .exclusive), (.bsockDeletion, .shared)]

theorem mayWait_creating : MayWait creating g .recursive .exclusive :=
  ⟨by simp [creating, Mutex.rank], by simp [creating], by simp [creating], fun _ => rfl⟩

theorem obeys_add {Q : Unit → Locks → Knowledge → Prop}
    (hQ : Q () creating { known := some x }) :
    (handleDiscipline reuse strict).Obeys f (Registry.add x) creating { fresh := some x } Q := by
  refine obeys_scope mayWait_creating (fun _ heq => by cases heq) ?_
  rw [locked_of_ne (by simp)]
  have hin : Within 4 ((.recursive, .exclusive) :: creating) { fresh := some x } :=
    ⟨by simp [creating, Mutex.rank], by simp⟩
  have hconfig : (handleDiscipline reuse strict).Keeps f (Registry.createConfigSocket x)
      ((.recursive, .exclusive) :: creating) { fresh := some x } := by
    refine Discipline.Keeps.bind (keeps_act (Or.inr rfl) fun _ => rfl) fun link => ?_
    exact keeps_locked hin (by decide) (by decide) (keeps_act trivial fun _ => rfl)
  refine hconfig.bind fun _ => ?_
  refine ⟨⟨rfl, Or.inr (by simp [creating]), rfl⟩, fun _ _ => ?_⟩
  refine ⟨List.mem_cons_self, mayUnlock_recursive, ?_⟩
  have hjust : Justified creating x := Or.inl (by simp [creating])
  rw [List.erase_cons_head]
  show Q () creating (unlocked _ _ _ _)
  rw [unlocked_of_justified rfl (by rwa [List.erase_cons_head])]
  exact hQ

theorem keeps_bratislavaSocket (link : BratislavaLink) :
    (handleDiscipline reuse strict).Keeps f (bratislavaSocket link) [] {} := by
  refine obeys_scope (mayWait_nil (by simp)) (fun _ heq => by cases heq) ?_
  rw [locked_shared]
  refine obeys_scope ⟨by simp [Mutex.rank], by simp, by simp, by simp⟩ (fun _ heq => by cases heq) ?_
  rw [locked_of_ne (by simp)]
  -- What is known of the socket is lost with the locks.
  have hend (a : Option SocketPtr) (g' : Knowledge) (hg' : g'.owned = none ∧ g'.fresh = none)
      (hk : unlocked [(Mutex.bsockDeletion, Mode.shared)]
        (unlocked creating g' .bsockCreation .exclusive) .bsockDeletion .shared = {}) :
      (Mutex.bsockCreation, Mode.exclusive) ∈ creating ∧
        MayUnlock strict creating g' .bsockCreation ∧
        (Mutex.bsockDeletion, Mode.shared) ∈ creating.erase (.bsockCreation, .exclusive) ∧
        MayUnlock strict (creating.erase (.bsockCreation, .exclusive))
          (unlocked creating g' .bsockCreation .exclusive) .bsockDeletion ∧
        (creating.erase (.bsockCreation, .exclusive)).erase (.bsockDeletion, .shared) = [] ∧
        unlocked (creating.erase (.bsockCreation, .exclusive))
          (unlocked creating g' .bsockCreation .exclusive) .bsockDeletion .shared = {} := by
    have herase : creating.erase (.bsockCreation, .exclusive) = [(.bsockDeletion, .shared)] := by
      simp [creating]
    rw [herase]
    exact ⟨by simp [creating], ⟨fun _ => hg', by simp, by simp⟩, by simp,
      ⟨fun _ => hg', by simp, by simp⟩, by simp, hk⟩
  have hin : Within 3 creating {} := ⟨by simp [creating, Mutex.rank], by simp⟩
  have hnone (a : Option SocketPtr) := hend a {} ⟨rfl, rfl⟩ (by simp [unlocked])
  refine (keeps_existsId mayWait_creating hin _).bind fun found => ?_
  cases found with
  | true =>
    refine (Registry.keeps_getConfigId (hin.mono (by decide)) _).bind fun config => ?_
    cases config with
    | none => exact hnone none
    | some config => exact hnone config.socket
  | false =>
    refine ⟨⟨by simp [creating], by simp [creating], rfl⟩, fun answer _ => ?_⟩
    cases answer with
    | none => exact hnone none
    | some x =>
      refine (Discipline.obeys_bind (p := Registry.add x)
        (q := fun _ => Prog.pure (some x))).mpr (obeys_add ?_)
      exact hend (some x) { known := some x } ⟨rfl, rfl⟩ (by simp [unlocked, creating, Justified])

/-- A function that pins the handle it is given. -/
theorem keeps_pinned {bsock : Option SocketPtr} (hf : ∀ x, bsock = some x → f.Concerns x)
    {m : Mode} {body : SocketPtr → Program Status}
    (hbody : ∀ x, (body x).Built (PinnedBlock (MayUse [(.sharedBsock x, m)] x) x fun _ => True)) :
    (handleDiscipline reuse strict).Keeps f
      (notNull bsock fun bsock => withPin m bsock (body bsock)) [] {} :=
  keeps_notNull fun x hx => keeps_withPin (hf x hx) (hbody x)

theorem keeps_onLink {link : BratislavaLink} {transfer : SocketPtr → Program Status}
    (hf : ∀ x, f.Concerns x)
    (htransfer : ∀ x, (transfer x).Built (PinnedBlock (MayUse [(.sharedBsock x, .shared)] x) x fun _ => True)) :
    (handleDiscipline reuse strict).Keeps f (onLink link transfer) [] {} := by
  refine (keeps_bratislavaSocket link).bind fun bsock => ?_
  cases bsock with
  | none => exact keeps_pure _
  | some x =>
    have hconn : (handleDiscipline reuse strict).Keeps f (bratislavaConn (some x)) [] {} :=
      keeps_pinned (fun y _ => hf y) fun _ => built_connPinned (fun _ _ => mayUse_of_pin (by simp) _) fun _ => trivial
    refine hconn.bind fun status => ?_
    show (handleDiscipline reuse strict).Keeps f (if status.value ≠ 0 then _ else _) [] {}
    split
    · exact keeps_pure _
    · exact keeps_withPin (hf x) (built_withAdapter (htransfer x))

/-! ## `bratislavaDestroy` -/

/-- Where `bratislavaDestroy` is called: from a thread of its own or from `Cleanup`, which holds
the lock of the registry and has just seen the handle in it. -/
inductive Caller (x : SocketPtr) (g : Knowledge) : Locks → Prop
  | thread (hk : g.known = none) : Caller x g []
  | cleanup (hk : g.known = some x) : Caller x g [(.recursive, .exclusive)]

/-- The handle is deleted, if it was registered when the call started. -/
def Destroyed (g : Knowledge) (x : SocketPtr) : Prop := g.seen = some x → g.gone = true

theorem Caller.mem {b : Locks} (hb : Caller x g b) {l : Mutex} (hl : l ∈ lockNames b) :
    l = .recursive := by
  cases hb with
  | thread => simp at hl
  | cleanup => simpa using hl

theorem Caller.mayWait {b : Locks} (hb : Caller x g b) {m : Mode} :
    MayWait b g .bsockDeletion m := by
  cases hb with
  | thread => exact mayWait_nil (by simp)
  | cleanup hk => exact ⟨by simp, by simp [hk], by simp, by simp⟩

/-- The caller knows again what it knew before the deletion lock was taken. -/
theorem Caller.unlocked {b : Locks} (hb : Caller x g b) {m : Mode} :
    unlocked ((.bsockDeletion, m) :: b) { g with known := some x } .bsockDeletion m = g := by
  cases hb with
  | thread hk =>
    rw [unlocked_of_not rfl (by simp [Justified])]
    cases g
    cases hk
    rfl
  | cleanup hk =>
    rw [unlocked_of_justified rfl (by simp [Justified])]
    cases g
    cases hk
    rfl

theorem obeys_interruptIfExists {Q : Bool → Locks → Knowledge → Prop} {b : Locks}
    (hb : Caller x g b) (hf : f.Concerns x) (hopen : g.owned = none ∧ g.fresh = none)
    (hfound : Q true b g)
    (hmissed : Q false b (if g.seen = some x then { g with gone := true } else g)) :
    (handleDiscipline reuse strict).Obeys f (interruptIfExists x) b g Q := by
  refine obeys_scope hb.mayWait (fun _ heq => by cases heq) ?_
  rw [locked_shared]
  have hw : MayWait ((.bsockDeletion, .shared) :: b) g .recursive .exclusive := by
    refine ⟨fun l hl => ?_, fun _ => Or.inl rfl, fun _ => Or.inr (Or.inl (by simp)), fun _ => rfl⟩
    rcases List.mem_cons.mp hl with rfl | hl
    · exact Or.inr (by decide)
    · exact Or.inl (hb.mem hl)
  have hpin (y : SocketPtr) : .sharedBsock y ∉ lockNames ((.bsockDeletion, .shared) :: b) := by
    intro hy
    rcases List.mem_cons.mp hy with heq | hy
    · cases heq
    · cases hb.mem hy
  have hend (g' : Knowledge) (hg' : g'.owned = none ∧ g'.fresh = none) :
      MayUnlock strict ((.bsockDeletion, .shared) :: b) g' .bsockDeletion :=
    ⟨fun _ => hg', fun _ y hy => absurd hy (hpin y), fun _ y heq => by cases heq⟩
  refine Discipline.obeys_bind.mpr
    (obeys_existsSocket hw (by simp) (Or.inr hpin) hopen.1 ?_ fun hne => ?_)
  · have husable : Usable f { g with known := some x } x := ⟨rfl, hf⟩
    refine (keeps_only husable only_interrupt).bind fun _ => ?_
    refine ⟨List.mem_cons_self, hend _ hopen, ?_⟩
    rw [List.erase_cons_head]
    show Q true b (Handles.unlocked _ _ _ _)
    rw [hb.unlocked]
    exact hfound
  · have hk : g.known = none := by
      cases hb with
      | thread hk => exact hk
      | cleanup hk => exact absurd hk hne
    have hk' : (if g.seen = some x then { g with gone := true } else g).known = none := by
      split <;> exact hk
    refine ⟨List.mem_cons_self, hend _ (by split <;> exact hopen), ?_⟩
    rw [List.erase_cons_head]
    show Q false b (Handles.unlocked _ _ _ _)
    rw [unlocked_of_none hk']
    exact hmissed

/-- The locks that `bratislavaDestroy` holds before it touches the registry. -/
def destroying (x : SocketPtr) (b : Locks) : Locks :=
  (.bsockCreation, .exclusive) :: (.sharedBsock x, .exclusive) :: (.bsockDeletion, .exclusive) :: b

section Destroying

variable {b : Locks} (hb : ∀ l ∈ lockNames b, l = .recursive)

include hb

theorem destroying_rank : ∀ l ∈ lockNames (destroying x b), l = .recursive ∨ l.rank < 3 := by
  intro l hl
  simp only [destroying, lockNames_cons, List.mem_cons] at hl
  rcases hl with rfl | rfl | rfl | hl
  · exact Or.inr (by decide)
  · exact Or.inr (by simp [Mutex.rank])
  · exact Or.inr (by decide)
  · exact Or.inl (hb l hl)

theorem obeys_remove {Q : Bool → Locks → Knowledge → Prop} (hopen : g.owned = none)
    (hk : g.known = some x)
    (hQ : Q true (destroying x b) { g with known := none, owned := some (x, false) }) :
    (handleDiscipline reuse strict).Obeys f (Registry.remove x) (destroying x b) g Q := by
  have hw : MayWait (destroying x b) g .recursive .exclusive :=
    ⟨destroying_rank hb, fun _ => Or.inl rfl, fun _ => Or.inr (Or.inl (by simp [destroying])),
      fun _ => rfl⟩
  refine obeys_scope hw (fun _ heq => by cases heq) ?_
  rw [locked_of_ne (by simp)]
  have hin : Within 4 ((.recursive, .exclusive) :: destroying x b) g := by
    refine ⟨fun l hl => ?_, fun y _ => Or.inl (by simp [destroying])⟩
    rcases List.mem_cons.mp hl with rfl | hl
    · decide
    · rcases destroying_rank hb l hl with rfl | hlt
      · decide
      · omega
  have hpin : NoPin ((.recursive, .exclusive) :: destroying x b) := Or.inl (by simp [destroying])
  refine ⟨⟨by simp, hpin, hopen⟩, fun found hfound => ?_⟩
  cases hfound hk
  have hsame : (handleDiscipline reuse strict).acted ((.recursive, .exclusive) :: destroying x b) g
      (.findSocket x) true = g := by
    cases g
    cases hk
    rfl
  rw [hsame]
  refine (Registry.keeps_releaseLocalPortSocket hin).bind fun _ => ?_
  refine (Registry.keeps_disconnectSocket hin).bind fun _ => ?_
  refine (Registry.keeps_removeConfig (hin.mono (by decide))).bind fun _ => ?_
  refine ⟨⟨by simp, by simp [destroying], by simp [destroying], hk, hopen⟩, fun _ _ => ?_⟩
  refine ⟨by simp, mayUnlock_recursive, ?_⟩
  rw [List.erase_cons_head]
  show Q true _ (unlocked _ _ _ _)
  rw [unlocked_of_none rfl]
  exact hQ

theorem obeys_destroyLocked {Q : Status → Locks → Knowledge → Prop} (hf : f.Concerns x)
    (hopen : g.owned = none ∧ g.fresh = none) (hk : strict = true → g.known = some x)
    (hQ : ∀ status g', g'.owned = none ∧ g'.fresh = none → g'.seen = g.seen →
      (strict = true → Destroyed g' x) → Q status b g') :
    (handleDiscipline reuse strict).Obeys f (destroyLocked x) (destroying x b) g Q := by
  have hw : MayWait (destroying x b) g .recursive .exclusive :=
    ⟨destroying_rank hb, fun _ => Or.inl rfl, fun _ => Or.inr (Or.inl (by simp [destroying])),
      fun _ => rfl⟩
  have hpin : NoPin (destroying x b) := Or.inl (by simp [destroying])
  have hlast (g' : Knowledge) (hg' : g'.owned = none ∧ g'.fresh = none) :
      MayUnlock strict ((.bsockDeletion, .exclusive) :: b) g' .bsockDeletion := by
    refine ⟨fun _ => hg', fun _ y hy => ?_, fun _ y heq => by cases heq⟩
    rcases List.mem_cons.mp hy with heq | hy
    · cases heq
    · cases hb _ hy
  refine Discipline.obeys_bind.mpr
    (obeys_existsSocket hw (by simp [destroying]) hpin hopen.1 ?_ fun hne => ?_)
  · refine Discipline.obeys_bind.mpr (obeys_remove hb hopen.1 rfl ?_)
    have herase : (destroying x b).erase (.sharedBsock x, .exclusive) =
        (.bsockCreation, .exclusive) :: (.bsockDeletion, .exclusive) :: b := by simp [destroying]
    refine ⟨⟨rfl, hopen.2, hf, by simp [destroying]⟩, fun _ _ => ?_⟩
    refine ⟨by simp [destroying], ⟨by simp, by simp, fun _ y heq => ?_⟩, ?_⟩
    · cases heq
      exact Or.inr ⟨true, rfl⟩
    rw [herase]
    refine ⟨⟨rfl, hopen.2⟩, fun _ _ => ?_⟩
    refine ⟨by simp, ⟨fun _ => ⟨rfl, hopen.2⟩, by simp, by simp⟩, ?_⟩
    rw [List.erase_cons_head]
    refine ⟨by simp, hlast _ ⟨rfl, hopen.2⟩, ?_⟩
    rw [List.erase_cons_head]
    exact hQ _ _ ⟨rfl, hopen.2⟩ rfl fun _ hseen => if_pos hseen
  · -- A handle known to be registered is found, so this is not a strict run.
    have hloose : strict = true → False := fun hstrict => hne (hk hstrict)
    have hopen' : (if g.seen = some x then { g with gone := true } else g).owned = none ∧
        (if g.seen = some x then { g with gone := true } else g).fresh = none := by
      split <;> exact hopen
    have hseen : (if g.seen = some x then { g with gone := true } else g).seen = g.seen := by
      split <;> rfl
    generalize (if g.seen = some x then { g with gone := true } else g) = g' at hopen' hseen
    refine ⟨by simp [destroying], ⟨fun _ => hopen', by simp, by simp⟩, ?_⟩
    rw [show (destroying x b).erase (.bsockCreation, .exclusive) = _ from List.erase_cons_head _ _]
    refine ⟨by simp, ⟨by simp, by simp, fun hstrict => (hloose hstrict).elim⟩, ?_⟩
    rw [List.erase_cons_head]
    refine ⟨by simp, hlast _ hopen', ?_⟩
    rw [List.erase_cons_head]
    exact hQ _ _ hopen' hseen fun hstrict => (hloose hstrict).elim

end Destroying

theorem obeys_bratislavaDestroy {Q : Status → Locks → Knowledge → Prop} {b : Locks}
    (hb : Caller x g b) (hf : f.Concerns x) (hopen : g.owned = none ∧ g.fresh = none)
    (hreturns : g.known = some x ∨ f = .bratislavaDestroy (some x))
    (hQ : ∀ status g', g'.owned = none ∧ g'.fresh = none → g'.seen = g.seen →
      (strict = true → Destroyed g' x) → Q status b g') :
    (handleDiscipline reuse strict).Obeys f (bratislavaDestroy (some x)) b g Q := by
  refine Discipline.obeys_bind.mpr (obeys_interruptIfExists hb hf hopen ?_ ?_)
  · refine ⟨⟨hb.mayWait, fun _ heq => by cases heq⟩, ?_⟩
    show (handleDiscipline reuse strict).Obeys f _ _ (Handles.locked strict f g _ _) _
    -- In a strict run the handle is known again under the deletion lock.
    have hlocked : ∃ g₁, Handles.locked strict f g .bsockDeletion .exclusive = g₁ ∧
        (g₁.owned = none ∧ g₁.fresh = none) ∧ g₁.seen = g.seen ∧
        (strict = true → g₁.known = some x) := by
      refine ⟨_, rfl, ?_⟩
      rcases locked_eq strict f g .bsockDeletion .exclusive with heq | ⟨y, -, rfl, -, -, heq⟩
      · rw [heq]
        refine ⟨hopen, rfl, fun hstrict => ?_⟩
        rcases hreturns with hk | rfl
        · exact hk
        · subst hstrict
          rw [← heq]
          rfl
      · rw [heq]
        exact ⟨hopen, rfl, fun _ => congrArg some (Option.some.inj hf)⟩
    obtain ⟨g₁, heq, hopen₁, hseen₁, hk₁⟩ := hlocked
    rw [heq]
    have hrec {l : Mutex} (hl : l ∈ lockNames b) : l = .recursive := hb.mem hl
    refine ⟨⟨⟨fun l hl => ?_, by simp, by simp, by simp⟩, fun y hy => ?_⟩, ?_⟩
    · rcases List.mem_cons.mp hl with rfl | hl
      · exact Or.inr (by simp [Mutex.rank])
      · exact Or.inl (hrec hl)
    · cases hy
      cases strict with
      | true => exact Or.inl (hk₁ rfl)
      | false => exact Or.inr ⟨rfl, by simp⟩
    show (handleDiscipline reuse strict).Obeys f _ _ (Handles.locked strict f g₁ _ _) _
    rw [locked_of_ne (by simp)]
    refine ⟨⟨⟨fun l hl => ?_, by simp, by simp, by simp⟩, fun _ heq => by cases heq⟩, ?_⟩
    · rcases List.mem_cons.mp hl with rfl | hl
      · exact Or.inr (by simp [Mutex.rank])
      · rcases List.mem_cons.mp hl with rfl | hl
        · exact Or.inr (by decide)
        · exact Or.inl (hrec hl)
    show (handleDiscipline reuse strict).Obeys f _ _ (Handles.locked strict f g₁ _ _) _
    rw [locked_of_ne (by simp)]
    exact obeys_destroyLocked (fun _ => hrec) hf hopen₁ hk₁ fun status g' h₁ h₂ h₃ =>
      hQ status g' h₁ (h₂.trans hseen₁) h₃
  · refine hQ _ _ (by split <;> exact hopen) (by split <;> rfl) fun _ hseen => ?_
    by_cases hx : g.seen = some x
    · rw [if_pos hx]
    · rw [if_neg hx] at hseen
      exact absurd hseen hx

/-! ## `Cleanup` -/

theorem obeys_cleanupLoop (hin : InCleanup h g) :
    (handleDiscipline reuse strict).Obeys .cleanup cleanupLoop h g
      fun _ h' g' => InCleanup h' g' := by
  obtain ⟨rfl, hopen⟩ := hin
  refine ⟨⟨by simp, Or.inr (by simp), hopen.1⟩, fun answer _ => ?_⟩
  cases answer with
  | none => exact ⟨rfl, hopen⟩
  | some x =>
    refine (Discipline.obeys_bind (p := bratislavaDestroy (some x))
      (q := fun _ => Prog.invoke (S := socketSignature) .cleanupLoop)).mpr ?_
    refine obeys_bratislavaDestroy (Caller.cleanup rfl) trivial hopen (Or.inl rfl) ?_
    intro status g' hopen' _ _
    exact ⟨⟨rfl, rfl, rfl, hopen'⟩, fun _ _ _ hin => hin⟩

theorem obeys_cleanup :
    (handleDiscipline reuse strict).Obeys .cleanup cleanup [] {} fun _ h' _ => h' = [] := by
  refine obeys_scope (mayWait_nil (by simp)) (fun _ heq => by cases heq) ?_
  rw [locked_of_ne (by simp)]
  refine ⟨⟨rfl, rfl, rfl, rfl, rfl⟩, ?_⟩
  rintro _ _ _ ⟨rfl, -⟩
  exact ⟨by simp, mayUnlock_recursive, List.erase_cons_head _ _⟩

/-! ## All calls -/

/-- The calls of the API, and `Cleanup`. -/
def Call.Api : Call → Prop
  | .cleanupLoop | .add _ | .remove _ | .createConfig _ | .removeUnusedConfig _ | .addIP _ _
  | .addRemotePort _ _ | .connect _ | .disconnectSocket _ | .disconnectId _ | .method .. => False
  | _ => True

theorem handles_sound :
    (handleDiscipline reuse strict).Sound (Safe reuse) (Returns strict) where
  start _ _ _ _ f hsafe hheld := hsafe.start hheld f
  lock _ _ _ _ _ _ _ _ hsafe hret hmay _ := hsafe.lock hret hmay
  unlock _ _ _ _ _ _ _ hsafe _ hmay :=
    hsafe.relock ((hsafe.thread _).erase hmay) rfl rfl rfl
  act _ _ _ _ _ _ _ _ _ hex hsafe _ hmay hexec := hsafe.act hex hmay hexec
  call f p h g hmay := by
    obtain ⟨rfl, rfl, hin⟩ := hmay
    exact obeys_cleanupLoop hin

/-- A function of the API that returns what it knew. -/
theorem obeys_status {p : Program α} {result : α → CallResult} {s : SharedState}
    (hinit : initial f s = {}) (hfin : Finished strict f {})
    (hp : (handleDiscipline reuse strict).Keeps f p [] {}) :
    (handleDiscipline reuse strict).Obeys f (p.bind fun a => .pure (result a)) [] (initial f s)
      fun _ h' g' => h' = [] ∧ Finished strict f g' := by
  rw [hinit]
  exact hp.bind fun a => ⟨rfl, hfin⟩

theorem handles_cover : (handleDiscipline reuse strict).Covers Call.Api := by
  intro f s hf
  show (handleDiscipline reuse strict).Obeys f f.body [] (initial f s)
    fun _ h' g' => h' = [] ∧ Finished strict f g'
  cases f with
  | cleanupLoop | add | remove | createConfig | removeUnusedConfig | addIP | addRemotePort
  | connect | disconnectSocket | disconnectId | method => exact hf.elim
  | bratislavaSocket link => exact obeys_status rfl trivial (keeps_bratislavaSocket link)
  | bratislavaConn bsock =>
    exact obeys_status rfl trivial
      (keeps_pinned (f := .bratislavaConn bsock) (fun _ hx => hx)
        fun _ => built_connPinned (fun _ _ => mayUse_of_pin (by simp) _) fun _ => trivial)
  | bratislavaSend bsock =>
    exact obeys_status rfl trivial (keeps_pinned (f := .bratislavaSend bsock)
      (fun _ hx => hx) fun _ => built_ifConnected (built_withAdapter (built_send (by simp))))
  | bratislavaRecv bsock =>
    exact obeys_status rfl trivial (keeps_pinned (f := .bratislavaRecv bsock)
      (fun _ hx => hx) fun _ => built_ifConnected (built_withAdapter (built_recv (by simp))))
  | bratislavaLinkSend link =>
    exact obeys_status rfl trivial
      (keeps_onLink (fun _ => trivial) fun _ => built_send (by simp))
  | bratislavaLinkRecv link =>
    exact obeys_status rfl trivial
      (keeps_onLink (fun _ => trivial) fun _ => built_recv (by simp))
  | bratislavaConnTimeout bsock ms =>
    exact obeys_status rfl trivial (keeps_pinned (f := .bratislavaConnTimeout bsock ms)
      (fun _ hx => hx) fun _ => built_setTimeout (only_setConnTimeout trivial))
  | bratislavaRecvTimeout bsock ms =>
    exact obeys_status rfl trivial (keeps_pinned (f := .bratislavaRecvTimeout bsock ms)
      (fun _ hx => hx) fun _ => built_setTimeout (only_setRecvTimeout trivial trivial trivial))
  | bratislavaDisconnect bsock =>
    exact obeys_status rfl trivial (keeps_pinned (f := .bratislavaDisconnect bsock)
      (fun _ hx => hx) fun _ => built_disconnectPinned)
  | cleanup => exact obeys_cleanup.mono fun _ _ _ hh => ⟨hh, trivial⟩
  | bratislavaDestroy bsock =>
    cases bsock with
    | none => exact ⟨rfl, trivial⟩
    | some x =>
      refine Discipline.obeys_bind.mpr ?_
      refine obeys_bratislavaDestroy (Caller.thread rfl) rfl ⟨rfl, rfl⟩ (Or.inr rfl) ?_
      exact fun status g' _ _ hgone => ⟨rfl, hgone⟩

end SensorLib
