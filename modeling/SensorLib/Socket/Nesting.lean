import SensorLib.Socket.Programs

/-! # The deletion lock and `mutex_recursive_`

Every function of the API but `Cleanup` holds the deletion lock whenever it
takes `mutex_recursive_`, and gives it back after that one.
-/

namespace SensorLib

open Threads Handles

/-- The functions of the API without `Cleanup`. -/
def Call.Ordinary (f : Call) : Prop := f.Api ∧ f ≠ .cleanup

@[reducible] def nestingDiscipline (reuse : Bool) : Discipline (socketSystem reuse) where
  Ghost := Unit
  initial _ _ := ()
  mayLock _ h _ l _ := l = .recursive → .bsockDeletion ∈ lockNames h
  locked _ _ g _ _ := g
  mayUnlock h _ l _ := l = .bsockDeletion → .recursive ∉ lockNames h
  unlocked _ g _ _ := g
  mayAct _ _ _ _ := True
  answers _ _ _ _ := True
  acted _ g _ _ := g
  mayCall _ _ _ _ := False
  returns _ _ _ _ _ _ := True
  finished _ _ _ := True

namespace Nesting

/-- Who holds `mutex_recursive_` holds the deletion lock. -/
def Nested (H : Tid → Locks) : Prop :=
  ∀ t, .recursive ∈ lockNames (H t) → .bsockDeletion ∈ lockNames (H t)

variable {reuse : Bool} {f : Call} {h : Locks} {α : Type} {x : SocketPtr}

theorem nesting_sound :
    (nestingDiscipline reuse).Sound (fun _ H _ => Nested H) fun _ _ _ => True where
  start _ _ _ _ _ hnested _ := hnested
  lock s H G t f l m _ hnested _ hmay _ := by
    intro u hu
    by_cases hut : u = t
    · subst hut
      rw [Function.update_self, lockNames_cons, List.mem_cons] at hu ⊢
      rcases hu with hl | hu
      · exact Or.inr (hmay hl.symm)
      · exact Or.inr (hnested u hu)
    · rw [Function.update_of_ne hut] at hu ⊢
      exact hnested u hu
  unlock s H G t l m _ hnested _ hmay := by
    intro u hu
    by_cases hut : u = t
    · subst hut
      rw [Function.update_self] at hu ⊢
      have hheld := lockNames_erase hu
      apply mem_lockNames_erase_of_ne _ (hnested u hheld)
      intro hl
      exact hmay hl.symm hheld
    · rw [Function.update_of_ne hut] at hu ⊢
      exact hnested u hu
  act _ _ _ _ _ _ _ _ _ _ hnested _ _ _ := ⟨trivial, hnested⟩
  call _ _ _ _ hmay := hmay.elim

/-! ## The programs -/

theorem keeps_act (a : SocketAct) : (nestingDiscipline reuse).Keeps f (act a) h () :=
  ⟨trivial, fun _ _ => ⟨rfl, rfl⟩⟩

theorem keeps_pure (a : α) : (nestingDiscipline reuse).Keeps f (pure a : Program α) h () :=
  ⟨rfl, rfl⟩

theorem keeps_scope {l : Mutex} {m : Mode} {p : Program α}
    (hl : l = .recursive → .bsockDeletion ∈ lockNames h)
    (hdel : l = .bsockDeletion → .recursive ∉ lockNames h)
    (hp : (nestingDiscipline reuse).Keeps f p ((l, m) :: h) ()) :
    (nestingDiscipline reuse).Keeps f (locked l m p) h () := by
  apply Discipline.obeys_locked.mpr
  constructor
  · exact hl
  · apply hp.mono
    rintro a _ _ ⟨rfl, -⟩
    refine ⟨List.mem_cons_self, fun heq => ?_, List.erase_cons_head _ _, rfl⟩
    subst heq
    simpa using hdel rfl

theorem keeps_inner {l : Mutex} {m : Mode} {p : Program α} (hl : 4 ≤ l.rank)
    (hp : (nestingDiscipline reuse).Keeps f p ((l, m) :: h) ()) :
    (nestingDiscipline reuse).Keeps f (locked l m p) h () := by
  apply keeps_scope
  · rintro rfl
    exact absurd hl (by decide)
  · rintro rfl
    exact absurd hl (by decide)
  · exact hp

theorem keeps_recursive {m : Mode} {p : Program α} (hdel : .bsockDeletion ∈ lockNames h)
    (hp : (nestingDiscipline reuse).Keeps f p ((.recursive, m) :: h) ()) :
    (nestingDiscipline reuse).Keeps f (locked .recursive m p) h () :=
  keeps_scope (fun _ => hdel) (fun heq => by cases heq) hp

theorem keeps_config {m : Mode} (a : SocketAct) :
    (nestingDiscipline reuse).Keeps f (locked .sharedConfig m (act a)) h () :=
  keeps_inner (by decide) (keeps_act a)

theorem keeps_modifyConfig {get : Program (Option BratislavaSocketConfig)}
    {change : BratislavaSocketConfig → BratislavaSocketConfig}
    (hget : (nestingDiscipline reuse).Keeps f get h ()) :
    (nestingDiscipline reuse).Keeps f (Registry.modifyConfig get change) h () := by
  apply hget.bind
  intro found
  cases found with
  | none => exact keeps_pure false
  | some c => exact keeps_config (.updateConfig (change c))

theorem keeps_readConfig {get : Program (Option BratislavaSocketConfig)} {default : α}
    {field : BratislavaSocketConfig → α} (hget : (nestingDiscipline reuse).Keeps f get h ()) :
    (nestingDiscipline reuse).Keeps f (Registry.readConfig get default field) h () := by
  apply hget.bind
  intro found
  cases found with
  | none => exact keeps_pure default
  | some c => exact keeps_pure (field c)

theorem keeps_block {P : AdapterAct → Prop} {ids : String → Prop} {p : Program α}
    (hp : PinnedBlock P x ids α p) : (nestingDiscipline reuse).Keeps f p h () := by
  have hregistry : ∀ {β : Type} {m : Mode} {q : Program β},
      (∀ h, (nestingDiscipline reuse).Keeps f q h ()) →
      (nestingDiscipline reuse).Keeps f (locked .sharedRegistry m q) h () :=
    fun hq => keeps_inner (by decide) (hq _)
  cases hp with
  | only hp => exact Discipline.keeps_only (T := ActsOn P x) (fun a _ => ⟨trivial, fun _ => rfl⟩) hp
  | readLink | hasAdapter => exact keeps_act _
  | connect | disconnect => exact hregistry fun _ => keeps_modifyConfig (keeps_config _)
  | isConnected | getRemotePort | getLocalPort =>
    exact hregistry fun _ => keeps_readConfig (keeps_config _)
  | addLocalPort id =>
    apply hregistry
    intro h
    have hacquire : (nestingDiscipline reuse).Keeps f Registry.acquireLocalPort h () :=
      keeps_inner (by decide) (keeps_act _)
    apply hacquire.bind
    intro port
    split
    · exact keeps_modifyConfig (keeps_config _)
    · exact keeps_pure false

theorem keeps_built {P : AdapterAct → Prop} {ids : String → Prop} {p : Program α}
    (hp : p.Built (PinnedBlock P x ids)) : (nestingDiscipline reuse).Keeps f p h () :=
  Discipline.keeps_built (fun _ _ hq => keeps_block hq) hp

theorem keeps_existsSocket (hdel : .bsockDeletion ∈ lockNames h) :
    (nestingDiscipline reuse).Keeps f (Registry.existsSocket x) h () :=
  keeps_recursive hdel (keeps_act _)

theorem keeps_withPin {m : Mode} {body : Program Status}
    (hbody : (nestingDiscipline reuse).Keeps f body [(.sharedBsock x, m)] ()) :
    (nestingDiscipline reuse).Keeps f (withPin m x body) [] () := by
  have hpin : (nestingDiscipline reuse).Obeys f (pinIfExists m x) [] () fun found h' _ =>
      h' = if found then [(.sharedBsock x, m)] else [] := by
    apply Discipline.obeys_locked.mpr
    refine ⟨fun heq => (by cases heq), (keeps_existsSocket (by simp)).bind fun found => ?_⟩
    cases found with
    | true => exact ⟨fun heq => (by cases heq), by simp, by simp, by simp⟩
    | false => exact ⟨by simp, by simp, by simp⟩
  apply Discipline.obeys_bind.mpr
  apply hpin.mono
  rintro found _ _ rfl
  cases found with
  | true =>
    apply Discipline.Obeys.bind hbody
    rintro status _ _ ⟨rfl, -⟩
    exact ⟨by simp, fun heq => (by cases heq), by simp, rfl⟩
  | false => exact keeps_pure _

theorem keeps_notNull {bsock : Option SocketPtr} {body : SocketPtr → Program Status}
    (hbody : ∀ x, (nestingDiscipline reuse).Keeps f (body x) h ()) :
    (nestingDiscipline reuse).Keeps f (notNull bsock body) h () := by
  cases bsock with
  | none => exact keeps_pure _
  | some x => exact hbody x

theorem keeps_bratislavaSocket (link : BratislavaLink) :
    (nestingDiscipline reuse).Keeps f (bratislavaSocket link) [] () := by
  apply keeps_scope (by simp) (by simp)
  apply keeps_scope (by simp) (by simp)
  have hexists : (nestingDiscipline reuse).Keeps f (Registry.existsId link.linkID) creating () := by
    apply keeps_recursive (by simp [creating])
    apply (keeps_config (.getConfigId link.linkID)).bind
    intro found
    cases found <;> exact keeps_pure _
  apply hexists.bind
  intro found
  cases found with
  | true =>
    apply (keeps_config (.getConfigId link.linkID)).bind
    intro config
    cases config <;> exact keeps_pure _
  | false =>
    apply (keeps_act (.newSocket link)).bind
    intro answer
    cases answer with
    | none => exact keeps_pure none
    | some x =>
      have hadd : (nestingDiscipline reuse).Keeps f (Registry.add x) creating () := by
        apply keeps_recursive (by simp [creating])
        have hconfig : ∀ h, (nestingDiscipline reuse).Keeps f (Registry.createConfigSocket x) h () :=
          fun _ => (keeps_act (.readLink x)).bind fun _ => keeps_config _
        exact (hconfig _).bind fun _ => keeps_act _
      exact hadd.bind fun _ => keeps_pure _

theorem keeps_onLink {link : BratislavaLink} {transfer : SocketPtr → Program Status}
    (htransfer : ∀ x, (transfer x).Built
      (PinnedBlock (MayUse [(.sharedBsock x, .shared)] x) x fun _ => True)) :
    (nestingDiscipline reuse).Keeps f (onLink link transfer) [] () := by
  apply (keeps_bratislavaSocket link).bind
  intro bsock
  cases bsock with
  | none => exact keeps_pure _
  | some x =>
    have hconnected : (connPinned x).Built (PinnedBlock (fun _ => True) x fun _ => True) :=
      built_connPinned (fun _ _ => trivial) fun _ => trivial
    have hconn : (nestingDiscipline reuse).Keeps f (bratislavaConn (some x)) [] () :=
      keeps_withPin (keeps_built hconnected)
    apply hconn.bind
    intro status
    split
    · exact keeps_pure _
    · apply keeps_withPin
      apply (keeps_act (.hasAdapter x)).bind
      intro found
      cases found with
      | true => exact keeps_built (htransfer x)
      | false => exact keeps_pure _

/-! ## `bratislavaDestroy` -/

theorem keeps_interruptIfExists : (nestingDiscipline reuse).Keeps f (interruptIfExists x) [] () := by
  apply keeps_scope (by simp) (by simp)
  apply (keeps_existsSocket (by simp)).bind
  intro found
  cases found with
  | true =>
    have hinterrupt : (nestingDiscipline reuse).Keeps f (BaseAdapter.interrupt x)
        [(.bsockDeletion, .shared)] () :=
      Discipline.keeps_only (fun _ _ => ⟨trivial, fun _ => rfl⟩) (only_interrupt (h := []))
    exact hinterrupt.bind fun _ => keeps_pure _
  | false => exact keeps_pure _

theorem keeps_remove (hdel : .bsockDeletion ∈ lockNames h) :
    (nestingDiscipline reuse).Keeps f (Registry.remove x) h () := by
  apply keeps_recursive hdel
  apply (keeps_act (.findSocket x)).bind
  intro found
  cases found with
  | false => exact keeps_pure _
  | true =>
    have hrelease : ∀ h, (nestingDiscipline reuse).Keeps f (Registry.releaseLocalPortSocket x) h () := by
      intro h
      apply keeps_inner (by decide)
      apply (keeps_config (.getConfigSocket x)).bind
      intro found
      cases found with
      | none => exact keeps_pure _
      | some c =>
        show (nestingDiscipline reuse).Keeps f (if c.localPort = -1 then _ else _) _ _
        split
        · exact keeps_pure _
        · exact keeps_inner (by decide) (keeps_act _)
    apply (hrelease _).bind
    intro _
    have hdisconnect : ∀ h, (nestingDiscipline reuse).Keeps f (Registry.disconnectSocket x) h () :=
      fun _ => keeps_inner (by decide) (keeps_modifyConfig (keeps_config _))
    apply (hdisconnect _).bind
    intro _
    apply (keeps_config (.removeConfig x)).bind
    intro _
    exact (keeps_act (.eraseSocket x)).bind fun _ => keeps_pure _

theorem obeys_destroyLocked : (nestingDiscipline reuse).Obeys f (destroyLocked x) (destroying x [])
    () fun _ h' _ => h' = [] := by
  have hdel : .bsockDeletion ∈ lockNames (destroying x []) := by simp [destroying]
  have hfailed : (nestingDiscipline reuse).Obeys f
      (unlock .bsockCreation .exclusive >>= fun _ => unlock (.sharedBsock x) .exclusive >>= fun _ =>
        unlock .bsockDeletion .exclusive >>= fun _ => (pure ⟨-1, some .EIDRM⟩ : Program Status))
      (destroying x []) () fun _ h' _ => h' = [] := by
    refine ⟨by simp [destroying], fun heq => (by cases heq), ?_⟩
    refine ⟨by simp [destroying], fun heq => (by cases heq), ?_⟩
    refine ⟨by simp [destroying], by simp [destroying], ?_⟩
    show List.erase _ _ = []
    simp [destroying]
  apply (keeps_existsSocket hdel).bind
  intro found
  cases found with
  | false => exact hfailed
  | true =>
    apply (keeps_remove hdel).bind
    intro removed
    cases removed with
    | false => exact hfailed
    | true =>
      refine ⟨trivial, fun _ _ => ?_⟩
      refine ⟨by simp [destroying], fun heq => (by cases heq), ?_⟩
      refine ⟨trivial, fun _ _ => ?_⟩
      refine ⟨by simp [destroying], fun heq => (by cases heq), ?_⟩
      refine ⟨by simp [destroying], by simp [destroying], ?_⟩
      show List.erase _ _ = []
      simp [destroying]

theorem obeys_bratislavaDestroy : (nestingDiscipline reuse).Obeys f (bratislavaDestroy (some x)) []
    () fun _ h' _ => h' = [] := by
  apply keeps_interruptIfExists.bind
  intro found
  cases found with
  | false => exact rfl
  | true =>
    refine ⟨fun heq => (by cases heq), fun heq => (by cases heq), fun heq => (by cases heq), ?_⟩
    exact obeys_destroyLocked

theorem obeys_result {p : Program α} {result : α → CallResult}
    (hp : (nestingDiscipline reuse).Obeys f p [] () fun _ h' _ => h' = []) :
    (nestingDiscipline reuse).Obeys f (p.bind fun a => .pure (result a)) [] ()
      fun _ h' _ => h' = [] ∧ True := by
  apply Discipline.Obeys.bind hp
  intro a h' g' hnil
  exact ⟨hnil, trivial⟩

theorem keeps_pinned {bsock : Option SocketPtr} {m : Mode} {body : SocketPtr → Program Status}
    (hbody : ∀ x, (body x).Built (PinnedBlock (MayUse [(.sharedBsock x, m)] x) x fun _ => True)) :
    (nestingDiscipline reuse).Keeps f
      (notNull bsock fun bsock => withPin m bsock (body bsock)) [] () :=
  keeps_notNull fun x => keeps_withPin (keeps_built (hbody x))

theorem nesting_cover : (nestingDiscipline reuse).Covers Call.Ordinary := by
  rintro f s ⟨hf, hne⟩
  show (nestingDiscipline reuse).Obeys f f.body [] () fun _ h' _ => h' = [] ∧ True
  have hkept : ∀ {α : Type} {p : Program α} {result : α → CallResult},
      (nestingDiscipline reuse).Keeps f p [] () →
      (nestingDiscipline reuse).Obeys f (p.bind fun a => .pure (result a)) [] ()
        fun _ h' _ => h' = [] ∧ True :=
    fun hp => obeys_result (hp.mono fun _ _ _ h => h.1)
  cases f with
  | cleanupLoop | add | remove | createConfig | removeUnusedConfig | addIP | addRemotePort
  | connect | disconnectSocket | disconnectId | method => exact hf.elim
  | cleanup => exact absurd rfl hne
  | bratislavaSocket link => exact hkept (keeps_bratislavaSocket link)
  | bratislavaConn bsock =>
    apply hkept
    apply keeps_pinned
    exact fun _ => built_connPinned (fun _ _ => mayUse_of_pin (by simp) _) fun _ => trivial
  | bratislavaSend bsock =>
    apply hkept
    apply keeps_pinned
    exact fun _ => built_ifConnected (built_withAdapter (built_send (by simp)))
  | bratislavaRecv bsock =>
    apply hkept
    apply keeps_pinned
    exact fun _ => built_ifConnected (built_withAdapter (built_recv (by simp)))
  | bratislavaLinkSend link =>
    apply hkept
    apply keeps_onLink
    exact fun _ => built_send (by simp)
  | bratislavaLinkRecv link =>
    apply hkept
    apply keeps_onLink
    exact fun _ => built_recv (by simp)
  | bratislavaConnTimeout bsock ms =>
    apply hkept
    apply keeps_pinned
    exact fun _ => built_setTimeout (only_setConnTimeout trivial)
  | bratislavaRecvTimeout bsock ms =>
    apply hkept
    apply keeps_pinned
    exact fun _ => built_setTimeout (only_setRecvTimeout trivial trivial trivial)
  | bratislavaDisconnect bsock =>
    apply hkept
    apply keeps_pinned
    exact fun _ => built_disconnectPinned
  | bratislavaDestroy bsock =>
    cases bsock with
    | none => exact ⟨rfl, trivial⟩
    | some x => exact obeys_result obeys_bratislavaDestroy

end Nesting

end SensorLib
