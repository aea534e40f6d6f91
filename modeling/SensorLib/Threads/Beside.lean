import SensorLib.Threads.Discipline

/-! # Two disciplines side by side

Programs are checked against each discipline on its own. What the second one
makes known may be related to the state with the help of the first one.
-/

namespace Threads

namespace Discipline

variable {S : Signature} {Y : System S}

/-- A relation between the state, the locks and what is known on both sides, kept by the steps that
both disciplines allow where the invariant of the first one holds. -/
structure SoundBeside (D D' : Discipline Y) (R : D.Ghost → Prop)
    (I : Y.State → (Tid → Held S) → (Tid → D.Ghost) → Prop)
    (J : Y.State → (Tid → Held S) → (Tid → D.Ghost) → (Tid → D'.Ghost) → Prop) : Prop where
  start : ∀ s H G G' t f, J s H G G' → H t = [] → R (G t) →
    J s H (Function.update G t (D.initial f s)) (Function.update G' t (D'.initial f s))
  lock : ∀ s H G G' t f l m, J s H G G' → D.mayLock f (H t) (G t) l m →
    D'.mayLock f (H t) (G' t) l m →
    J s (Function.update H t ((l, m) :: H t)) (Function.update G t (D.locked f (H t) (G t) l m))
      (Function.update G' t (D'.locked f (H t) (G' t) l m))
  unlock : ∀ s H G G' t l m, J s H G G' → (l, m) ∈ H t →
    J s (Function.update H t ((H t).erase (l, m)))
      (Function.update G t (D.unlocked (H t) (G t) l m))
      (Function.update G' t (D'.unlocked (H t) (G' t) l m))
  act : ∀ s H G G' t f a e x s', Excludes H → I s H G → J s H G G' →
    D.mayAct f (H t) (G t) a → D'.mayAct f (H t) (G' t) a → Y.exec a e s = some (x, s') →
    J s' H (Function.update G t (D.acted (H t) (G t) a x))
      (Function.update G' t (D'.acted (H t) (G' t) a x))
  answers : ∀ h g a x, D'.answers h g a x
  call : ∀ f p h g, D'.mayCall f p h g → D'.Obeys f (Y.body p) h g (D'.returns p h g)

variable {D D' : Discipline Y} {R : D.Ghost → Prop}
  {I : Y.State → (Tid → Held S) → (Tid → D.Ghost) → Prop}
  {J : Y.State → (Tid → Held S) → (Tid → D.Ghost) → (Tid → D'.Ghost) → Prop} {w : World Y}
  {G : Tid → D.Ghost} {G' : Tid → D'.Ghost}

/-- The second discipline is followed on its own. -/
theorem SoundBeside.sound (h : SoundBeside D D' R I J) :
    D'.Sound (fun _ _ _ => True) fun _ _ _ => True where
  start _ _ _ _ _ _ _ := trivial
  lock _ _ _ _ _ _ _ _ _ _ _ _ := trivial
  unlock _ _ _ _ _ _ _ _ _ _ := trivial
  act _ _ _ _ _ _ _ _ _ _ _ _ _ _ := ⟨h.answers _ _ _ _, trivial⟩
  call := h.call

theorem SoundBeside.next (h : SoundBeside D D' R I J) (hD : D.FollowsAtRest R I w G)
    (hD' : D'.Follows (fun _ _ _ => True) w G') (hJ : J w.state w.heldBy G G') {op : Op Y}
    (hop : w.enabled op = true) :
    J (w.next op).state (w.next op).heldBy (D.track w G op) (D'.track w G' op) := by
  cases op with
  | start t f =>
    have hidle := World.start_enabled.mp hop
    have hheld : w.heldBy t = [] := by
      have ht := hD.threads t
      rwa [ThreadObeys, hidle] at ht
    exact h.start w.state w.heldBy G G' t f hJ hheld (hD.rest t hidle)
  | run t e =>
    have hran := World.ran hop
    generalize hw : w.next (.run t e) = w' at hran
    cases hran with
    | done hthread | call hthread =>
      simp only [track, hthread]
      exact hJ
    | @lock f l m k hthread hfree =>
      have hheld : World.heldBy { w.setThread t (some (f, k)) with
          holds := (t, l, m) :: w.holds } =
          Function.update w.heldBy t ((l, m) :: w.heldBy t) := World.heldBy_cons rfl
      simp only [track, hthread]
      rw [hheld]
      exact h.lock w.state w.heldBy G G' t f l m hJ (hD.toFollows.obeys hthread).1
        (hD'.obeys hthread).1
    | @unlock f l m k hthread =>
      have hheld : World.heldBy { w.setThread t (some (f, k)) with
          holds := w.holds.erase (t, l, m) } =
          Function.update w.heldBy t ((w.heldBy t).erase (l, m)) := World.heldBy_erase rfl
      simp only [track, hthread]
      rw [hheld]
      exact h.unlock w.state w.heldBy G G' t l m hJ (hD.toFollows.obeys hthread).1
    | act hthread hexec =>
      rw [track_act D hthread hexec, track_act D' hthread hexec]
      exact h.act w.state w.heldBy G G' t _ _ e _ _ (excludes_of_exclusion hD.exclusion)
        hD.invariant hJ (hD.toFollows.obeys hthread).1 (hD'.obeys hthread).1 hexec

end Discipline

end Threads
