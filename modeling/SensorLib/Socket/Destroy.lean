import SensorLib.Socket.Pins

/-! # A handle is destroyed once

`bratislavaDestroy` looks the handle up, gives the deletion lock back and takes
it again. Where the handle is still registered then, nothing is touched after
it is deleted. A second destroyer that gets in between locks the mutex of a
deleted socket.
-/

namespace SensorLib

open Threads Runs Handles

/-- Where a destroyer takes the deletion lock for good, its handle is still registered. -/
def findsRegistered (w : World (socketSystem false)) : Op (socketSystem false) → Bool
  | .start .. => true
  | .run t _ =>
    match w.thread t with
    | some (.bratislavaDestroy (some x), .lock .bsockDeletion .exclusive _) =>
      decide (x ∈ w.state.registry.sockets)
    | _ => true

/-- No handle was deleted twice, and no thread is about to touch one that was deleted. -/
structure NothingStale (w : World (socketSystem false)) : Prop where
  once : w.state.deleted.Nodup
  untouched : ∀ t f p x, w.thread t = some (f, p) → Touches x p.head → x ∉ w.state.deleted

/-- What is asked of a run: nothing stale at any time, and every registered handle that a call
of `bratislavaDestroy` is given is deleted when the call has returned. -/
structure DestroysOnce (s : SharedState) (ops : List (Op (socketSystem false))) : Prop where
  stale : (machine (socketSystem false)).Always NothingStale (World.quiet s) ops
  deleted : ∀ before after t x,
    ops = before ++ .start t (.bratislavaDestroy (some x)) :: after →
    x ∈ ((machine (socketSystem false)).run (World.quiet s) before).state.registry.sockets →
    ((machine (socketSystem false)).run (World.quiet s) ops).thread t = none →
      x ∈ ((machine (socketSystem false)).run (World.quiet s) ops).state.deleted

theorem meets_strict {ops : List (Op (socketSystem false))} (hcalls : Calls Call.Api ops)
    {w : World (socketSystem false)}
    (hfinds : (machine (socketSystem false)).Each (fun w op => findsRegistered w op = true) w ops) :
    (machine (socketSystem false)).Each (Discipline.Meets Call.Api (Returns true)) w ops := by
  refine Machine.Each.mono (fun w op hop => ?_) (Machine.Each.and (hcalls.each w) hfinds)
  cases op with
  | start t f => exact hop.1 t f rfl
  | run t e =>
    rintro f p hthread - x rfl hhead
    cases p with
    | lock l m k =>
      cases hhead
      have hop := hop.2
      simp only [findsRegistered, hthread] at hop
      exact of_decide_eq_true hop
    | pure | unlock | act | call => cases hhead

/-- A thread that follows the discipline strictly touches nothing that was deleted. -/
theorem nothingStale_of_disciplined {w : World (socketSystem false)}
    (hw : Disciplined false true w) : NothingStale w := by
  obtain ⟨G, hG⟩ := hw
  have hsafe := hG.invariant
  have hpast := (hsafe.history rfl).past
  refine ⟨hpast.deletedNodup, fun t f p x hthread htouch hdel => ?_⟩
  have hobeys := hG.obeys hthread
  have hheap (h : x ∈ w.state.heap) : False := hpast.deletedDead x hdel h
  have hknown (h : (G t).known = some x) : False :=
    (hsafe.alive ((hsafe.thread t).known x h).1).notDeleted hdel
  have hfresh (h : (G t).fresh = some x) : False :=
    hheap (SharedState.adapterOf_isSome_mem ((hsafe.thread t).fresh x h).2.1)
  have howned (b : Bool) (h : (G t).owned = some (x, b)) : False :=
    hheap ((hsafe.thread t).owned x b h).2.1
  cases p with
  | pure | call => exact htouch
  | lock l m k =>
    rcases hobeys.1.2 x htouch with hk | ⟨hstrict, _⟩
    · exact hknown hk
    · cases hstrict
  | unlock l m k =>
    rcases hobeys.2.1.alive rfl x htouch with hk | ⟨b, hb⟩
    · exact hknown hk
    · exact howned b hb
  | act a k =>
    have hmay : MayAct f (w.heldBy t) (G t) a := hobeys.1
    cases a with
    | readLink y =>
      cases htouch
      exact hmay.elim hknown hfresh
    | hasAdapter y =>
      cases htouch
      exact hknown hmay
    | adapter y act =>
      cases htouch
      exact hknown hmay.1
    | deleteAdapter y =>
      cases htouch
      exact howned _ hmay.1
    | deleteSocket y =>
      cases htouch
      exact howned _ hmay.1
    | _ => exact htouch

/-! ## A destroyer returns when its handle is deleted -/

/-- A thread does not forget which handle it was given. -/
theorem seen_constant (reuse strict : Bool) :
    (handleDiscipline reuse strict).Constant Knowledge.seen where
  locked f h g l m := by
    show (Handles.locked strict f g l m).seen = g.seen
    rcases locked_eq strict f g l m with heq | ⟨_, _, _, _, _, heq⟩ <;> rw [heq]
  unlocked _ _ _ _ := rfl
  acted h g a x := by
    show (acted h g a x).seen = g.seen
    unfold acted
    split
    · split
      · rfl
      · split <;> rfl
    all_goals rfl

/-- The handle is deleted, or the call that is to delete it still runs. -/
def DeletedBy (t : Tid) (x : SocketPtr) (w : World (socketSystem false)) (G : Tid → Knowledge) :
    Prop :=
  x ∈ w.state.deleted ∨
    ∃ p, w.thread t = some (.bratislavaDestroy (some x), p) ∧ (G t).seen = some x

theorem DeletedBy.next {w : World (socketSystem false)} {G : Tid → Knowledge} {t : Tid}
    {x : SocketPtr} (h : DeletedBy t x w G)
    (hG : (handleDiscipline false true).Follows (Safe false) w G)
    {op : Op (socketSystem false)} (hop : w.enabled op = true) :
    DeletedBy t x (w.next op) ((handleDiscipline false true).track w G op) := by
  rcases h with hdel | ⟨p, hthread, hseen⟩
  · exact Or.inl ((history_next hop).2 hdel)
  rcases World.thread_next hop hthread with ⟨r, rfl⟩ | ⟨p', hthread'⟩
  · have hfinished := (hG.obeys hthread).2
    exact Or.inl ((history_next hop).2
      ((hG.invariant.history rfl).gone t x hseen (hfinished rfl hseen)))
  · refine Or.inr ⟨p', hthread', ?_⟩
    cases op with
    | start u f =>
      have hu : t ≠ u := by
        rintro rfl
        rw [World.start_enabled.mp hop] at hthread
        cases hthread
      simp only [Discipline.track, Function.update_of_ne hu, hseen]
    | run u e => exact ((seen_constant false true).track w G u t e).trans hseen

/-- Where every destroyer that comes back finds its handle registered, each handle is destroyed
once, and nobody touches it after that. -/
theorem destroys_once {s : SharedState} (hs : s.Settled) {ops : List (Op (socketSystem false))}
    (hcalls : Calls Call.Api ops)
    (hlegal : (machine (socketSystem false)).Legal (World.quiet s) ops)
    (hfinds : (machine (socketSystem false)).Each (fun w op => findsRegistered w op = true)
      (World.quiet s) ops) : DestroysOnce s ops := by
  have hmeets := meets_strict hcalls hfinds
  refine ⟨?_, ?_⟩
  · exact Machine.Each.always (M := machine (socketSystem false)) (I := Disciplined false true)
      (fun w op hw hop => Discipline.Follows.step handles_sound handles_cover hw hop)
      (fun w hw => nothingStale_of_disciplined hw) (Machine.Each.and hlegal hmeets)
      (hs.disciplined false true)
  · rintro before after t x rfl hx hidle
    have hall := (Machine.each_append _ _ _).mp (Machine.Each.and hlegal hmeets)
    obtain ⟨hbefore, ⟨hop, hstart⟩, hafter⟩ := hall
    obtain ⟨G, hG⟩ := Machine.Each.invariant (M := machine (socketSystem false))
      (I := Disciplined false true)
      (fun w op hw hop => Discipline.Follows.step handles_sound handles_cover hw hop)
      hbefore (hs.disciplined false true)
    rw [Machine.run_append, Machine.run_cons] at hidle ⊢
    generalize (machine (socketSystem false)).run (World.quiet s) before = w at *
    have hnext := hG.next handles_sound handles_cover hop hstart
    have hby : DeletedBy t x (w.next (.start t (.bratislavaDestroy (some x))))
        ((handleDiscipline false true).track w G (.start t (.bratislavaDestroy (some x)))) := by
      refine Or.inr ⟨_, Function.update_self _ _ _, ?_⟩
      simp only [Discipline.track, Function.update_self]
      exact if_pos hx
    have hkeeps : ∀ w op, (∃ G, (handleDiscipline false true).Follows (Safe false) w G ∧
        DeletedBy t x w G) → w.enabled op = true ∧ Discipline.Meets Call.Api (Returns true) w op →
        ∃ G, (handleDiscipline false true).Follows (Safe false) (w.next op) G ∧
          DeletedBy t x (w.next op) G := by
      rintro w op ⟨G, hG, hby⟩ hop
      exact ⟨_, hG.next handles_sound handles_cover hop.1 hop.2, hby.next hG hop.1⟩
    obtain ⟨G', -, hby'⟩ := Machine.Each.invariant (M := machine (socketSystem false))
      hkeeps hafter ⟨_, hnext, hby⟩
    rcases hby' with hdel | ⟨p, hthread, -⟩
    · exact hdel
    · exact absurd (hidle.symm.trans hthread) (by simp)

/-- Two threads destroy the handle, one after the other. -/
def destroyersInTurn : List (Op (socketSystem false)) :=
  .start 0 (.bratislavaDestroy (some 1)) :: List.replicate 46 (.run 0 {}) ++
    .start 1 (.bratislavaDestroy (some 1)) :: List.replicate 6 (.run 1 {})

theorem destroys_once_in_turn : DestroysOnce .onePeer destroyersInTurn := by
  refine destroys_once SharedState.onePeer_settled ?_ (by decide +kernel) (by decide +kernel)
  intro t f hmem
  simp [destroyersInTurn] at hmem
  rcases hmem with ⟨_, rfl⟩ | ⟨_, rfl⟩ <;> trivial

/-- Both threads look the handle up before either comes back to destroy it. -/
def twoDestroyers : List (Op (socketSystem false)) :=
  .start 0 (.bratislavaDestroy (some 1)) :: .start 1 (.bratislavaDestroy (some 1)) ::
    List.replicate 14 (.run 0 {}) ++ List.replicate 11 (.run 1 {}) ++
    List.replicate 32 (.run 0 {}) ++ [.run 1 {}]

/-- The second destroyer comes to lock the mutex of the socket that the first one deleted. -/
theorem second_destroyer_touches_deleted : ¬ ∀ ops : List (Op (socketSystem false)),
    Calls Call.Api ops →
    (machine (socketSystem false)).Legal (World.quiet .onePeer) ops → DestroysOnce .onePeer ops := by
  intro h
  have hcalls : Calls Call.Api twoDestroyers := by
    intro t f hmem
    simp [twoDestroyers] at hmem
    rcases hmem with ⟨_, rfl⟩ | ⟨_, rfl⟩ <;> trivial
  have hstale := (h twoDestroyers hcalls (by decide +kernel)).stale.last
  have hlock : ((machine (socketSystem false)).run (World.quiet .onePeer) twoDestroyers).atLock 1
      (.sharedBsock 1) = true := by decide +kernel
  have hdeleted : 1 ∈ ((machine (socketSystem false)).run (World.quiet .onePeer)
      twoDestroyers).state.deleted := by decide +kernel
  obtain ⟨f, m, k, hthread⟩ := World.atLock_iff _ |>.mp hlock
  exact hstale.untouched 1 f _ 1 hthread rfl hdeleted

end SensorLib
