import SensorLib.Comms.ScanRuns
import SensorLib.Threads.Paths

/-! # Who owns the sockets of handshakes and links

Any number of threads scan at the same time, two of them may be in a handshake
with one device, and `stop` ends it all.
-/

namespace SensorLib.Comms

open Threads Runs Descriptors Scans

variable {expected : Expected} {this : RuntimePtr} {w : World commsSystem} {G : Tid → Task}

/-- The socket of the handshake that a thread is in. -/
def inHandshake (w : World commsSystem) (t : Tid) : Option Int :=
  (nextAct w t).bind RuntimeAct.socketFd

def Owns (w : World commsSystem) (c : CommsRuntime) (fd : Int) : Owner → Prop
  | .attempt t => inHandshake w t = some fd
  | .link key => ∃ link ∈ c.activeLinks, link.key = key ∧ link.link.socketFd = fd

/-- The keys are those of the links, each socket has one owner or was closed once, no callback
was made twice, and `stop` has closed every socket. -/
structure LinksOwned (this : RuntimePtr) (w : World commsSystem) : Prop where
  keys : ∃ c, w.state.runtimes.lookup this = some c ∧
    c.activeLinkKeys = (c.activeLinks.map (·.key)).toFinset ∧ (c.activeLinks.map (·.key)).Nodup
  owned : ∀ c, w.state.runtimes.lookup this = some c → ∀ e ∈ w.state.sockets,
    e.closes = 1 ∨ e.closes = 0 ∧ ∃! o, Owns w c e.fd o
  once : (told w.state.log).Nodup
  stopped : ∀ t r, w.thread t = some (.stop this, .pure r) → ∀ e ∈ w.state.sockets, e.closes = 1

/-- In this step the thread takes the active links out of the runtime. -/
def TakesOut (this : RuntimePtr) (t : Tid) (links : List ActiveLink) (w : World commsSystem)
    (op : Op commsSystem) : Prop :=
  op.tid = t ∧ nextAct w t = some .drain ∧
    ∃ c, w.state.runtimes.lookup this = some c ∧ c.activeLinks = links

/-- In this step the thread asks for the callback that is registered for dropped links. -/
def AsksDropped (this : RuntimePtr) (t : Tid) (callback : Option Callback) (w : World commsSystem)
    (op : Op commsSystem) : Prop :=
  op.tid = t ∧ nextAct w t = some .dropCallback ∧
    ∃ c, w.state.runtimes.lookup this = some c ∧ c.callbacks.linkDropped = callback

/-- A call of `stop` that has come to its end took the active links out, and dropped each of them
once with the callback that was registered when it asked for it, if any was. -/
def LinksDropped (this : RuntimePtr) (w : World commsSystem) (ops : List (Op commsSystem)) : Prop :=
  ∀ t r, ((machine commsSystem).run w ops).thread t = some (.stop this, .pure r) →
    ∃ links callback, (machine commsSystem).Sometime (TakesOut this t links) w ops ∧
      (machine commsSystem).Sometime (AsksDropped this t callback) w ops ∧
      droppedIn ((machine commsSystem).run w ops).state.log =
        match callback with
        | none => []
        | some callback => links.map fun link => (callback, link.info)

/-- `stop` starts when nobody is in a call that scans, and no such call starts after it. -/
def StopsLast (this : RuntimePtr) (w : World commsSystem) : Op commsSystem → Prop
  | .start _ f =>
    (f.Stops → w.state.drainedOf this = none ∧
      ∀ u g p, w.thread u = some (g, p) → ¬ g.Scans ∧ ¬ g.Stops) ∧
    (f.Scans → w.state.drainedOf this = none ∧ ∀ u g p, w.thread u = some (g, p) → ¬ g.Stops)
  | .run .. => True

namespace Scans

/-- What a thread knows of its socket can be seen. -/
theorem inHandshake_eq (h : (scanDiscipline this).FollowsAtRest Task.Free (Tended expected this) w G)
    (t : Tid) : inHandshake w t = (G t).fd := (nextAct_eq h.toFollows h.rest t).1

/-- Only one thread stops the runtime, nobody scans besides it, and it takes the links out once. -/
structure Orderly (this : RuntimePtr) (w : World commsSystem) (G : Tid → Task) : Prop where
  alone : ∀ t u f g p q, w.thread t = some (f, p) → w.thread u = some (g, q) → f.Stops →
    g.Stops → t = u
  apart : ∀ t u f g p q, w.thread t = some (f, p) → w.thread u = some (g, q) → f.Stops → ¬ g.Scans
  emptied : w.state.drainedOf this ≠ none → ∀ t f p, w.thread t = some (f, p) →
    ¬ f.Scans ∧ (f.Stops → (G t).closing ≠ .no)

theorem closing_acted {g : Task} {a : RuntimeAct} {x : a.Answer} (h : g.closing ≠ .no) :
    (acted g a x).closing ≠ .no := by
  unfold acted
  split <;> first
    | exact h
    | (split <;> first | exact h | simp)
    | simp

theorem not_scans_of_stops {f : Call} (h : f.Stops) : ¬ f.Scans := by
  cases f with
  | stop => exact id
  | _ => exact h.elim

theorem closing_track {t u : Tid} {e : Choice} (h : (G u).closing ≠ .no) :
    ((scanDiscipline this).track w G (.run t e) u).closing ≠ .no := by
  refine Discipline.track_keeps (D := scanDiscipline this) (R := fun g : Task => g.closing ≠ .no) (fun _ _ _ _ _ hg => hg)
    (fun _ _ _ _ hg => hg) (fun _ g a x hg => ?_) w G t u e h
  cases a with
  | method this' a => exact closing_acted hg
  | _ => exact hg

theorem Orderly.start (h : Orderly this w G) {t : Tid} {f : Call} (hidle : w.thread t = none)
    (hlast : StopsLast this w (.start t f)) :
    Orderly this (w.next (.start t f)) ((scanDiscipline this).track w G (.start t f)) := by
  obtain ⟨hstops, hscans⟩ := hlast
  -- The thread of a call is the new one, or was there before.
  have hcase : ∀ u g p, (w.next (.start t f)).thread u = some (g, p) →
      u = t ∧ g = f ∨ u ≠ t ∧ w.thread u = some (g, p) := by
    intro u g p hu
    by_cases hut : u = t
    · subst hut
      simp only [World.next, World.setThread_thread, Function.update_self, Option.some.injEq] at hu
      exact Or.inl ⟨rfl, (congrArg Prod.fst hu).symm⟩
    · have hold : (w.next (.start t f)).thread u = w.thread u := Function.update_of_ne hut _ _
      exact Or.inr ⟨hut, hold ▸ hu⟩
  refine ⟨fun u v g g' p q hu hv hg hg' => ?_, fun u v g g' p q hu hv hg => ?_,
    fun hdrained u g p hu => ?_⟩
  · rcases hcase u g p hu with ⟨hut, rfl⟩ | ⟨-, hold⟩
    · rcases hcase v g' q hv with ⟨hvt, -⟩ | ⟨-, hold'⟩
      · rw [hut, hvt]
      · exact absurd hg' ((hstops hg).2 v g' q hold').2
    · rcases hcase v g' q hv with ⟨-, rfl⟩ | ⟨-, hold'⟩
      · exact absurd hg ((hstops hg').2 u g p hold).2
      · exact h.alone u v g g' p q hold hold' hg hg'
  · rcases hcase u g p hu with ⟨-, rfl⟩ | ⟨-, hold⟩
    · rcases hcase v g' q hv with ⟨-, rfl⟩ | ⟨-, hold'⟩
      · exact not_scans_of_stops hg
      · exact ((hstops hg).2 v g' q hold').1
    · rcases hcase v g' q hv with ⟨-, rfl⟩ | ⟨-, hold'⟩
      · exact fun hg' => (hscans hg').2 u g p hold hg
      · exact h.apart u v g g' p q hold hold' hg
  · rcases hcase u g p hu with ⟨-, rfl⟩ | ⟨hut, hold⟩
    · exact ⟨fun hg => hdrained (hscans hg).1, fun hg => absurd (hstops hg).1 hdrained⟩
    · refine ⟨(h.emptied hdrained u g p hold).1, fun hg => ?_⟩
      simp only [Discipline.track, Function.update_of_ne hut]
      exact (h.emptied hdrained u g p hold).2 hg

theorem Orderly.run (h : Orderly this w G)
    (hfollows : (scanDiscipline this).FollowsAtRest Task.Free (Tended expected this) w G) {t : Tid}
    {e : Choice} (hop : w.enabled (.run t e) = true) :
    Orderly this (w.next (.run t e)) ((scanDiscipline this).track w G (.run t e)) := by
  refine ⟨fun u v f g p q hu hv => ?_, fun u v f g p q hu hv => ?_, fun hdrained u f p hu => ?_⟩
  · obtain ⟨p', hu'⟩ := World.thread_of_next_run hop hu
    obtain ⟨q', hv'⟩ := World.thread_of_next_run hop hv
    exact h.alone u v f g p' q' hu' hv'
  · obtain ⟨p', hu'⟩ := World.thread_of_next_run hop hu
    obtain ⟨q', hv'⟩ := World.thread_of_next_run hop hv
    exact h.apart u v f g p' q' hu' hv'
  · obtain ⟨p', hu'⟩ := World.thread_of_next_run hop hu
    rcases drainedOf_next hfollows hop with heq | ⟨f', k, hthread⟩
    · obtain ⟨hscans, hstops⟩ := h.emptied (heq ▸ hdrained) u f p' hu'
      exact ⟨hscans, fun hf => closing_track (hstops hf)⟩
    · have hstops : f'.Stops := (hfollows.toFollows.obeys hthread).1.2.2.2.1
      refine ⟨h.apart t u f' f _ p' hthread hu' hstops, fun hf => ?_⟩
      obtain rfl := h.alone t u f' f _ p' hthread hu' hstops hf
      obtain ⟨c, hc, -⟩ := hfollows.invariant
      obtain ⟨x, s, hexec⟩ : ∃ x s, commsSystem.exec (.method this .drain) e w.state = some (x, s) := by
        show ∃ x s, w.state.exec e (.method this .drain) = some (x, s)
        simp only [CommsState.exec, hc]
        exact ⟨_, _, rfl⟩
      rw [Discipline.track_act _ hthread hexec, Function.update_self]
      simp [acted]

/-- What the proofs about links assume of the steps holds where `stop` comes last. -/
theorem Orderly.assumed (h : Orderly this w G)
    (hfollows : (scanDiscipline this).FollowsAtRest Task.Free (Tended {} this) w G) {t : Tid}
    {f : Call} {p : Program CallResult} (hthread : w.thread t = some (f, p)) :
    Assumed {} this w.state f p.head where
  scans hf a ha := by
    by_contra hdrained
    exact (h.emptied hdrained t f p hthread).1 hf
  drains hhead := by
    by_contra hdrained
    cases p with
    | act a k =>
      cases hhead
      obtain ⟨-, -, -, hstops, -, hclosing⟩ := (hfollows.toFollows.obeys hthread).1
      exact (h.emptied hdrained t f _ hthread).2 hstops hclosing
    | _ => cases hhead
  announced _ hmade := absurd hmade (Set.notMem_empty _)

/-! ## What holds of the links -/

/-- A thread that is in a handshake scans. -/
theorem scanner_of_fd
    (h : (scanDiscipline this).FollowsAtRest Task.Free (Tended expected this) w G) {t : Tid} {fd : Int}
    (ht : (G t).fd = some fd) : ∃ f p, w.thread t = some (f, p) ∧ Scanner f (G t) := by
  obtain ⟨a, hnext, hfd⟩ := Option.bind_eq_some_iff.mp ((inHandshake_eq h t).trans ht)
  obtain ⟨f, this', k, hthread⟩ := nextAct_iff.mp hnext
  refine ⟨f, _, hthread, ?_⟩
  obtain ⟨-, -, -, hmay⟩ := (h.toFollows.obeys hthread).1
  cases a with
  | setRemote | connect | send | recv | close | publish => exact hmay
  | _ => cases hfd

theorem owns_iff (h : (scanDiscipline this).FollowsAtRest Task.Free (Tended expected this) w G)
    {c : CommsRuntime} (hdistinct : (c.activeLinks.map (·.key)).Nodup) {o : Owner} {fd : Int} :
    Owns w c fd o ↔ owns c.activeLinks G o = some fd := by
  cases o with
  | attempt t => rw [Owns, inHandshake_eq h, owns]
  | link key =>
    simp only [Owns, owns, Option.map_eq_some_iff]
    constructor
    · rintro ⟨link, hlink, hkey, hfd⟩
      have hsome : (c.activeLinks.find? fun x => decide (x.key = key)).isSome := by
        rw [List.find?_isSome]
        exact ⟨link, hlink, by simpa using hkey⟩
      obtain ⟨x, hx⟩ := Option.isSome_iff_exists.mp hsome
      have hxkey : x.key = key := by simpa using List.find?_some hx
      obtain rfl : x = link := List.inj_on_of_nodup_map hdistinct (List.mem_of_find?_eq_some hx) hlink
        (hxkey.trans hkey.symm)
      exact ⟨x, hx, hfd⟩
    · rintro ⟨link, hlink, hfd⟩
      exact ⟨link, List.mem_of_find?_eq_some hlink, by simpa using List.find?_some hlink, hfd⟩

/-- After the links were taken out nobody owns a socket. -/
theorem Orderly.closed (h : Orderly this w G)
    (hfollows : (scanDiscipline this).FollowsAtRest Task.Free (Tended expected this) w G)
    (hdrained : w.state.drainedOf this ≠ none) {e : Entry} (he : e ∈ w.state.sockets) :
    e.closes = 1 := by
  obtain ⟨c, hc, hwhole⟩ := hfollows.invariant
  rw [CommsState.drainedOf, hc, Option.bind_some] at hdrained
  obtain ⟨links, hlinks⟩ := Option.ne_none_iff_exists'.mp hdrained
  obtain ⟨hdead, hnil⟩ := hwhole.workers.emptied links hlinks
  refine hwhole.links.kept.sane.closes_eq_one he fun hfd => ?_
  obtain ⟨o, ho⟩ := hwhole.links.kept.owned e.fd hfd
  cases o with
  | link key =>
    rw [hnil] at ho
    cases ho
  | attempt t =>
    obtain ⟨f, p, hthread, hscans | hworker⟩ := scanner_of_fd hfollows ho
    · refine (h.emptied ?_ t f p hthread).1 hscans
      rw [CommsState.drainedOf, hc, Option.bind_some]
      exact hdrained
    · rw [hwhole.workers.worker t hworker] at hdead
      exact hdead trivial

theorem linksOwned_of_orderly (h : Orderly this w G)
    (hfollows : (scanDiscipline this).FollowsAtRest Task.Free (Tended expected this) w G) :
    LinksOwned this w := by
  obtain ⟨c, hc, hwhole⟩ := hfollows.invariant
  refine ⟨⟨c, hc, hwhole.links.keys, hwhole.links.distinct⟩, fun c' hc' e he => ?_,
    hwhole.tellings.once, fun t r hthread e he => ?_⟩
  · obtain rfl : c' = c := Option.some.inj (hc'.symm.trans hc)
    by_cases hlive : e.fd ∈ live w.state.sockets
    · by_cases hzero : e.closes = 0
      · obtain ⟨o, ho⟩ := hwhole.links.kept.owned e.fd hlive
        refine Or.inr ⟨hzero, o, (owns_iff hfollows hwhole.links.distinct).mpr ho, fun o' ho' => ?_⟩
        exact hwhole.links.kept.alone o' o e.fd ((owns_iff hfollows hwhole.links.distinct).mp ho') ho
      · have hle := hwhole.links.kept.sane.once e he
        exact Or.inl (by omega)
    · exact Or.inl (hwhole.links.kept.sane.closes_eq_one he hlive)
  · obtain ⟨-, -, hfinished⟩ := hfollows.toFollows.obeys hthread
    obtain ⟨callback, dropped, hclosing, -⟩ := hfinished trivial
    have hclosed := hwhole.closings.closed t
    rw [hclosing] at hclosed
    refine h.closed hfollows ?_ he
    rw [CommsState.drainedOf, hc, Option.bind_some]
    exact hclosed.drained_ne (by simp)

/-! ## What `stop` did before -/

/-- The callback that a call of `stop` has asked for. -/
def Closing.asked : Closing → Option (Option Callback)
  | .dropping callback _ => some callback
  | .no | .drained _ => none

/-- Two moments between which a call of `stop` neither takes links out nor asks for the callback. -/
structure Closing.Same (closing closing' : Closing) : Prop where
  asked : closing'.asked = closing.asked
  no : closing' = .no ↔ closing = .no

theorem Closing.Same.trans {a b c : Closing} (h : a.Same b) (h' : b.Same c) : a.Same c :=
  ⟨h'.asked.trans h.asked, h'.no.trans h.no⟩

theorem same_acted {g : Task} {a : RuntimeAct} {x : a.Answer} (hdrain : a ≠ .drain)
    (hask : a ≠ .dropCallback) : g.closing.Same (acted g a x).closing := by
  have hrefl : g.closing.Same g.closing := ⟨rfl, Iff.rfl⟩
  cases a with
  | drain => exact absurd rfl hdrain
  | dropCallback => exact absurd rfl hask
  | begin worker | finish worker | join worker => cases worker <;> exact hrefl
  | joinable worker => cases worker <;> cases x <;> exact hrefl
  | linkDropped callback info =>
    rcases hclosing : g.closing with _ | _ | ⟨callback', _ | ⟨info', dropped⟩⟩
    · simpa only [acted, hclosing] using hrefl
    · simpa only [acted, hclosing] using hrefl
    · simpa only [acted, hclosing] using hrefl
    · simp only [acted, hclosing]
      exact ⟨rfl, by simp⟩
  | _ => exact hrefl

theorem same_track {t : Tid} {e : Choice} (hdrain : nextAct w t ≠ some .drain)
    (hask : nextAct w t ≠ some .dropCallback) (u : Tid) :
    (G u).closing.Same ((scanDiscipline this).track w G (.run t e) u).closing := by
  refine Discipline.track_keeps_at (D := scanDiscipline this)
    (R := fun g : Task => (G u).closing.Same g.closing) (fun _ _ _ _ _ hg => hg)
    (fun _ _ _ _ hg => hg) (fun f a k hthread _ g x hg => ?_) G u e ⟨rfl, Iff.rfl⟩
  cases a with
  | method this' a =>
    have hnext : nextAct w t = some a := nextAct_iff.mpr ⟨f, this', k, hthread⟩
    exact hg.trans (same_acted (fun heq => hdrain (heq ▸ hnext)) fun heq => hask (heq ▸ hnext))
  | _ => exact hg

/-- The one that is closing the runtime took out the links that are gone, and dropped them with
the callback that it asked for. -/
structure Recalls (this : RuntimePtr) (w : World commsSystem) (before : List (Op commsSystem))
    (G : Tid → Task) : Prop where
  took : ∀ t links, (G t).closing ≠ .no →
    ((machine commsSystem).run w before).state.drainedOf this = some links →
      (machine commsSystem).Sometime (TakesOut this t links) w before
  asked : ∀ t callback, (G t).closing.asked = some callback →
    (machine commsSystem).Sometime (AsksDropped this t callback) w before

namespace Recalls

variable {before : List (Op commsSystem)} {t : Tid} {e : Choice}

theorem start (h : Recalls this w before G) {f : Call} : Recalls this w (before ++ [.start t f])
    ((scanDiscipline this).track ((machine commsSystem).run w before) G (.start t f)) := by
  have hstate : ((machine commsSystem).run w (before ++ [.start t f])).state.drainedOf this =
      ((machine commsSystem).run w before).state.drainedOf this := by
    rw [Machine.run_append]
    rfl
  have hcase : ∀ u, (Function.update G t {} u).closing = .no ∨
      (Function.update G t {} u).closing = (G u).closing := by
    intro u
    by_cases hut : u = t
    · subst hut
      exact Or.inl (by rw [Function.update_self])
    · exact Or.inr (by rw [Function.update_of_ne hut])
  refine ⟨fun u links hu hlinks => ?_, fun u callback hu => ?_⟩
  · have heq := (hcase u).resolve_left hu
    exact (h.took u links (heq ▸ hu) (hstate ▸ hlinks)).later _
  · rcases hcase u with hno | heq
    · have hasked : (Function.update G t {} u).closing.asked = some callback := hu
      rw [hno] at hasked
      cases hasked
    · exact (h.asked u callback (heq ▸ hu)).later _

/-- A step that is not one of the two. -/
theorem keep (h : Recalls this w before G)
    (hstate : (((machine commsSystem).run w before).next (.run t e)).state.drainedOf this =
      ((machine commsSystem).run w before).state.drainedOf this)
    (hdrain : nextAct ((machine commsSystem).run w before) t ≠ some .drain)
    (hask : nextAct ((machine commsSystem).run w before) t ≠ some .dropCallback) :
    Recalls this w (before ++ [.run t e])
      ((scanDiscipline this).track ((machine commsSystem).run w before) G (.run t e)) := by
  refine ⟨fun u links hu hlinks => ?_, fun u callback hu => ?_⟩
  · rw [Machine.run_append] at hlinks
    refine (h.took u links (fun hno => hu ?_) (hstate ▸ hlinks)).later _
    exact (same_track hdrain hask u).no.mpr hno
  · exact (h.asked u callback ((same_track hdrain hask u).asked ▸ hu)).later _

theorem run (h : Recalls this w before G)
    (hfollows : (scanDiscipline this).FollowsAtRest Task.Free (Tended {} this)
      ((machine commsSystem).run w before) G)
    (horderly : Orderly this ((machine commsSystem).run w before) G)
    (hop : ((machine commsSystem).run w before).enabled (.run t e) = true) :
    Recalls this w (before ++ [.run t e])
      ((scanDiscipline this).track ((machine commsSystem).run w before) G (.run t e)) := by
  have hrun : (machine commsSystem).run w (before ++ [.run t e]) =
      ((machine commsSystem).run w before).next (.run t e) := Machine.run_append _ _ _ _
  obtain ⟨c, hc, hwhole⟩ := hfollows.invariant
  by_cases hdrain : nextAct ((machine commsSystem).run w before) t = some .drain
  · -- The links are taken out here, and nobody was closing the runtime.
    obtain ⟨f, this', k, hthread⟩ := nextAct_iff.mp hdrain
    obtain rfl : this' = this := (hfollows.toFollows.obeys hthread).1.1
    have hopen : c.drained = none := by
      have hassumed := (horderly.assumed hfollows hthread).drains rfl
      rwa [CommsState.drainedOf, hc, Option.bind_some] at hassumed
    obtain ⟨s, hexec, hs⟩ : ∃ s, commsSystem.exec (.method this' .drain) e
        ((machine commsSystem).run w before).state = some (c.activeLinks.map ActiveLink.info, s) ∧
          s.drainedOf this' = some c.activeLinks := by
      show ∃ s, CommsState.exec _ e (.method this' .drain) = _ ∧ _
      simp only [CommsState.exec, hc]
      exact ⟨_, rfl, by simp [CommsState.drainedOf, CommsState.set]⟩
    have hnext := World.state_next_act hthread hexec
    have hno : ∀ u, u ≠ t → ((scanDiscipline this').track ((machine commsSystem).run w before) G
        (.run t e) u).closing = .no := by
      intro u hut
      rw [Discipline.track_of_ne (scanDiscipline this') _ G hut]
      exact hwhole.closings.closing_eq_no hopen u
    refine ⟨fun u links hu hlinks => ?_, fun u callback hu => ?_⟩
    · obtain rfl : u = t := by
        by_contra hut
        exact hu (hno u hut)
      rw [hrun, hnext, hs] at hlinks
      exact Machine.sometime_now ⟨rfl, hdrain, c, hc, Option.some.inj hlinks⟩
    · by_cases hut : u = t
      · subst hut
        rw [Discipline.track_act _ hthread hexec, Function.update_self] at hu
        cases hu
      · rw [hno u hut] at hu
        cases hu
  by_cases hask : nextAct ((machine commsSystem).run w before) t = some .dropCallback
  · obtain ⟨f, this', k, hthread⟩ := nextAct_iff.mp hask
    obtain ⟨rfl, -, -, dropped, hclosing⟩ := (hfollows.toFollows.obeys hthread).1
    have hexec : commsSystem.exec (.method this' .dropCallback) e
        ((machine commsSystem).run w before).state =
          some (c.callbacks.linkDropped, ((machine commsSystem).run w before).state) := by
      show CommsState.exec _ e (.method this' .dropCallback) = _
      simp only [CommsState.exec, hc]
      rfl
    have hnext := World.state_next_act hthread hexec
    have hself : ((scanDiscipline this').track ((machine commsSystem).run w before) G
        (.run t e) t).closing = .dropping c.callbacks.linkDropped dropped := by
      rw [Discipline.track_act _ hthread hexec, Function.update_self]
      simp only [acted, hclosing]
    have hother : ∀ u, u ≠ t → (scanDiscipline this').track ((machine commsSystem).run w before) G
        (.run t e) u = G u := fun u hut => Discipline.track_of_ne (scanDiscipline this') _ G hut
    refine ⟨fun u links hu hlinks => ?_, fun u callback hu => ?_⟩
    · rw [hrun, hnext] at hlinks
      refine (h.took u links ?_ hlinks).later _
      by_cases hut : u = t
      · rw [hut, hclosing]
        simp
      · exact hother u hut ▸ hu
    · by_cases hut : u = t
      · subst hut
        rw [hself] at hu
        exact Machine.sometime_now ⟨rfl, hask, c, hc, Option.some.inj hu⟩
      · exact (h.asked u callback (hother u hut ▸ hu)).later _
  · refine h.keep ?_ hdrain hask
    rcases drainedOf_next hfollows hop with heq | ⟨f, k, hthread⟩
    · exact heq
    · exact absurd (nextAct_iff.mpr ⟨f, this, k, hthread⟩) hdrain

/-- A call of `stop` that has come to its end has made the callbacks for what it took out. -/
theorem dropped (h : Recalls this w before G)
    (hfollows : (scanDiscipline this).FollowsAtRest Task.Free (Tended {} this)
      ((machine commsSystem).run w before) G) : LinksDropped this w before := by
  intro t r hthread
  obtain ⟨c, hc, hwhole⟩ := hfollows.invariant
  obtain ⟨-, -, hfinished⟩ := hfollows.toFollows.obeys hthread
  obtain ⟨callback, dropped, hclosing, hdropped⟩ := hfinished trivial
  have hclosed := hwhole.closings.closed t
  rw [hclosing] at hclosed
  obtain ⟨links, hlinks⟩ := Option.ne_none_iff_exists'.mp (hclosed.drained_ne (by simp))
  refine ⟨links, callback, h.took t links (by rw [hclosing]; simp) ?_,
    h.asked t callback (by rw [hclosing]; rfl), ?_⟩
  · rw [CommsState.drainedOf, hc, Option.bind_some]
    exact hlinks
  · cases callback with
    | none => exact hclosed.2
    | some callback =>
      obtain ⟨links', hlinks', heq⟩ := hclosed
      rw [hlinks] at hlinks'
      cases hlinks'
      rw [hdropped (by simp)] at heq
      simpa using heq

end Recalls

/-! ## Runs -/

theorem orderly_start {s : CommsState} : Orderly this (World.quiet s) G where
  alone t u f g p q ht := by cases ht
  apart t u f g p q ht := by cases ht
  emptied _ t f p ht := by cases ht

/-- Where `stop` comes last, what the threads know and what they did before fit together. -/
def Recalled (this : RuntimePtr) (w : World commsSystem) (before : List (Op commsSystem)) : Prop :=
  ∃ G, (scanDiscipline this).FollowsAtRest Task.Free (Tended {} this)
    ((machine commsSystem).run w before) G ∧
      Orderly this ((machine commsSystem).run w before) G ∧ Recalls this w before G

theorem Recalled.next {before : List (Op commsSystem)} {op : Op commsSystem}
    (h : Recalled this w before) (hop : ((machine commsSystem).run w before).enabled op = true)
    (hlast : StopsLast this ((machine commsSystem).run w before) op)
    (hcall : ∀ t f, op = Op.start t f → f.OnRuntime this) : Recalled this w (before ++ [op]) := by
  obtain ⟨G, hfollows, horderly, hrecalls⟩ := h
  refine ⟨(scanDiscipline this).track ((machine commsSystem).run w before) G op, ?_, ?_, ?_⟩
  · rw [Machine.run_append]
    refine hfollows.next scans_sound scans_cover hop ?_
    cases op with
    | start t f => exact hcall t f rfl
    | run t e => exact fun f p hthread => horderly.assumed hfollows hthread
  · rw [Machine.run_append]
    cases op with
    | start t f => exact horderly.start (World.start_enabled.mp hop) hlast
    | run t e => exact horderly.run hfollows hop
  · cases op with
    | start t f => exact hrecalls.start
    | run t e => exact hrecalls.run hfollows horderly hop

end Scans

open Scans

theorem links_owned {s : CommsState} (hs : s.JustStarted this) {ops : List (Op commsSystem)}
    (hcalls : Calls (Call.OnRuntime this) ops)
    (hlegal : (machine commsSystem).Legal (World.quiet s) ops)
    (hlast : (machine commsSystem).Each (StopsLast this) (World.quiet s) ops) :
    (machine commsSystem).Always (LinksOwned this) (World.quiet s) ops ∧
      LinksDropped this (World.quiet s) ops := by
  have hstart : Recalled this (World.quiet s) [] := by
    refine ⟨fun _ => {}, follows_start hs rfl rfl, orderly_start, fun t links hno => ?_,
      fun t callback hasked => ?_⟩
    · exact absurd rfl hno
    · cases hasked
  have hrecalled : ∀ before, before <+: ops → Recalled this (World.quiet s) before := by
    refine Machine.Each.remembered (M := machine commsSystem) ?_
      (Machine.Each.and (Machine.Each.and hlegal hlast) (hcalls.each _)) hstart
    rintro before op hbefore ⟨⟨hop, hlast⟩, hcall⟩
    exact hbefore.next hop hlast hcall
  refine ⟨Machine.always_of_prefix fun before hbefore => ?_, ?_⟩
  · obtain ⟨G, hfollows, horderly, -⟩ := hrecalled before hbefore
    exact linksOwned_of_orderly horderly hfollows
  · obtain ⟨G, hfollows, -, hrecalls⟩ := hrecalled ops (List.prefix_refl ops)
    exact hrecalls.dropped hfollows

/-- The condition that `StopsLast` puts on the start of a call, for the threads below `n`. -/
def CallsInOrder (this : RuntimePtr) (n : Nat) (w : World commsSystem) (f : Call) : Prop :=
  (f.Stops → w.state.drainedOf this = none ∧
    ∀ u < n, ∀ g ∈ (w.thread u).map Prod.fst, ¬ Call.Scans g ∧ ¬ Call.Stops g) ∧
  (f.Scans → w.state.drainedOf this = none ∧
    ∀ u < n, ∀ g ∈ (w.thread u).map Prod.fst, ¬ Call.Stops g)

instance (this : RuntimePtr) (n : Nat) (w : World commsSystem) (f : Call) :
    Decidable (CallsInOrder this n w f) := inferInstanceAs (Decidable (_ ∧ _))

/-- Where only the threads below `n` run, only these need to be looked at. -/
theorem stopsLast_of_lt {n : Nat} {s : CommsState} {ops : List (Op commsSystem)}
    (hlegal : (machine commsSystem).Legal (World.quiet s) ops) (hn : ∀ op ∈ ops, op.tid < n)
    (h : (machine commsSystem).Each (fun w op => ∀ f ∈ op.started, CallsInOrder this n w f)
      (World.quiet s) ops) :
    (machine commsSystem).Each (StopsLast this) (World.quiet s) ops := by
  refine Machine.Each.mono ?_ (Machine.Each.and (each_idle hlegal hn) h)
  rintro w op ⟨hidle, hop⟩
  cases op with
  | run t e => trivial
  | start t f =>
    have hbelow : ∀ u g p, w.thread u = some (g, p) → u < n ∧ g ∈ (w.thread u).map Prod.fst := by
      intro u g p hu
      refine ⟨?_, by simp [hu]⟩
      by_contra hge
      rw [hidle u (Nat.not_lt.mp hge)] at hu
      cases hu
    obtain ⟨hstops, hscans⟩ := hop f rfl
    refine ⟨fun hf => ⟨(hstops hf).1, fun u g p hu => ?_⟩,
      fun hf => ⟨(hscans hf).1, fun u g p hu => ?_⟩⟩
    · obtain ⟨hlt, hg⟩ := hbelow u g p hu
      exact (hstops hf).2 u hlt g hg
    · obtain ⟨hlt, hg⟩ := hbelow u g p hu
      exact (hscans hf).2 u hlt g hg

/-- A thread scans, and gets a reply from the one device it finds, on the descriptor `fd`. -/
def scanOf (t : Tid) (fd : Int) (callbacks : Nat) : List (Op commsSystem) :=
  .run t { devices := some [⟨"aa"⟩] } :: List.replicate (1 + callbacks) (.run t {}) ++
    [.run t { fd }] ++ List.replicate 4 (.run t {})

/-- Two threads complete a handshake with one device, on a descriptor each, before either of them
publishes the link. Then the runtime is stopped. -/
def twoHandshakes : List (Op commsSystem) :=
  .start 0 (.discoverLinks 0 .comms true) :: .start 1 (.discoverLinks 0 .comms true) ::
    (scanOf 0 5 1 ++ scanOf 1 6 0 ++ List.replicate 5 (.run 0 {}) ++ List.replicate 4 (.run 1 {}) ++
      .start 2 (.stop 0) :: List.replicate 7 (.run 2 {}))

theorem links_owned_two_handshakes :
    ((machine commsSystem).Always (LinksOwned 0) (World.quiet (.startedWith ⟨some 1, some 2, some 3, some 4⟩)) twoHandshakes ∧
      LinksDropped 0 (World.quiet (.startedWith ⟨some 1, some 2, some 3, some 4⟩)) twoHandshakes) ∧
      ((machine commsSystem).run (World.quiet (.startedWith ⟨some 1, some 2, some 3, some 4⟩)) twoHandshakes).state.sockets =
        [⟨6, 1⟩, ⟨5, 1⟩] := by
  have hlegal : (machine commsSystem).Legal (World.quiet (.startedWith ⟨some 1, some 2, some 3, some 4⟩)) twoHandshakes := by
    decide +kernel
  refine ⟨links_owned ⟨⟨_, rfl, rfl, rfl, rfl, rfl, rfl⟩, rfl, rfl⟩ ?_ hlegal
    (stopsLast_of_lt (n := 3) hlegal (by decide +kernel) (by decide +kernel)), by decide +kernel⟩
  intro t f hmem
  simp [twoHandshakes, scanOf] at hmem
  rcases hmem with ⟨_, rfl⟩ | ⟨_, rfl⟩ | ⟨_, rfl⟩ <;> rfl

end SensorLib.Comms
