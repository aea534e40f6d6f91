import SensorLib.Comms.ScanPrograms

/-! # What scans leave a runtime in -/

namespace SensorLib.Comms

open Threads Descriptors

/-- Who owns a socket: the thread that attempts a handshake on it, or the link with the key. -/
inductive Owner
  | attempt (t : Tid)
  | link (key : String)
  deriving DecidableEq

/-- The discoveries that a callback was made for. -/
def told (log : List Event) : List Discovery := log.filterMap Event.discovery

def droppedIn (log : List Event) : List (Callback × BratislavaLinkInfo) :=
  log.filterMap Event.dropped

/-- The discovery that an act marks. -/
def RuntimeAct.marks : RuntimeAct → Option Discovery
  | .see peer => some peer.discovery
  | .publish link => some (.link link.key)
  | _ => none

namespace Scans

def owns (links : List ActiveLink) (G : Tid → Task) : Owner → Option Int
  | .attempt t => (G t).fd
  | .link key => (links.find? fun link => decide (link.key = key)).map fun link =>
      link.link.socketFd

section Owns

variable {links : List ActiveLink} {link : ActiveLink} {G : Tid → Task} {t : Tid} {g : Task}

theorem owns_update : owns links (Function.update G t g) =
    Function.update (owns links G) (.attempt t) g.fd := by
  funext o
  cases o with
  | attempt u =>
    by_cases hu : u = t
    · subst hu
      simp [owns]
    · simp [owns, hu]
  | link key => simp [owns]

theorem owns_update_of_eq (hfd : g.fd = (G t).fd) :
    owns links (Function.update G t g) = owns links G := by
  rw [owns_update, hfd]
  exact Function.update_eq_self (Owner.attempt t) (owns links G)

theorem owns_push (hkey : link.key ∉ links.map (·.key)) : owns (links ++ [link]) G =
    Function.update (owns links G) (.link link.key) (some link.link.socketFd) := by
  funext o
  cases o with
  | attempt u => simp [owns]
  | link key =>
    have hnone : links.find? (fun x => decide (x.key = link.key)) = none := by
      simp only [List.find?_eq_none, decide_eq_true_eq]
      exact fun x hx heq => hkey (heq ▸ List.mem_map_of_mem hx)
    by_cases hk : key = link.key
    · subst hk
      simp [owns, hnone]
    · have hk' : ¬ link.key = key := fun heq => hk heq.symm
      simp [owns, hk, hk', List.find?_append]

theorem owns_tail (hkey : link.key ∉ links.map (·.key)) :
    Function.update (owns (link :: links) G) (.link link.key) none = owns links G := by
  funext o
  cases o with
  | attempt u => simp [owns]
  | link key =>
    by_cases hk : key = link.key
    · subst hk
      have hnone : links.find? (fun x => decide (x.key = link.key)) = none := by
        simp only [List.find?_eq_none, decide_eq_true_eq]
        exact fun x hx heq => hkey (heq ▸ List.mem_map_of_mem hx)
      simp [owns, hnone]
    · have hk' : ¬ link.key = key := fun heq => hk heq.symm
      simp [owns, hk, hk']

end Owns

/-! ## The links and the sockets -/

/-- The keys are those of the links, which are distinct, and each open socket has one owner. -/
structure Links (c : CommsRuntime) (sockets : Table) (G : Tid → Task) : Prop where
  keys : c.activeLinkKeys = (c.activeLinks.map (·.key)).toFinset
  distinct : (c.activeLinks.map (·.key)).Nodup
  kept : Kept sockets (owns c.activeLinks G)

namespace Links

variable {c c' : CommsRuntime} {sockets : Table} {G : Tid → Task} {t : Tid} {g : Task} {fd : Int}
  {link : ActiveLink}

theorem congr (h : Links c sockets G) (hlinks : c'.activeLinks = c.activeLinks)
    (hkeys : c'.activeLinkKeys = c.activeLinkKeys) (hfd : g.fd = (G t).fd) :
    Links c' sockets (Function.update G t g) := by
  refine ⟨?_, ?_, ?_⟩
  · rw [hkeys, hlinks]
    exact h.keys
  · rw [hlinks]
    exact h.distinct
  · rw [hlinks, owns_update_of_eq hfd]
    exact h.kept

theorem opened (h : Links c sockets G) (hfd : 0 ≤ fd) (hnew : fd ∉ live sockets)
    (ht : (G t).fd = none) (hg : g.fd = some fd) :
    Links c (opened sockets fd) (Function.update G t g) :=
  ⟨h.keys, h.distinct, by
    rw [owns_update, hg]
    exact h.kept.opened (o := Owner.attempt t) hfd hnew ht⟩

theorem closed (h : Links c sockets G) (ht : (G t).fd = some fd) (hg : g.fd = none) :
    Links c (closed fd sockets) (Function.update G t g) :=
  ⟨h.keys, h.distinct, by
    rw [owns_update, hg]
    exact h.kept.closed (o := Owner.attempt t) ht⟩

theorem notMem_of_key (h : Links c sockets G) (hkey : link.key ∉ c.activeLinkKeys) :
    link.key ∉ c.activeLinks.map (·.key) := by
  rwa [h.keys, List.mem_toFinset] at hkey

theorem pushed (h : Links c sockets G) (ht : (G t).fd = some link.link.socketFd)
    (hkey : link.key ∉ c.activeLinkKeys) (hg : g.fd = none) :
    Links (c.pushLink link) sockets (Function.update G t g) := by
  have hnotin := h.notMem_of_key hkey
  refine ⟨?_, ?_, ?_⟩
  · show insert link.key c.activeLinkKeys = ((c.activeLinks ++ [link]).map (·.key)).toFinset
    rw [h.keys, List.map_append, List.toFinset_append]
    ext key
    simp
  · show ((c.activeLinks ++ [link]).map (·.key)).Nodup
    rw [List.map_append]
    exact List.nodup_append'.mpr ⟨h.distinct, List.nodup_singleton _, by simpa using hnotin⟩
  · show Kept sockets (owns (c.activeLinks ++ [link]) (Function.update G t g))
    rw [owns_push hnotin, owns_update, hg]
    refine h.kept.handed (o := Owner.attempt t) ht ?_
    simp only [owns, Option.map_eq_none_iff, List.find?_eq_none, decide_eq_true_eq]
    exact fun x hx heq => hnotin (heq ▸ List.mem_map_of_mem hx)

/-- Every socket of a link is closed as the links are taken out. -/
theorem kept_foldl {links : List ActiveLink} (hdistinct : (links.map (·.key)).Nodup)
    (h : Kept sockets (owns links G)) :
    Kept (links.foldl (fun T link => closeIfOpen T link.link.socketFd) sockets) (owns [] G) := by
  induction links generalizing sockets with
  | nil => exact h
  | cons link links ih =>
    obtain ⟨hnotin, hdistinct⟩ := List.nodup_cons.mp hdistinct
    have howns : owns (link :: links) G (.link link.key) = some link.link.socketFd := by simp [owns]
    have hnonneg := h.sane.nonneg_of_live (h.isLive _ _ howns)
    have hclosed := h.closed howns
    rw [owns_tail hnotin] at hclosed
    rw [List.foldl_cons, closeIfOpen, if_pos hnonneg]
    exact ih hdistinct hclosed

theorem drained (h : Links c sockets G) (hg : g.fd = (G t).fd) {links : Option (List ActiveLink)} :
    Links { c with activeLinks := [], activeLinkKeys := ∅, drained := links }
      (c.activeLinks.foldl (fun T link => closeIfOpen T link.link.socketFd) sockets)
      (Function.update G t g) :=
  ⟨rfl, List.nodup_nil, by
    rw [owns_update_of_eq hg]
    exact kept_foldl h.distinct h.kept⟩

end Links

/-! ## Callbacks for discoveries -/

/-- What is marked, as long as nothing was taken out. -/
def Was (c : CommsRuntime) (d : Discovery) : Prop := c.drained = none → c.Marked d

/-- What is expected of discoveries: those in `marked` are marked, the callbacks of those in
`made` are made or owed once they are, and those in `missed` were marked without one. -/
structure Expected where
  marked : Set Discovery := ∅
  made : Set Discovery := ∅
  missed : Set Discovery := ∅

/-- One callback at most is made or owed for what was marked first. -/
structure Tellings (expected : Expected) (c : CommsRuntime) (log : List Event)
    (G : Tid → Task) : Prop where
  once : (told log).Nodup
  was : ∀ d ∈ told log, Was c d
  telling : ∀ t d, (G t).telling = some d → Was c d ∧ d ∉ told log
  alone : ∀ t u d, (G t).telling = some d → (G u).telling = some d → t = u
  marked : ∀ d ∈ expected.marked, Was c d
  made : ∀ d ∈ expected.made, c.Marked d → d ∈ told log ∨ ∃ t, (G t).telling = some d
  missed : ∀ d ∈ expected.missed, Was c d ∧ d ∉ told log ∧ ∀ t, (G t).telling ≠ some d

namespace Tellings

variable {expected : Expected} {c c' : CommsRuntime} {log : List Event} {G : Tid → Task} {t : Tid}
  {g : Task} {d : Discovery}

theorem update (h : Tellings expected c log G) (hwas : ∀ d, Was c d → Was c' d)
    (hmarked : ∀ d, c'.Marked d → c.Marked d) (htelling : g.telling = (G t).telling) :
    Tellings expected c' log (Function.update G t g) := by
  have hsame : ∀ u, (Function.update G t g u).telling = (G u).telling := by
    intro u
    by_cases hu : u = t
    · subst hu
      rw [Function.update_self, htelling]
    · rw [Function.update_of_ne hu]
  refine ⟨h.once, fun d hd => hwas d (h.was d hd), fun u d hu => ?_, fun u v d hu hv => ?_,
    fun d hd => hwas d (h.marked d hd), fun d hd hd' => ?_, fun d hd => ?_⟩
  · rw [hsame] at hu
    exact ⟨hwas d (h.telling u d hu).1, (h.telling u d hu).2⟩
  · rw [hsame] at hu hv
    exact h.alone u v d hu hv
  · simp only [hsame]
    exact h.made d hd (hmarked d hd')
  · simp only [hsame]
    exact ⟨hwas d (h.missed d hd).1, (h.missed d hd).2⟩

theorem congr (h : Tellings expected c log G) (hdrained : c'.drained = c.drained)
    (hmarked : ∀ d, c'.Marked d ↔ c.Marked d) (htelling : g.telling = (G t).telling) :
    Tellings expected c' log (Function.update G t g) := by
  refine h.update (fun d hd hnone => ?_) (fun d => (hmarked d).mp) htelling
  exact (hmarked d).mpr (hd (hdrained.symm.trans hnone))

/-- What is marked first is owed a callback, if there is one to make. -/
theorem mark (h : Tellings expected c log G) (hopen : c.drained = none) (hnew : ¬ c.Marked d)
    (hmarked : ∀ d', c'.Marked d' ↔ d' = d ∨ c.Marked d')
    (ht : (G t).telling = none) (htelling : g.telling = none ∨ g.telling = some d)
    (hmade : d ∈ expected.made → g.telling ≠ none) :
    Tellings expected c' log (Function.update G t g) := by
  have hwas : ∀ d', Was c d' → Was c' d' := fun d' hd' _ => (hmarked d').mpr (Or.inr (hd' hopen))
  have hself : Was c' d := fun _ => (hmarked d).mpr (Or.inl rfl)
  have hunknown : ¬ Was c d := fun hd => hnew (hd hopen)
  -- Who owes a callback now is the thread that marks, or owed it before.
  have hcase : ∀ z d', (Function.update G t g z).telling = some d' →
      z = t ∧ d' = d ∨ z ≠ t ∧ d' ≠ d ∧ (G z).telling = some d' := by
    intro z d' hz
    by_cases hzt : z = t
    · subst hzt
      rw [Function.update_self] at hz
      refine Or.inl ⟨rfl, ?_⟩
      rcases htelling with heq | heq <;> rw [heq] at hz <;> cases hz
      rfl
    · rw [Function.update_of_ne hzt] at hz
      refine Or.inr ⟨hzt, ?_, hz⟩
      rintro rfl
      exact hunknown (h.telling z _ hz).1
  refine ⟨h.once, fun d' hd' => hwas d' (h.was d' hd'), fun u d' hu => ?_, fun u v d' hu hv => ?_,
    fun d' hd' => hwas d' (h.marked d' hd'), fun d' hd hd' => ?_, fun d' hd' => ?_⟩
  · rcases hcase u d' hu with ⟨-, rfl⟩ | ⟨-, -, hu⟩
    · exact ⟨hself, fun hd => hunknown (h.was _ hd)⟩
    · exact ⟨hwas d' (h.telling u d' hu).1, (h.telling u d' hu).2⟩
  · rcases hcase u d' hu with ⟨hut, hd'⟩ | ⟨-, hd', hu'⟩
    · rcases hcase v d' hv with ⟨hvt, -⟩ | ⟨-, hne, -⟩
      · rw [hut, hvt]
      · exact absurd hd' hne
    · rcases hcase v d' hv with ⟨-, heq⟩ | ⟨-, -, hv'⟩
      · exact absurd heq hd'
      · exact h.alone u v d' hu' hv'
  · rcases (hmarked d').mp hd' with rfl | hd'
    · exact Or.inr ⟨t, by rw [Function.update_self, htelling.resolve_left (hmade hd)]⟩
    · refine (h.made d' hd hd').imp_right ?_
      rintro ⟨u, hu⟩
      have hut : u ≠ t := by
        rintro rfl
        rw [ht] at hu
        cases hu
      exact ⟨u, by rw [Function.update_of_ne hut, hu]⟩
  · obtain ⟨hmissed, hnotin, hnobody⟩ := h.missed d' hd'
    refine ⟨hwas d' hmissed, hnotin, fun u hu => ?_⟩
    rcases hcase u d' hu with ⟨-, rfl⟩ | ⟨-, -, hu⟩
    · exact hunknown hmissed
    · exact hnobody u hu

/-- The callback that is owed is made. -/
theorem tell (h : Tellings expected c log G) (ht : (G t).telling = some d)
    {event : Event} (hevent : event.discovery = some d) (htelling : g.telling = none) :
    Tellings expected c (log ++ [event]) (Function.update G t g) := by
  have htold : told (log ++ [event]) = told log ++ [d] := by
    rw [told, List.filterMap_append, List.filterMap_cons, hevent]
    rfl
  have hnotin := (h.telling t d ht).2
  have hcase : ∀ z d', (Function.update G t g z).telling = some d' →
      z ≠ t ∧ (G z).telling = some d' := by
    intro z d' hz
    by_cases hzt : z = t
    · subst hzt
      rw [Function.update_self, htelling] at hz
      cases hz
    · rw [Function.update_of_ne hzt] at hz
      exact ⟨hzt, hz⟩
  refine ⟨?_, fun d' hd' => ?_, fun u d' hu => ?_, fun u v d' hu hv => ?_, h.marked,
    fun d' hd hd' => ?_, fun d' hd' => ?_⟩
  · rw [htold]
    exact List.nodup_append'.mpr ⟨h.once, List.nodup_singleton d, by simpa using hnotin⟩
  · rw [htold, List.mem_append, List.mem_singleton] at hd'
    rcases hd' with hd' | rfl
    · exact h.was d' hd'
    · exact (h.telling t _ ht).1
  · obtain ⟨hut, hu⟩ := hcase u d' hu
    refine ⟨(h.telling u d' hu).1, ?_⟩
    rw [htold, List.mem_append, List.mem_singleton]
    rintro (hd' | rfl)
    · exact (h.telling u d' hu).2 hd'
    · exact hut (h.alone u t _ hu ht)
  · exact h.alone u v d' (hcase u d' hu).2 (hcase v d' hv).2
  · rw [htold, List.mem_append, List.mem_singleton]
    rcases h.made d' hd hd' with hd' | ⟨u, hu⟩
    · exact Or.inl (Or.inl hd')
    · by_cases hut : u = t
      · subst hut
        rw [ht] at hu
        cases hu
        exact Or.inl (Or.inr rfl)
      · exact Or.inr ⟨u, by rw [Function.update_of_ne hut, hu]⟩
  · obtain ⟨hmissed, hnotin', hnobody⟩ := h.missed d' hd'
    refine ⟨hmissed, ?_, fun u hu => hnobody u (hcase u d' hu).2⟩
    rw [htold, List.mem_append, List.mem_singleton]
    rintro (hin | rfl)
    · exact hnotin' hin
    · exact hnobody t ht

/-- An event that tells nothing. -/
theorem skip (h : Tellings expected c log G) {event : Event} (hevent : event.discovery = none) :
    Tellings expected c (log ++ [event]) G := by
  have htold : told (log ++ [event]) = told log := by
    rw [told, List.filterMap_append, List.filterMap_cons, hevent]
    exact List.append_nil _
  refine ⟨?_, ?_, ?_, h.alone, h.marked, ?_, ?_⟩
  · rw [htold]
    exact h.once
  · rw [htold]
    exact h.was
  · rw [htold]
    exact h.telling
  · rw [htold]
    exact h.made
  · rw [htold]
    exact h.missed

end Tellings

/-! ## The discovery thread -/

/-- One thread at most is the discovery thread. It runs, and one that is gone does not. -/
structure Workers (c : CommsRuntime) (G : Tid → Task) : Prop where
  worker : ∀ t, (G t).worker = true → c.workers .discovery = .running
  alone : ∀ t u, (G t).worker = true → (G u).worker = true → t = u
  gone : ∀ t, (G t).gone = true → ¬ (c.workers .discovery).Live
  emptied : ∀ links, c.drained = some links → ¬ (c.workers .discovery).Live ∧ c.activeLinks = []

namespace Workers

variable {c c' : CommsRuntime} {G : Tid → Task} {t : Tid} {g : Task} {worker : Worker}

theorem update (h : Workers c G) (hworker : ∀ u, (Function.update G t g u).worker = true →
      c'.workers .discovery = .running)
    (halone : g.worker = true → ∀ u, (G u).worker = true → u = t)
    (hlive : ¬ (c.workers .discovery).Live → ¬ (c'.workers .discovery).Live)
    (hlinks : c'.activeLinks = c.activeLinks) (hdrained : c'.drained = c.drained)
    (hgone : g.gone = true → ¬ (c'.workers .discovery).Live) :
    Workers c' (Function.update G t g) := by
  refine ⟨hworker, fun u v hu hv => ?_, fun u hu => ?_, fun links hlinks' => ?_⟩
  · by_cases hut : u = t <;> by_cases hvt : v = t
    · rw [hut, hvt]
    · subst hut
      rw [Function.update_self] at hu
      rw [Function.update_of_ne hvt] at hv
      exact (halone hu v hv).symm
    · subst hvt
      rw [Function.update_self] at hv
      rw [Function.update_of_ne hut] at hu
      exact halone hv u hu
    · rw [Function.update_of_ne hut] at hu
      rw [Function.update_of_ne hvt] at hv
      exact h.alone u v hu hv
  · by_cases hut : u = t
    · subst hut
      rw [Function.update_self] at hu
      exact hgone hu
    · rw [Function.update_of_ne hut] at hu
      exact hlive (h.gone u hu)
  · obtain ⟨hlive', hnil⟩ := h.emptied links (hdrained ▸ hlinks')
    exact ⟨hlive hlive', hlinks.trans hnil⟩

theorem congr (h : Workers c G) (hworkers : c'.workers .discovery = c.workers .discovery)
    (hlinks : c'.activeLinks = c.activeLinks) (hdrained : c'.drained = c.drained)
    (hg : g.worker = true → (G t).worker = true) (hgone : g.gone = true → (G t).gone = true) :
    Workers c' (Function.update G t g) := by
  refine h.update (fun u hu => ?_) (fun hw u hu => h.alone u t hu (hg hw)) ?_ hlinks hdrained
    (fun hw => ?_)
  · rw [hworkers]
    by_cases hut : u = t
    · subst hut
      rw [Function.update_self] at hu
      exact h.worker u (hg hu)
    · rw [Function.update_of_ne hut] at hu
      exact h.worker u hu
  · rw [hworkers]
    exact id
  · rw [hworkers]
    exact h.gone t (hgone hw)

/-- The state of another worker does not matter. -/
theorem setOther (h : Workers c G) (hne : worker ≠ .discovery) (state : WorkerState) :
    Workers (c.setWorker worker state) (Function.update G t (G t)) :=
  h.congr (c.setWorker_of_ne (Ne.symm hne) state) rfl rfl id id

theorem began (h : Workers c G) (hcreated : c.workers .discovery = .created)
    (hgone : g.gone = (G t).gone) :
    Workers (c.setWorker .discovery .running) (Function.update G t g) := by
  have hrunning : (c.setWorker .discovery .running).workers .discovery = .running :=
    c.setWorker_self .discovery .running
  have hlive : (c.workers .discovery).Live := hcreated ▸ trivial
  refine h.update (fun _ _ => hrunning) (fun _ u hu => ?_) (fun hnot => absurd hlive hnot) rfl rfl
    (fun hg => absurd hlive (h.gone t (hgone ▸ hg)))
  rw [h.worker u hu] at hcreated
  cases hcreated

theorem finished (h : Workers c G) (ht : (G t).worker = true) (hg : g.worker = false) :
    Workers (c.setWorker .discovery .ended) (Function.update G t g) := by
  have hended : (c.setWorker .discovery .ended).workers .discovery = .ended :=
    c.setWorker_self .discovery .ended
  have hdead : ¬ ((c.setWorker .discovery .ended).workers .discovery).Live := by
    rw [hended]
    exact id
  refine h.update (fun u hu => ?_) (fun hw => ?_) (fun _ => hdead) rfl rfl fun _ => hdead
  · by_cases hut : u = t
    · subst hut
      rw [Function.update_self, hg] at hu
      cases hu
    · rw [Function.update_of_ne hut] at hu
      exact absurd (h.alone u t hu ht) hut
  · rw [hg] at hw
    cases hw

theorem joined (h : Workers c G) (hended : c.workers .discovery = .ended)
    (hg : g.worker = (G t).worker) :
    Workers (c.setWorker .discovery .joined) (Function.update G t g) := by
  have hjoined : (c.setWorker .discovery .joined).workers .discovery = .joined :=
    c.setWorker_self .discovery .joined
  have hdead : ¬ ((c.setWorker .discovery .joined).workers .discovery).Live := by
    rw [hjoined]
    exact id
  have hnobody : ∀ u, (G u).worker ≠ true := fun u hu => by
    rw [h.worker u hu] at hended
    cases hended
  refine h.update (fun u hu => ?_) (fun hw => ?_) (fun _ => hdead) rfl rfl fun _ => hdead
  · by_cases hut : u = t
    · subst hut
      rw [Function.update_self, hg] at hu
      exact absurd hu (hnobody u)
    · rw [Function.update_of_ne hut] at hu
      exact absurd hu (hnobody u)
  · rw [hg] at hw
    exact absurd hw (hnobody t)

/-- A link may be pushed as long as nothing was taken out. -/
theorem pushed (h : Workers c G) (hopen : c.drained = none) {link : ActiveLink}
    (hg : g.worker = (G t).worker) (hgone : g.gone = (G t).gone) :
    Workers (c.pushLink link) (Function.update G t g) := by
  have hsame : Workers c (Function.update G t g) :=
    h.congr rfl rfl rfl (fun hw => hg ▸ hw) fun hw => hgone ▸ hw
  refine ⟨hsame.worker, hsame.alone, hsame.gone, fun links hlinks => ?_⟩
  have hnone : (c.pushLink link).drained = none := hopen
  rw [hnone] at hlinks
  cases hlinks

theorem drained (h : Workers c G) (ht : (G t).gone = true) (hg : g.worker = (G t).worker)
    (hgone : g.gone = (G t).gone) {links : List ActiveLink} :
    Workers { c with activeLinks := [], activeLinkKeys := ∅, drained := some links }
      (Function.update G t g) := by
  have hsame : Workers c (Function.update G t g) :=
    h.congr rfl rfl rfl (fun hw => hg ▸ hw) fun hw => hgone ▸ hw
  exact ⟨hsame.worker, hsame.alone, hsame.gone, fun _ _ => ⟨h.gone t ht, rfl⟩⟩

end Workers

/-! ## Callbacks for dropped links -/

/-- What `stop` has done of its callbacks, and what it has left. -/
def Closed (c : CommsRuntime) (dropped : List (Callback × BratislavaLinkInfo)) : Closing → Prop
  | .no => True
  | .drained infos => ∃ links, c.drained = some links ∧ infos = links.map ActiveLink.info ∧ dropped = []
  | .dropping none _ => c.drained ≠ none ∧ dropped = []
  | .dropping (some callback) infos => ∃ links, c.drained = some links ∧
      dropped ++ infos.map (Prod.mk callback) =
        links.map fun link => (callback, ActiveLink.info link)

structure Closings (c : CommsRuntime) (log : List Event) (G : Tid → Task) : Prop where
  closed : ∀ t, Closed c (droppedIn log) (G t).closing
  alone : ∀ t u, (G t).closing ≠ .no → (G u).closing ≠ .no → t = u
  untouched : c.drained = none → droppedIn log = []

theorem Closed.drained_ne {c : CommsRuntime} {dropped : List (Callback × BratislavaLinkInfo)}
    {closing : Closing} (h : Closed c dropped closing) (hne : closing ≠ .no) :
    c.drained ≠ none := by
  cases closing with
  | no => exact absurd rfl hne
  | drained infos =>
    obtain ⟨links, hlinks, -⟩ := h
    rw [hlinks]
    simp
  | dropping callback infos =>
    cases callback with
    | none => exact h.1
    | some callback =>
      obtain ⟨links, hlinks, -⟩ := h
      rw [hlinks]
      simp

theorem Closed.congr {c c' : CommsRuntime} {dropped : List (Callback × BratislavaLinkInfo)}
    {closing : Closing} (h : Closed c dropped closing) (hdrained : c'.drained = c.drained) :
    Closed c' dropped closing := by
  cases closing with
  | no => trivial
  | drained infos =>
    simp only [Closed, hdrained]
    exact h
  | dropping callback infos =>
    cases callback with
    | none | some _ =>
      simp only [Closed, hdrained]
      exact h

namespace Closings

variable {c c' : CommsRuntime} {log : List Event} {G : Tid → Task} {t : Tid} {g : Task}

theorem congr (h : Closings c log G) (hdrained : c'.drained = c.drained)
    (hg : g.closing = (G t).closing ∨ g.closing = .no) :
    Closings c' log (Function.update G t g) := by
  have hcase : ∀ u, (Function.update G t g u).closing = (G u).closing ∨
      (Function.update G t g u).closing = .no := by
    intro u
    by_cases hut : u = t
    · subst hut
      rw [Function.update_self]
      exact hg
    · exact Or.inl (by rw [Function.update_of_ne hut])
  refine ⟨fun u => ?_, fun u v hu hv => ?_, fun hnone => h.untouched (hdrained ▸ hnone)⟩
  · rcases hcase u with heq | heq
    · rw [heq]
      exact (h.closed u).congr hdrained
    · rw [heq]
      trivial
  · have hu' := (hcase u).resolve_right hu
    have hv' := (hcase v).resolve_right hv
    exact h.alone u v (hu' ▸ hu) (hv' ▸ hv)

/-- Nobody is closing the runtime before it was drained. -/
theorem closing_eq_no (h : Closings c log G) (hopen : c.drained = none) (u : Tid) :
    (G u).closing = .no := by
  by_contra hne
  exact (h.closed u).drained_ne hne hopen

theorem drained (h : Closings c log G) (hopen : c.drained = none)
    (hg : g.closing = .drained (c.activeLinks.map ActiveLink.info)) :
    Closings { c with activeLinks := [], activeLinkKeys := ∅, drained := some c.activeLinks } log
      (Function.update G t g) := by
  have hother : ∀ u, u ≠ t → (Function.update G t g u).closing = .no := fun u hut => by
    rw [Function.update_of_ne hut]
    exact h.closing_eq_no hopen u
  refine ⟨fun u => ?_, fun u v hu hv => ?_, fun hnone => by cases hnone⟩
  · by_cases hut : u = t
    · subst hut
      rw [Function.update_self, hg]
      exact ⟨c.activeLinks, rfl, rfl, h.untouched hopen⟩
    · rw [hother u hut]
      trivial
  · have hut : u = t := by
      by_contra hne
      exact hu (hother u hne)
    have hvt : v = t := by
      by_contra hne
      exact hv (hother v hne)
    rw [hut, hvt]

/-- The thread that closes the runtime goes on. -/
theorem step (h : Closings c log G) (ht : (G t).closing ≠ .no) {log' : List Event}
    (hclosed : Closed c (droppedIn log') g.closing) :
    Closings c log' (Function.update G t g) := by
  have hother : ∀ u, u ≠ t → (Function.update G t g u).closing = .no := fun u hut => by
    rw [Function.update_of_ne hut]
    by_contra hne
    exact hut (h.alone u t hne ht)
  refine ⟨fun u => ?_, fun u v hu hv => ?_, fun hnone => ?_⟩
  · by_cases hut : u = t
    · subst hut
      rw [Function.update_self]
      exact hclosed
    · rw [hother u hut]
      trivial
  · have hut : u = t := by
      by_contra hne
      exact hu (hother u hne)
    have hvt : v = t := by
      by_contra hne
      exact hv (hother v hne)
    rw [hut, hvt]
  · exact absurd hnone ((h.closed t).drained_ne ht)

/-- An event that drops nothing. -/
theorem skip (h : Closings c log G) {event : Event} (hevent : event.dropped = none) :
    Closings c (log ++ [event]) G := by
  have hdropped : droppedIn (log ++ [event]) = droppedIn log := by
    rw [droppedIn, List.filterMap_append, List.filterMap_cons, hevent]
    exact List.append_nil _
  refine ⟨?_, h.alone, ?_⟩
  · rw [hdropped]
    exact h.closed
  · rw [hdropped]
    exact h.untouched

end Closings

end Scans

end SensorLib.Comms
