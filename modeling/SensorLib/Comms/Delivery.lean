import SensorLib.Comms.ScanRuns
import SensorLib.Threads.Paths

/-! # What is delivered of what a scan comes across

A device is marked in the step that looks for its callback. One that is marked
while none is registered is never delivered, and one that another thread has
marked may be delivered after the scan.
-/

namespace SensorLib.Comms

open Threads Runs Scans

variable {expected : Expected} {this : RuntimePtr} {w : World commsSystem} {G : Tid → Task}
  {t : Tid} {d : Discovery}

/-- The discovery that the next act of a thread marks. -/
def marking (w : World commsSystem) (t : Tid) : Option Discovery :=
  (nextAct w t).bind RuntimeAct.marks

/-- The discovery that the next act of a thread makes the callback of. -/
def announcing (w : World commsSystem) (t : Tid) : Option Discovery :=
  (nextAct w t).bind RuntimeAct.announces

/-- A callback for `d` is registered. -/
def Registered (this : RuntimePtr) (d : Discovery) (w : World commsSystem) : Prop :=
  ∃ c, w.state.runtimes.lookup this = some c ∧ c.slot d ≠ none

/-- The step marks `d` first, and there is no callback to make. -/
def MarksSilently (this : RuntimePtr) (d : Discovery) (w : World commsSystem) :
    Op commsSystem → Prop
  | .start .. => False
  | .run t _ => marking w t = some d ∧
      ∃ c, w.state.runtimes.lookup this = some c ∧ ¬ c.Marked d ∧ c.slot d = none

/-- The acts that follow a scan, in `discover_links` and in the discovery loop. -/
def RuntimeAct.FollowsScan : RuntimeAct → Prop
  | .readLinks _ | .waitForStop => True
  | _ => False

/-- From the start of a scan of `t` to its end, and the scan comes across `d`. -/
structure ComesAcross (t : Tid) (d : Discovery) (w : World commsSystem)
    (ops : List (Op commsSystem)) : Prop where
  starts : nextAct w t = some .discoverBluetooth
  across : ∃ before e after, ops = before ++ .run t e :: after ∧
    marking ((machine commsSystem).run w before) t = some d
  ends : ∃ a, nextAct ((machine commsSystem).run w ops) t = some a ∧ a.FollowsScan

def DeliveredOnce (d : Discovery) (w : World commsSystem) : Prop := (told w.state.log).count d = 1

/-- The calls on a runtime but `stop`. -/
def Call.Unstopped (this : RuntimePtr) (f : Call) : Prop := f.OnRuntime this ∧ ¬ f.Stops

namespace Scans

/-! ## One step -/

theorem Tellings.with_marked {c : CommsRuntime} {log : List Event} (h : Tellings expected c log G)
    (hmarked : c.Marked d) :
    Tellings { expected with marked := insert d expected.marked } c log G := by
  refine ⟨h.once, h.was, h.telling, h.alone, fun d' hd' => ?_, h.made, h.missed⟩
  rcases hd' with rfl | hd'
  · exact fun _ => hmarked
  · exact h.marked d' hd'

theorem Tellings.with_missed {c : CommsRuntime} {log : List Event} (h : Tellings expected c log G)
    (hmarked : c.Marked d) (hnotin : d ∉ told log) (hnobody : ∀ t, (G t).telling ≠ some d) :
    Tellings { expected with missed := insert d expected.missed } c log G := by
  refine ⟨h.once, h.was, h.telling, h.alone, h.marked, h.made, fun d' hd' => ?_⟩
  rcases hd' with rfl | hd'
  · exact ⟨fun _ => hmarked, hnotin, hnobody⟩
  · exact h.missed d' hd'

/-- What the act marks is marked after it, and nothing is told. Without a callback that is
registered none is owed for what is marked first. -/
theorem marked_execMethod {s s' : CommsState} {c : CommsRuntime} {e : Choice} {a : RuntimeAct}
    {x : a.Answer} (hc : s.runtimes.lookup this = some c) (ha : a.marks = some d)
    (h : s.execMethod this c e a = some (x, s')) :
    (∃ c', s'.runtimes.lookup this = some c' ∧ c'.Marked d) ∧ s'.log = s.log ∧
      (¬ c.Marked d → c.slot d = none → ∀ g, (acted g a x).telling = none) := by
  cases a with
  | see peer =>
    cases ha
    cases h
    refine ⟨⟨_, Finmap.lookup_insert _, CommsRuntime.marked_insertSeen.mpr (Or.inl rfl)⟩, rfl, ?_⟩
    intro hnew hslot g
    simp [acted, CommsRuntime.see, hnew, hslot]
  | publish link =>
    cases ha
    simp only [CommsState.execMethod] at h
    split at h
    · rename_i hkey
      cases h
      exact ⟨⟨c, hc, hkey⟩, rfl, fun hnew => absurd hkey hnew⟩
    · cases h
      refine ⟨⟨_, Finmap.lookup_insert _, CommsRuntime.marked_pushLink.mpr (Or.inl rfl)⟩, rfl, ?_⟩
      intro hnew hslot g
      have hnone : c.callbacks.linkDiscovered = none := hslot
      simp [acted, hnone]
  | _ => cases ha

/-- Scans go on, and nobody stops the runtime. -/
structure Scanning (expected : Expected) (this : RuntimePtr) (w : World commsSystem)
    (G : Tid → Task) : Prop where
  follows : (scanDiscipline this).FollowsAtRest Task.Free (Tended expected this) w G
  runs : w.Runs (Call.Unstopped this)
  drained : w.state.drainedOf this = none

namespace Scanning

theorem next (h : Scanning expected this w G) {op : Op commsSystem} (hop : w.enabled op = true)
    (hcall : ∀ t f, op = Op.start t f → Call.Unstopped this f)
    (hmade : ∀ d ∈ expected.made, ¬ MarksSilently this d w op) :
    Scanning expected this (w.next op) ((scanDiscipline this).track w G op) := by
  refine ⟨h.follows.next scans_sound scans_cover hop ?_, h.runs.next hop hcall, ?_⟩
  · cases op with
    | start t f => exact (hcall t f rfl).1
    | run t e =>
      intro f p hthread
      refine ⟨fun _ _ _ => h.drained, fun _ => h.drained, fun d hd a c hhead hc hmarks hnew hslot => ?_⟩
      cases p with
      | act a' k =>
        cases hhead
        have hnext : nextAct w t = some a := nextAct_iff.mpr ⟨f, this, k, hthread⟩
        refine hmade d hd ⟨?_, c, hc, hnew, hslot⟩
        rw [marking, hnext, Option.bind_some, hmarks]
      | _ => cases hhead
  · cases op with
    | start t f => exact h.drained
    | run t e =>
      rcases drainedOf_next h.follows hop with heq | ⟨f, k, hthread⟩
      · exact heq.trans h.drained
      · exact absurd (h.follows.toFollows.obeys hthread).1.2.2.2.1 (h.runs t f _ hthread).2

/-- The step of a thread that marks `d`. -/
theorem marks (h : Scanning expected this w G) {e : Choice} (hop : w.enabled (.run t e) = true)
    (hmarks : marking w t = some d) :
    ∃ a c x s', a.marks = some d ∧ w.state.runtimes.lookup this = some c ∧
      w.state.execMethod this c e a = some (x, s') ∧ (w.next (.run t e)).state = s' ∧
      (scanDiscipline this).track w G (.run t e) = Function.update G t (acted (G t) a x) := by
  obtain ⟨a, hnext, ha⟩ := Option.bind_eq_some_iff.mp hmarks
  obtain ⟨f, this', k, hthread⟩ := nextAct_iff.mp hnext
  obtain rfl : this' = this := (h.follows.toFollows.obeys hthread).1.1
  obtain ⟨c, hc, -⟩ := h.follows.invariant
  have hran := World.ran hop
  generalize hw' : w.next (.run t e) = w' at hran
  cases hran with
  | @act f' a' k' x s' hthread' hexec =>
    rw [hthread] at hthread'
    cases hthread'
    have hexec' : w.state.execMethod this' c e a = some (x, s') := by
      have hlookup : w.state.exec e (.method this' a) = some (x, s') := hexec
      simpa only [CommsState.exec, hc] using hlookup
    exact ⟨a, c, x, s', ha, hc, hexec', rfl, Discipline.track_act _ hthread hexec⟩
  | done hold | lock hold | unlock hold | call hold =>
    rw [hthread] at hold
    cases hold

/-- More may be expected where the callbacks are as expected. -/
theorem expecting (h : Scanning expected this w G) {expected' : Expected}
    (htellings : ∀ c, w.state.runtimes.lookup this = some c →
      Tellings expected c w.state.log G → Tellings expected' c w.state.log G) :
    Scanning expected' this w G := by
  obtain ⟨c, hc, hwhole⟩ := h.follows.invariant
  exact ⟨⟨⟨h.follows.exclusion,
    ⟨c, hc, hwhole.links, htellings c hc hwhole.tellings, hwhole.workers, hwhole.closings⟩,
    h.follows.threads⟩, h.follows.rest⟩, h.runs, h.drained⟩

/-- What was come across is marked. -/
theorem across (h : Scanning expected this w G) {e : Choice} (hop : w.enabled (.run t e) = true)
    (hmarks : marking w t = some d)
    (hmade : ∀ d ∈ expected.made, ¬ MarksSilently this d w (.run t e)) :
    ∃ G', Scanning { expected with marked := insert d expected.marked } this
      (w.next (.run t e)) G' := by
  obtain ⟨a, c, x, s', ha, hc, hexec, hstate, -⟩ := h.marks hop hmarks
  obtain ⟨⟨c', hc', hmarked⟩, -, -⟩ := marked_execMethod hc ha hexec
  have hcall : ∀ u f, (Op.run t e : Op commsSystem) = .start u f → Call.Unstopped this f :=
    fun u f heq => by cases heq
  refine ⟨_, (h.next hop hcall hmade).expecting fun c'' hc'' htellings => htellings.with_marked ?_⟩
  rw [hstate, hc'] at hc''
  cases hc''
  exact hmarked

/-- What was marked silently is missed. -/
theorem silently (h : Scanning {} this w G) {op : Op commsSystem} (hop : w.enabled op = true)
    (hsilent : MarksSilently this d w op) :
    ∃ G', Scanning { missed := insert d ∅ } this (w.next op) G' := by
  cases op with
  | start t f => exact hsilent.elim
  | run t e =>
    obtain ⟨hmarks, c₀, hc₀, hnew, hslot⟩ := hsilent
    obtain ⟨a, c, x, s', ha, hc, hexec, hstate, htrack⟩ := h.marks hop hmarks
    obtain rfl : c₀ = c := Option.some.inj (hc₀.symm.trans hc)
    obtain ⟨⟨c', hc', hmarked⟩, hlog, htelling⟩ := marked_execMethod hc ha hexec
    have hcall : ∀ u f, (Op.run t e : Op commsSystem) = .start u f → Call.Unstopped this f :=
      fun u f heq => by cases heq
    obtain ⟨c₁, hc₁, hwhole⟩ := h.follows.invariant
    obtain rfl : c₁ = c₀ := Option.some.inj (hc₁.symm.trans hc)
    have hopen : c₁.drained = none := by
      have hdrained := h.drained
      rwa [CommsState.drainedOf, hc, Option.bind_some] at hdrained
    have hunknown : ¬ Was c₁ d := fun hwas => hnew (hwas hopen)
    refine ⟨_, (h.next hop hcall fun _ hd => absurd hd (Set.notMem_empty _)).expecting
      fun c'' hc'' htellings => htellings.with_missed ?_ ?_ fun u hu => ?_⟩
    · rw [hstate, hc'] at hc''
      cases hc''
      exact hmarked
    · rw [hstate, hlog]
      exact fun hd => hunknown (hwhole.tellings.was d hd)
    · rw [htrack] at hu
      by_cases hut : u = t
      · subst hut
        rw [Function.update_self, htelling hnew hslot] at hu
        cases hu
      · rw [Function.update_of_ne hut] at hu
        exact hunknown (hwhole.tellings.telling u d hu).1

/-! ## Runs -/

theorem of_run {ops : List (Op commsSystem)} (h : ∃ G, Scanning expected this w G)
    (hcalls : Calls (Call.Unstopped this) ops) (hlegal : (machine commsSystem).Legal w ops)
    (hmade : (machine commsSystem).Each (fun w op => ∀ d ∈ expected.made, ¬ MarksSilently this d w op)
      w ops) : ∃ G, Scanning expected this ((machine commsSystem).run w ops) G := by
  refine Machine.Each.invariant (M := machine commsSystem)
    (I := fun w => ∃ G, Scanning expected this w G) ?_
    (Machine.Each.and (Machine.Each.and hlegal (hcalls.each w)) hmade) h
  rintro w op ⟨G, hG⟩ ⟨⟨hop, hcall⟩, hmade⟩
  exact ⟨_, hG.next hop hcall hmade⟩

/-- Where no callback is expected, every run of scans goes on. -/
theorem of_run_unasked {ops : List (Op commsSystem)} (h : ∃ G, Scanning expected this w G)
    (hnone : expected.made = ∅) (hcalls : Calls (Call.Unstopped this) ops)
    (hlegal : (machine commsSystem).Legal w ops) :
    ∃ G, Scanning expected this ((machine commsSystem).run w ops) G :=
  of_run h hcalls hlegal
    (Machine.Each.mono (fun _ _ _ d hd => absurd (hnone ▸ hd) (Set.notMem_empty d)) hlegal)

end Scanning

theorem scanning_start {s : CommsState} (h : s.JustStarted this) (hmarked : expected.marked = ∅)
    (hmissed : expected.missed = ∅) : Scanning expected this (World.quiet s) (fun _ => {}) := by
  refine ⟨follows_start h hmarked hmissed, fun t f p hthread => (by cases hthread), ?_⟩
  obtain ⟨c, hc, -, -, -, -, hdrained⟩ := h.runtime
  rw [← hdrained]
  show (Finmap.lookup this s.runtimes).bind _ = _
  rw [hc, Option.bind_some]

/-! ## What was delivered -/

section Delivered

variable {s : CommsState} (hs : s.JustStarted this) {ops : List (Op commsSystem)}
  (hcalls : Calls (Call.Unstopped this) ops) (hlegal : (machine commsSystem).Legal (World.quiet s) ops)

include hs hcalls hlegal

/-- What is marked without a callback to make is never delivered. -/
theorem each_of_delivered
    (hdelivered : DeliveredOnce d ((machine commsSystem).run (World.quiet s) ops)) :
    (machine commsSystem).Each (fun w op => ¬ MarksSilently this d w op) (World.quiet s) ops := by
  by_contra hnot
  obtain ⟨before, op, after, rfl, hsilent⟩ := Machine.exists_of_not_each hnot
  obtain ⟨hlegal₁, hop, hlegal₂⟩ := (Machine.each_append _ _ _).mp hlegal
  have hstart : Scanning {} this (World.quiet s) fun _ => {} := scanning_start hs rfl rfl
  obtain ⟨G, hG⟩ := Scanning.of_run_unasked ⟨_, hstart⟩ rfl
    (fun t f hmem => hcalls t f (List.mem_append_left _ hmem)) hlegal₁
  obtain ⟨G', hG'⟩ := Scanning.of_run_unasked (hG.silently hop (not_not.mp hsilent)) rfl
    (fun t f hmem => hcalls t f (by simp [hmem])) hlegal₂
  obtain ⟨c, hc, hwhole⟩ := hG'.follows.invariant
  have hnotin := (hwhole.tellings.missed d (Set.mem_insert d ∅)).2.1
  have hrun : (machine commsSystem).run (World.quiet s) (before ++ op :: after) =
      (machine commsSystem).run (((machine commsSystem).run (World.quiet s) before).next op) after :=
    Machine.run_append _ _ _ _
  rw [DeliveredOnce, hrun, List.count_eq_zero.mpr hnotin] at hdelivered
  cases hdelivered

/-- What a thread is about to announce has not been delivered yet. -/
theorem not_announcing_of_delivered
    (hdelivered : DeliveredOnce d ((machine commsSystem).run (World.quiet s) ops)) (u : Tid) :
    announcing ((machine commsSystem).run (World.quiet s) ops) u ≠ some d := by
  intro hu
  have hstart : Scanning {} this (World.quiet s) fun _ => {} := scanning_start hs rfl rfl
  obtain ⟨G, hG⟩ := Scanning.of_run_unasked ⟨_, hstart⟩ rfl hcalls hlegal
  have htelling := (nextAct_eq hG.follows.toFollows hG.follows.rest u).2.symm.trans hu
  obtain ⟨c, hc, hwhole⟩ := hG.follows.invariant
  rw [DeliveredOnce, List.count_eq_zero.mpr (hwhole.tellings.telling u d htelling).2] at hdelivered
  cases hdelivered

/-- A device that is come across with a callback to make is delivered, if nobody still announces
it. -/
theorem delivered_of_each {before after : List (Op commsSystem)} {e : Choice}
    (hops : ops = before ++ .run t e :: after)
    (hmarks : marking ((machine commsSystem).run (World.quiet s) before) t = some d)
    (heach : (machine commsSystem).Each (fun w op => ¬ MarksSilently this d w op) (World.quiet s) ops)
    (hnobody : ∀ u, announcing ((machine commsSystem).run (World.quiet s) ops) u ≠ some d) :
    DeliveredOnce d ((machine commsSystem).run (World.quiet s) ops) := by
  subst hops
  have hmade : ∀ (w : World commsSystem) (op : Op commsSystem), ¬ MarksSilently this d w op →
      ∀ d' ∈ ({d} : Set Discovery), ¬ MarksSilently this d' w op := by
    rintro w op hop _ rfl
    exact hop
  obtain ⟨hlegal₁, hop, hlegal₂⟩ := (Machine.each_append _ _ _).mp hlegal
  obtain ⟨heach₁, hopeach, heach₂⟩ := (Machine.each_append _ _ _).mp heach
  have hstart : Scanning { made := {d} } this (World.quiet s) fun _ => {} :=
    scanning_start hs rfl rfl
  obtain ⟨G, hG⟩ := Scanning.of_run ⟨_, hstart⟩
    (fun t f hmem => hcalls t f (List.mem_append_left _ hmem)) hlegal₁
    (Machine.Each.mono hmade heach₁)
  obtain ⟨G', hG'⟩ := Scanning.of_run (hG.across hop hmarks (hmade _ _ hopeach))
    (fun t f hmem => hcalls t f (by simp [hmem])) hlegal₂ (Machine.Each.mono hmade heach₂)
  have hrun : (machine commsSystem).run (World.quiet s) (before ++ .run t e :: after) =
      (machine commsSystem).run
        (((machine commsSystem).run (World.quiet s) before).next (.run t e)) after :=
    Machine.run_append _ _ _ _
  rw [hrun] at hnobody ⊢
  obtain ⟨c, hc, hwhole⟩ := hG'.follows.invariant
  have hopen : c.drained = none := by
    have hdrained := hG'.drained
    rwa [CommsState.drainedOf, hc, Option.bind_some] at hdrained
  have hmarked := hwhole.tellings.marked d (Set.mem_insert d ∅) hopen
  rcases hwhole.tellings.made d rfl hmarked with hin | ⟨u, hu⟩
  · exact List.count_eq_one_of_mem hwhole.tellings.once hin
  · exact absurd ((nextAct_eq hG'.follows.toFollows hG'.follows.rest u).2.trans hu) (hnobody u)

end Delivered

end Scans

theorem delivered_once_iff {s : CommsState} (hs : s.JustStarted this)
    {before during : List (Op commsSystem)}
    (hcalls : Calls (Call.Unstopped this) (before ++ during))
    (hlegal : (machine commsSystem).Legal (World.quiet s) (before ++ during))
    (hacross : ComesAcross t d ((machine commsSystem).run (World.quiet s) before) during) :
    DeliveredOnce d ((machine commsSystem).run (World.quiet s) (before ++ during)) ↔
      (machine commsSystem).Each (fun w op => ¬ MarksSilently this d w op) (World.quiet s)
          (before ++ during) ∧
        ∀ u, announcing ((machine commsSystem).run (World.quiet s) (before ++ during)) u ≠ some d := by
  obtain ⟨first, e, rest, rfl, hmarks⟩ := hacross.across
  rw [← Machine.run_append] at hmarks
  constructor
  · intro hdelivered
    exact ⟨each_of_delivered hs hcalls hlegal hdelivered,
      not_announcing_of_delivered hs hcalls hlegal hdelivered⟩
  · rintro ⟨heach, hnobody⟩
    have hops : before ++ (first ++ .run t e :: rest) = (before ++ first) ++ .run t e :: rest :=
      (List.append_assoc _ _ _).symm
    exact delivered_of_each hs hcalls hlegal hops hmarks heach hnobody

instance : Decidable (Registered this d w) :=
  inferInstanceAs (Decidable (∃ c ∈ w.state.runtimes.lookup this, c.slot d ≠ none))

instance : DecidablePred (MarksSilently this d w)
  | .start .. => inferInstanceAs (Decidable False)
  | .run t _ => inferInstanceAs (Decidable (marking w t = some d ∧
      ∃ c ∈ w.state.runtimes.lookup this, ¬ c.Marked d ∧ c.slot d = none))

instance : Decidable (DeliveredOnce d w) :=
  inferInstanceAs (Decidable ((told w.state.log).count d = 1))

/-- A scan that finds one device, to which no socket can be opened, up to its end. -/
def lonelyScan : List (Op commsSystem) :=
  .run 0 { devices := some [⟨"aa"⟩] } :: List.replicate 3 (.run 0 {})

theorem delivered_once_registered_first :
    DeliveredOnce (.bluetoothDevice "bt|aa") ((machine commsSystem).run
      (World.quiet (.startedWith { bluetoothDevice := some 7 }))
      (.start 0 (.discoverLinks 0 .comms true) :: (lonelyScan ++ [.run 0 {}]))) := by
  have hlegal : (machine commsSystem).Legal
      (World.quiet (.startedWith { bluetoothDevice := some 7 }))
      ([.start 0 (.discoverLinks 0 .comms true)] ++ (lonelyScan ++ [.run 0 {}])) := by
    decide +kernel
  refine (delivered_once_iff (t := 0) (CommsState.justStarted_startedWith _) ?_ hlegal
    ⟨by decide +kernel, ⟨[.run 0 { devices := some [⟨"aa"⟩] }], {}, _, rfl, by decide +kernel⟩,
      .readLinks .comms, by decide +kernel, trivial⟩).mpr ⟨by decide +kernel, fun u => ?_⟩
  · intro t f hmem
    simp [lonelyScan] at hmem
    obtain ⟨-, rfl⟩ := hmem
    exact ⟨rfl, id⟩
  · by_cases hu : 1 ≤ u
    · rw [announcing, nextAct, nextMethod, run_idle hlegal (by decide +kernel) u hu]
      simp
    · obtain rfl : u = 0 := Nat.lt_one_iff.mp (Nat.not_le.mp hu)
      decide +kernel

/-- Two scans find one device, and a callback is registered between them. -/
def registeredBetween : List (Op commsSystem) :=
  .start 0 (.discoverLinks 0 .comms true) :: lonelyScan ++ List.replicate 2 (.run 0 {}) ++
    .start 1 (.registerCallback 0 .bluetooth .deviceDiscovered (some (some 7))) ::
      List.replicate 2 (.run 1 {}) ++ [.start 0 (.discoverLinks 0 .comms true)]

/-- What a scan comes across while a callback for it is registered all along is delivered once. -/
def DeliversWhileRegistered (this : RuntimePtr) (s : CommsState) : Prop :=
  ∀ (t : Tid) (d : Discovery) (before during : List (Op commsSystem)),
    Calls (Call.Unstopped this) (before ++ during) →
    (machine commsSystem).Legal (World.quiet s) (before ++ during) →
    ComesAcross t d ((machine commsSystem).run (World.quiet s) before) during →
    (machine commsSystem).Always (Registered this d)
      ((machine commsSystem).run (World.quiet s) before) during →
    DeliveredOnce d ((machine commsSystem).run (World.quiet s) (before ++ during))

theorem marked_device_not_delivered : ¬ DeliversWhileRegistered 0 (.startedWith {}) := by
  intro h
  have hdelivered := h 0 (.bluetoothDevice "bt|aa") registeredBetween lonelyScan ?_
    (by decide +kernel) ⟨by decide +kernel, ⟨[.run 0 { devices := some [⟨"aa"⟩] }], {}, _, rfl,
      by decide +kernel⟩, .readLinks .comms, by decide +kernel, trivial⟩ (by decide +kernel)
  · revert hdelivered
    decide +kernel
  · intro t f hmem
    simp [registeredBetween, lonelyScan] at hmem
    rcases hmem with ⟨-, rfl⟩ | ⟨-, rfl⟩ | ⟨-, rfl⟩ <;> exact ⟨rfl, id⟩

end SensorLib.Comms
