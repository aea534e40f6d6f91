import SensorLib.Base.Lookup
import SensorLib.Comms.LinkIds
import SensorLib.Comms.LifetimePrograms
import SensorLib.Threads.Sequential

/-! # What discover links answers

The links of a runtime are read in one act, and only grow until `stop` clears
them. The answers of a run are compared in the order of these acts, which are
each between the start and the end of the call.
-/

namespace SensorLib.Comms

open Threads Runs LinkIds

/-- The instrument is asked for such links. -/
def ActiveLink.Wanted (link : ActiveLink) : InstrumentType → Prop
  | .comms => True
  | .bluetooth => link.link.instrumentType = .bluetooth
  | .wifi => link.link.instrumentType = .wifi
  | _ => False

instance (link : ActiveLink) : DecidablePred link.Wanted
  | .comms => .isTrue trivial
  | .bluetooth => inferInstanceAs (Decidable (link.link.instrumentType = .bluetooth))
  | .wifi => inferInstanceAs (Decidable (link.link.instrumentType = .wifi))
  | .cellular | .gps | .simulation => .isFalse id

/-- The instrument type that a call asks for the links of. -/
def Call.asks : Call → Option InstrumentType
  | .commsRuntimeDiscoverLinks instrumentType true | .discoverLinks _ instrumentType true =>
    some instrumentType
  | _ => none

structure Answer where
  runtime : RuntimePtr
  instrumentType : InstrumentType
  status : ApiStatus
  links : List ActiveLink
  deriving DecidableEq, Repr

/-- The answer that a call has once it has read the links. -/
def answerOf (w : World commsSystem) : Op commsSystem → Option Answer
  | .start .. => none
  | .run t e =>
    match w.thread t, (w.next (.run t e)).thread t with
    | some (f, .act (.method runtime (.readLinks _)) _), some (_, .pure (.links status links)) =>
      f.asks.map fun instrumentType =>
        ⟨runtime, instrumentType, status, links⟩
    | _, _ => none

def answers (w : World commsSystem) : List (Op commsSystem) → List Answer
  | [] => []
  | op :: ops => (answerOf w op).toList ++ answers (w.next op) ops

/-- A later answer begins with the earlier one for the same instrument, and has every link of
another one that is wanted and fits in. -/
structure Answer.Agrees (a b : Answer) : Prop where
  begins : a.instrumentType = b.instrumentType → a.links <+: b.links
  knows : ∀ link ∈ a.links, link.Wanted b.instrumentType →
    link ∈ b.links ∨ b.links.length = commsMaxLinks

/-- In this step a handshake publishes the link in the runtime. -/
def Publishes (this : RuntimePtr) (link : ActiveLink) (w : World commsSystem) : Op commsSystem → Prop
  | .start .. => False
  | .run t _ => nextMethod w t = some (this, .publish link)

/-- In this step `stop` clears the links of the runtime. -/
def Clears (this : RuntimePtr) (w : World commsSystem) : Op commsSystem → Prop
  | .start .. => False
  | .run t _ => nextMethod w t = some (this, .drain)

/-- The runtime has one link to a device: the one that is published, or the one it had before. -/
def Keeps (this : RuntimePtr) (link kept : ActiveLink) (w : World commsSystem) : Prop :=
  kept.key = link.key ∧ ∃ c, w.state.runtimes.lookup this = some c ∧
    if link.key ∈ c.activeLinkKeys then kept ∈ c.activeLinks else kept = link

/-- The instruments that there are links of. -/
def HasLinks : InstrumentType → Prop
  | .bluetooth | .wifi | .comms => True
  | _ => False

/-- The links are those of different devices, each filled in by a handshake. -/
structure Answer.Sound (a : Answer) : Prop where
  status : HasLinks a.instrumentType → a.status = .success
  wanted : ∀ link ∈ a.links, link.Wanted a.instrumentType
  distinct : (a.links.map (·.key)).Nodup
  filled : ∀ link ∈ a.links, ∃ (peer : Peer) (socketFd : Int), link = peer.link socketFd
  fits : a.links.length ≤ commsMaxLinks

namespace Answers

variable {instrumentType : InstrumentType} {links more : List ActiveLink} {link : ActiveLink}

/-! ## The loop that writes the links -/

def wanted (instrumentType : InstrumentType) (links : List ActiveLink) : List ActiveLink :=
  links.filter fun link => decide (link.Wanted instrumentType)

def chosen (instrumentType : InstrumentType) (links : List ActiveLink) : List ActiveLink :=
  (wanted instrumentType links).take commsMaxLinks

theorem wanted_cons_of_pos (h : link.Wanted instrumentType) :
    wanted instrumentType (link :: links) = link :: wanted instrumentType links := by
  simp [wanted, h]

theorem wanted_cons_of_neg (h : ¬ link.Wanted instrumentType) :
    wanted instrumentType (link :: links) = wanted instrumentType links := by
  simp [wanted, h]

theorem mem_wanted : link ∈ wanted instrumentType links ↔ link ∈ links ∧ link.Wanted instrumentType := by
  simp [wanted]

theorem outputLinks_written {written : List ActiveLink} (h : written.length ≤ commsMaxLinks) :
    (outputLinks instrumentType links written).2 =
      written ++ (wanted instrumentType links).take (commsMaxLinks - written.length) := by
  induction links generalizing written with
  | nil => simp [outputLinks, wanted]
  | cons link links ih =>
    have hskip : ¬ link.Wanted instrumentType →
        (outputLinks instrumentType links written).2 = written ++
          (wanted instrumentType (link :: links)).take (commsMaxLinks - written.length) := by
      intro hlink
      rw [wanted_cons_of_neg hlink, ih h]
    unfold outputLinks
    split
    · rename_i hbluetooth
      obtain ⟨rfl, hlink⟩ := hbluetooth
      exact hskip hlink
    · rename_i hbluetooth
      split
      · rename_i hwifi
        obtain ⟨rfl, hlink⟩ := hwifi
        exact hskip hlink
      · rename_i hwifi
        split
        · rename_i hother
          have hnone : ∀ x : ActiveLink, ¬ x.Wanted instrumentType := by
            intro x
            cases instrumentType with
            | comms | wifi | bluetooth => simp at hother
            | _ => exact id
          simp [wanted, hnone]
        · rename_i hknown
          have hwanted : link.Wanted instrumentType := by
            cases instrumentType with
            | comms => trivial
            | bluetooth => simpa [ActiveLink.Wanted] using hbluetooth
            | wifi => simpa [ActiveLink.Wanted] using hwifi
            | _ => simp at hknown
          rw [wanted_cons_of_pos hwanted]
          split
          · rename_i hfull
            have hlength : written.length = commsMaxLinks := by omega
            simp [hlength]
          · rename_i hroom
            have hlength : (written ++ [link]).length = written.length + 1 := by simp
            have hleft : commsMaxLinks - written.length =
                (commsMaxLinks - (written ++ [link]).length) + 1 := by omega
            rw [ih (by omega), hleft, List.take_succ_cons, List.append_assoc]
            rfl

theorem outputLinks_eq : (outputLinks instrumentType links []).2 = chosen instrumentType links :=
  outputLinks_written (Nat.zero_le _)

theorem chosen_prefix (h : links <+: more) : chosen instrumentType links <+: chosen instrumentType more :=
  (h.filter _).take _

/-- A wanted link is written, unless as many as fit in stand before it. -/
theorem mem_chosen (h : link ∈ links) (hwanted : link.Wanted instrumentType) :
    link ∈ chosen instrumentType links ∨ (chosen instrumentType links).length = commsMaxLinks := by
  have hmem : link ∈ wanted instrumentType links := mem_wanted.mpr ⟨h, hwanted⟩
  by_cases hfits : (wanted instrumentType links).length ≤ commsMaxLinks
  · left
    rwa [chosen, List.take_of_length_le hfits]
  · right
    rw [chosen, List.length_take]
    omega

theorem mem_of_chosen (h : link ∈ chosen instrumentType links) :
    link ∈ links ∧ link.Wanted instrumentType :=
  mem_wanted.mp (List.mem_of_mem_take h)

/-! ## The calls -/

/-- The links are read last, and what was read is returned. -/
def EndsInRead (instrumentType : InstrumentType) : Program CallResult → Prop
  | .pure _ => True
  | .lock _ _ k | .unlock _ _ k => EndsInRead instrumentType k
  | .act (.method _ (.readLinks instrumentType')) k =>
    instrumentType' = instrumentType ∧ ∀ x : ApiStatus × List ActiveLink, k x = .pure (.links x.1 x.2)
  | .act _ k => ∀ x, EndsInRead instrumentType (k x)
  | .call .. => False

theorem endsInRead_scans {r : RuntimePtr} {α : Type} {p : Program α} {q : α → Program CallResult}
    (hp : Prog.Only (S := commsSignature) (Lifetimes.Scans r) p)
    (hq : ∀ a, EndsInRead instrumentType (q a)) : EndsInRead instrumentType (Prog.bind p q) := by
  induction p with
  | pure a => exact hq a
  | act a k ih =>
    have hrest : ∀ x, EndsInRead instrumentType (Prog.bind (k x) q) := fun x => ih x (hp.2 x)
    cases a with
    | method r' a =>
      cases a with
      | readLinks => exact hp.1.2.elim
      | _ => exact hrest
    | _ => exact hrest
  | lock | unlock | call => exact hp.elim

/-- How a call hands on what `discover_links` has written. -/
def given (x : ApiStatus × List ActiveLink) : Program CallResult := .pure (.links x.1 x.2)

theorem endsInRead_discoverLinks {r : RuntimePtr} :
    EndsInRead instrumentType
      (Prog.bind (CommsRuntime.discoverLinks r instrumentType true) given) := by
  have hread : EndsInRead instrumentType
      (Prog.bind (method r (.readLinks instrumentType)) given) := ⟨rfl, fun _ => rfl⟩
  have hdiscover : Prog.bind (CommsRuntime.discoverLinks r instrumentType true) given =
      Prog.bind (CommsRuntime.scanOnce r) fun _ =>
        Prog.bind (method r (.readLinks instrumentType)) given :=
    Prog.bind_assoc _ _ _
  rw [hdiscover]
  exact endsInRead_scans Lifetimes.scans_scanOnce fun _ => hread

theorem endsInRead_body {f : Call} (hf : f.asks = some instrumentType) :
    EndsInRead instrumentType f.body := by
  cases f with
  | discoverLinks r instrumentType' output =>
    cases output with
    | false => cases hf
    | true =>
      cases hf
      exact endsInRead_discoverLinks
  | commsRuntimeDiscoverLinks instrumentType' output =>
    cases output with
    | false => cases hf
    | true =>
      cases hf
      intro runtime
      cases runtime with
      | none => trivial
      | some r => exact endsInRead_discoverLinks
  | _ => cases hf

/-! ## What an act does to the links of a runtime -/

variable {s s' : CommsState} {this r : RuntimePtr} {c : CommsRuntime}

/-- A runtime afterwards has more links at most, unless they were cleared, and the new one was
published. -/
structure Grows (a : RuntimeAct) (c c' : CommsRuntime) : Prop where
  kept : a ≠ .drain → c.activeLinks <+: c'.activeLinks
  added : ∀ link ∈ c'.activeLinks, link ∈ c.activeLinks ∨ a = .publish link

theorem Grows.same {a : RuntimeAct} {c' : CommsRuntime} (hlinks : c'.activeLinks = c.activeLinks) :
    Grows a c c' where
  kept _ := hlinks ▸ List.prefix_rfl
  added _ hlink := Or.inl (hlinks ▸ hlink)

theorem grows_execMethod (hc : s.runtimes.lookup this = some c) {e : Choice} {a : RuntimeAct}
    {x : a.Answer} (hexec : s.execMethod this c e a = some (x, s')) :
    s'.created = s.created ∧ ∃ c', Grows a c c' ∧
      ∀ r, s'.runtimes.lookup r = if r = this then some c' else s.runtimes.lookup r := by
  have hset : ∀ c', s' = s.set this c' → Grows a c c' → s'.created = s.created ∧ ∃ c', Grows a c c' ∧
      ∀ r, s'.runtimes.lookup r = if r = this then some c' else s.runtimes.lookup r := by
    rintro c' rfl hgrows
    exact ⟨rfl, c', hgrows, Finmap.lookup_insert_ite _ _ _⟩
  have hsame : s'.created = s.created → s'.runtimes = s.runtimes →
      s'.created = s.created ∧ ∃ c', Grows a c c' ∧
        ∀ r, s'.runtimes.lookup r = if r = this then some c' else s.runtimes.lookup r := by
    intro hcreated hruntimes
    refine ⟨hcreated, c, .same rfl, ?_⟩
    rw [hruntimes]
    exact Finmap.lookup_eq_ite hc
  cases a with
  | begin | finish | join | spawn =>
    simp only [CommsState.execMethod] at hexec
    split at hexec <;> cases hexec
    · exact hset _ rfl (.same rfl)
    all_goals exact hsame rfl rfl
  | see peer =>
    cases hexec
    exact hset _ rfl (.same c.activeLinks_insertSeen)
  | publish link =>
    simp only [CommsState.execMethod] at hexec
    split at hexec <;> cases hexec
    · exact hsame rfl rfl
    · refine hset _ rfl ⟨fun _ => List.prefix_append _ _, fun link' hlink' => ?_⟩
      rcases List.mem_append.mp hlink' with hold | hnew
      · exact Or.inl hold
      · obtain rfl := List.mem_singleton.mp hnew
        exact Or.inr rfl
  | claimRunning | stopRunning =>
    cases hexec
    exact hset _ rfl (.same rfl)
  | registerCallback instrumentType callbackType callback =>
    cases hexec
    apply hset _ rfl
    cases instrumentType <;> cases callbackType <;> exact .same rfl
  | drain =>
    cases hexec
    have hgrows : Grows .drain c
        { c with activeLinks := [], activeLinkKeys := ∅, drained := some c.activeLinks } :=
      ⟨fun hne => absurd rfl hne, fun _ hlink => absurd hlink List.not_mem_nil⟩
    exact ⟨rfl, _, hgrows, Finmap.lookup_insert_ite _ _ _⟩
  | socket | bind =>
    simp only [CommsState.execMethod] at hexec
    split at hexec
    · first
        | (cases hexec; exact hsame rfl rfl)
        | (split at hexec <;> cases hexec; exact hsame rfl rfl)
    · cases hexec
      all_goals exact hsame rfl rfl
  | _ =>
    cases hexec
    exact hsame rfl rfl

/-- What an act makes of one runtime. No act gives an old address to a new runtime. -/
inductive Becomes (r : RuntimePtr) (a : CommsAct) (s s' : CommsState) : Prop
  | new : r = s.created → r < s'.created → s'.runtimes.lookup r = some {} → Becomes r a s s'
  | method {a' : RuntimeAct} {c c' : CommsRuntime} : a = .method r a' →
    s.runtimes.lookup r = some c → s'.runtimes.lookup r = some c' → Grows a' c c' → Becomes r a s s'
  | same : s'.runtimes.lookup r = s.runtimes.lookup r → Becomes r a s s'
  | gone : s'.runtimes.lookup r = none → Becomes r a s s'

/-- Every act makes something of each runtime. -/
theorem becomes_exec {a : CommsAct} {e : Choice} {x : a.Answer} (hexec : s.exec e a = some (x, s'))
    (r : RuntimePtr) : s.created ≤ s'.created ∧ Becomes r a s s' := by
  have herase : ∀ r', s'.created = s.created → s'.runtimes = s.runtimes.erase r' →
      s.created ≤ s'.created ∧ Becomes r a s s' := by
    intro r' hcreated hruntimes
    refine ⟨hcreated.ge, ?_⟩
    by_cases hr : r = r'
    · subst hr
      exact .gone (by rw [hruntimes, Finmap.lookup_erase])
    · exact .same (by rw [hruntimes, Finmap.lookup_erase_ne hr])
  cases a with
  | method this a =>
    cases hc : s.runtimes.lookup this with
    | none => simp [CommsState.exec, hc] at hexec
    | some c =>
      simp only [CommsState.exec, hc] at hexec
      obtain ⟨hcreated, c', hgrows, hlookup⟩ := grows_execMethod hc hexec
      refine ⟨hcreated.ge, ?_⟩
      by_cases hr : r = this
      · subst hr
        exact .method rfl hc (by rw [hlookup, if_pos rfl]) hgrows
      · exact .same (by rw [hlookup, if_neg hr])
  | newRuntime =>
    cases hexec
    refine ⟨Nat.le_succ _, ?_⟩
    by_cases hr : r = s.created
    · subst hr
      exact .new rfl (Nat.lt_succ_self _) (Finmap.lookup_insert _)
    · exact .same (Finmap.lookup_insert_of_ne _ hr)
  | resetRuntime r' | destroy r' =>
    simp only [CommsState.exec] at hexec
    split at hexec <;> cases hexec
    exact herase r' rfl rfl
  | release =>
    simp only [CommsState.exec] at hexec
    split at hexec
    · cases hexec
      exact ⟨le_rfl, .same rfl⟩
    · split at hexec <;> cases hexec <;> exact ⟨le_rfl, .same rfl⟩
  | currentRuntime | retain =>
    cases hexec
    exact ⟨le_rfl, .same rfl⟩

def Known (s : CommsState) : Prop := ∀ r c, s.runtimes.lookup r = some c → r < s.created

theorem known_exec {a : CommsAct} {e : Choice} {x : a.Answer} (h : Known s)
    (hexec : s.exec e a = some (x, s')) : Known s' := by
  intro r c hc
  obtain ⟨hcreated, hbecomes⟩ := becomes_exec hexec r
  cases hbecomes with
  | new hr hnew hlookup => exact hnew
  | method ha hold hlookup hgrows => exact (h r _ hold).trans_le hcreated
  | same hlookup => exact (h r c (hlookup ▸ hc)).trans_le hcreated
  | gone hlookup =>
    rw [hlookup] at hc
    cases hc

/-- A runtime that had these links has them still, if it is there and they were not cleared. -/
structure Had (r : RuntimePtr) (links : List ActiveLink) (s : CommsState) : Prop where
  created : r < s.created
  kept : ∀ c, s.runtimes.lookup r = some c → links <+: c.activeLinks

theorem had_exec {a : CommsAct} {e : Choice} {x : a.Answer} (h : Had r links s)
    (ha : a ≠ .method r .drain) (hexec : s.exec e a = some (x, s')) : Had r links s' := by
  obtain ⟨hcreated, hbecomes⟩ := becomes_exec hexec r
  refine ⟨h.created.trans_le hcreated, fun c hc => ?_⟩
  cases hbecomes with
  | new hr => exact absurd (hr ▸ h.created) (lt_irrefl _)
  | method hact hold hlookup hgrows =>
    rw [hlookup] at hc
    cases hc
    refine (h.kept _ hold).trans (hgrows.kept ?_)
    rintro rfl
    exact ha hact
  | same hlookup => exact h.kept c (hlookup ▸ hc)
  | gone hlookup =>
    rw [hlookup] at hc
    cases hc

/-! ## Runs -/

variable {w : World commsSystem} {op : Op commsSystem}

/-- What holds between steps, whatever calls there are. -/
structure Ordered (w : World commsSystem) : Prop where
  within : w.Within Fills (fun _ _ => True) fun _ => True
  filled : AllFilled w.state
  known : Known w.state
  ends : ∀ t f p instrumentType, w.thread t = some (f, p) → f.asks = some instrumentType →
    EndsInRead instrumentType p

/-- What acts keep of the state a step keeps. -/
theorem state_next {I : CommsState → Prop} (hop : w.enabled op = true)
    (hI : ∀ (a : CommsAct) e (x : a.Answer) s', w.performed op = some (a, e) →
      w.state.exec e a = some (x, s') → I w.state → I s') (h : I w.state) : I (w.next op).state := by
  rcases World.state_next hop with ⟨-, hsame⟩ | ⟨a, e, x, hperformed, hexec⟩
  · rwa [hsame]
  · exact hI a e x _ hperformed hexec h

theorem nextMethod_of_performed {t : Tid} {e e' : Choice} {a : RuntimeAct}
    (h : w.performed (.run t e) = some (.method r a, e')) : nextMethod w t = some (r, a) := by
  obtain ⟨act, hact, heq⟩ := Option.map_eq_some_iff.mp h
  cases heq
  exact nextMethod_iff.mpr (World.nextAct_eq_some.mp hact)

theorem clears_of_performed {e : Choice} (h : w.performed op = some (.method r .drain, e)) :
    Clears r w op := by
  cases op with
  | start t f => cases h
  | run t e => exact nextMethod_of_performed h

theorem publishes_of_performed {e : Choice}
    (h : w.performed op = some (.method r (.publish link), e)) : Publishes r link w op := by
  cases op with
  | start t f => cases h
  | run t e => exact nextMethod_of_performed h

theorem endsInRead_act {a : CommsAct} {k : a.Answer → Program CallResult}
    (h : EndsInRead instrumentType (.act a k)) (x : a.Answer) : EndsInRead instrumentType (k x) := by
  cases a with
  | method r a =>
    cases a with
    | readLinks =>
      rw [h.2 x]
      trivial
    | _ => exact h x
  | _ => exact h x

theorem Ordered.next (h : Ordered w) (hop : w.enabled op = true) : Ordered (w.next op) := by
  obtain ⟨hwithin, hstate⟩ := h.within.next (fun f _ => filling_body f) hop
    (fun _ _ _ => trivial) fun _ _ _ _ _ _ => trivial
  refine ⟨hwithin, ?_, ?_, ?_⟩
  · rcases hstate with heq | ⟨a, e, x, ha, hexec⟩
    · rw [heq]
      exact h.filled
    · exact filled_exec a e _ x _ ha h.filled hexec
  · exact state_next hop (fun _ _ _ _ _ hexec hknown => known_exec hknown hexec) h.known
  · intro t f p instrumentType hthread hf
    cases op with
    | start u g =>
      by_cases hu : t = u
      · subst hu
        simp only [World.next, World.setThread_thread, Function.update_self, Option.some.injEq]
          at hthread
        cases hthread
        exact endsInRead_body hf
      · rw [World.next_start_of_ne g hu] at hthread
        exact h.ends t f p instrumentType hthread hf
    | run u e =>
      by_cases hu : t = u
      · subst hu
        have hran := World.ran hop
        generalize w.next (.run t e) = w' at hran hthread
        cases hran with
        | done => simp at hthread
        | lock hold | unlock hold =>
          simp only [World.setThread_thread, Function.update_self, Option.some.injEq] at hthread
          cases hthread
          have hends := h.ends t f _ instrumentType hold hf
          exact hends
        | act hold hexec =>
          simp only [World.setThread_thread, Function.update_self, Option.some.injEq] at hthread
          cases hthread
          exact endsInRead_act (h.ends t f _ instrumentType hold hf) _
        | call hold =>
          simp only [World.setThread_thread, Function.update_self, Option.some.injEq] at hthread
          cases hthread
          exact (h.ends t f _ instrumentType hold hf).elim
      · rw [World.next_run_of_ne hop hu] at hthread
        exact h.ends t f p instrumentType hthread hf

theorem ordered_initial : Ordered (World.quiet .initial) where
  within t f p hthread := by cases hthread
  filled r c hc := by cases hc
  known r c hc := by cases hc
  ends t f p instrumentType hthread := by cases hthread

theorem Had.next (h : Had r links w.state) (hop : w.enabled op = true) (hclears : ¬ Clears r w op) :
    Had r links (w.next op).state := by
  refine state_next hop (fun a _ _ _ hact hexec hhad => had_exec hhad ?_ hexec) h
  rintro rfl
  exact hclears (clears_of_performed hact)

/-- A read that a call makes is answered by what the runtime has then. -/
theorem answer_read (h : Ordered w) {t : Tid} {e : Choice} {f : Call} {k : _ → Program CallResult}
    (hop : w.enabled (.run t e) = true) {readType : InstrumentType}
    (hthread : w.thread t = some (f, .act (.method r (.readLinks readType)) k))
    (hf : f.asks = some instrumentType) :
    ∃ c, w.state.runtimes.lookup r = some c ∧ answerOf w (.run t e) = some
      ⟨r, instrumentType, (outputLinks instrumentType c.activeLinks []).1,
        chosen instrumentType c.activeLinks⟩ := by
  obtain ⟨rfl, hk⟩ := h.ends t f _ instrumentType hthread hf
  have hran := World.ran hop
  generalize hw' : w.next (.run t e) = w' at hran
  cases hran with
  | @act f' a' k' x s' hold hexec =>
    rw [hthread] at hold
    cases hold
    have hexec' : w.state.exec e (.method r (.readLinks readType)) = some (x, s') := hexec
    cases hc : w.state.runtimes.lookup r with
    | none => simp [CommsState.exec, hc] at hexec'
    | some c =>
      simp only [CommsState.exec, hc, CommsState.execMethod, Option.some.injEq] at hexec'
      cases hexec'
      refine ⟨c, rfl, ?_⟩
      simp only [answerOf, hthread, hw', World.setThread_thread, Function.update_self, hk, hf,
        Option.map_some, outputLinks_eq]
  | done hold | lock hold | unlock hold | call hold =>
    rw [hthread] at hold
    cases hold

/-- There is no other way to an answer. -/
theorem answer_eq (h : Ordered w) (hop : w.enabled op = true) {a : Answer}
    (ha : a ∈ answerOf w op) :
    ∃ c, w.state.runtimes.lookup a.runtime = some c ∧
      a.status = (outputLinks a.instrumentType c.activeLinks []).1 ∧
      a.links = chosen a.instrumentType c.activeLinks := by
  cases op with
  | start t f => cases ha
  | run t e =>
    have hsome : answerOf w (.run t e) = some a := ha
    simp only [answerOf] at ha
    split at ha
    · rename_i f runtime readType k f' status links hthread hnext
      obtain ⟨instrumentType, hf, rfl⟩ := Option.map_eq_some_iff.mp ha
      obtain ⟨c, hc, heq⟩ := answer_read h hop hthread hf
      rw [heq] at hsome
      cases hsome
      exact ⟨c, hc, rfl, rfl⟩
    · cases ha

/-- A read clears nothing. -/
theorem not_clears_of_answer {a : Answer} (ha : a ∈ answerOf w op) : ¬ Clears r w op := by
  cases op with
  | start t f => exact id
  | run t e =>
    intro hclears
    obtain ⟨f, k, hthread⟩ := nextMethod_iff.mp hclears
    simp [answerOf, hthread] at ha

theorem outputLinks_status (h : HasLinks instrumentType) (written : List ActiveLink) :
    (outputLinks instrumentType links written).1 = .success := by
  induction links generalizing written with
  | nil => rfl
  | cons link links ih =>
    unfold outputLinks
    split
    · exact ih written
    · split
      · exact ih written
      · split
        · rename_i hother
          cases instrumentType with
          | bluetooth | wifi | comms => simp at hother
          | _ => exact h.elim
        · split
          · rfl
          · exact ih _

theorem sound_of_filled {a : Answer} (h : Filled c)
    (hstatus : a.status = (outputLinks a.instrumentType c.activeLinks []).1)
    (hlinks : a.links = chosen a.instrumentType c.activeLinks) : a.Sound where
  status hknown := hstatus.trans (outputLinks_status hknown [])
  wanted link hlink := (mem_of_chosen (hlinks ▸ hlink)).2
  distinct := by
    rw [hlinks]
    apply List.Sublist.nodup _ h.distinct
    exact ((List.take_sublist _ _).trans List.filter_sublist).map _
  filled link hlink := h.filled link (mem_of_chosen (hlinks ▸ hlink)).1
  fits := by
    rw [hlinks]
    exact List.length_take_le _ _

/-- What a later answer has, of the links that the runtime had. -/
structure Includes (links : List ActiveLink) (b : Answer) : Prop where
  begins : chosen b.instrumentType links <+: b.links
  knows : ∀ link ∈ links, link.Wanted b.instrumentType →
    link ∈ b.links ∨ b.links.length = commsMaxLinks

theorem includes_answer (h : Ordered w) (hop : w.enabled op = true) {b : Answer}
    (hb : b ∈ answerOf w op) (hhad : Had b.runtime links w.state) : Includes links b := by
  obtain ⟨c, hc, -, hlinks⟩ := answer_eq h hop hb
  have hbegins : links <+: c.activeLinks := hhad.kept c hc
  constructor
  · rw [hlinks]
    exact chosen_prefix hbegins
  · intro link hlink hwanted
    rw [hlinks]
    exact mem_chosen (hbegins.subset hlink) hwanted

/-- Until its links are cleared, all answers of the runtime include what it had. -/
theorem includes_later {ops : List (Op commsSystem)} (h : Ordered w) (hhad : Had r links w.state)
    (hlegal : (machine commsSystem).Legal w ops) :
    (machine commsSystem).EachUntil (fun w op => ∀ b ∈ answerOf w op, b.runtime = r → Includes links b)
      (Clears r) w ops := by
  refine Machine.Each.eachUntil (M := machine commsSystem)
    (I := fun w => Ordered w ∧ Had r links w.state) ?_ ?_ hlegal ⟨h, hhad⟩
  · rintro w op ⟨h, hhad⟩ hop hclears
    exact ⟨h.next hop, hhad.next hop hclears⟩
  · rintro w op ⟨h, hhad⟩ hop b hb rfl
    exact includes_answer h hop hb hhad

/-- What is read from now on includes what the runtime has now. -/
theorem had_now (h : Ordered w) (hc : w.state.runtimes.lookup r = some c) :
    Had r c.activeLinks w.state := by
  constructor
  · exact h.known r c hc
  · intro c' hc'
    rw [hc, Option.some.injEq] at hc'
    rw [hc']

/-- Until the links are cleared, all later answers of the runtime agree with one. -/
theorem agrees_later {ops : List (Op commsSystem)} (h : Ordered w) (hop : w.enabled op = true)
    {a : Answer} (ha : a ∈ answerOf w op) (hlegal : (machine commsSystem).Legal (w.next op) ops) :
    (machine commsSystem).EachUntil
      (fun w op => ∀ b ∈ answerOf w op, b.runtime = a.runtime → a.Agrees b) (Clears a.runtime)
      (w.next op) ops := by
  obtain ⟨c, hc, -, hlinks⟩ := answer_eq h hop ha
  have hhad := (had_now h hc).next hop (not_clears_of_answer ha)
  refine (includes_later (h.next hop) hhad hlegal).mono fun w op hincludes b hb hruntime => ?_
  constructor
  · intro htype
    rw [hlinks, htype]
    exact (hincludes b hb hruntime).begins
  · intro link hlink
    exact (hincludes b hb hruntime).knows link (mem_of_chosen (hlinks ▸ hlink)).1

theorem sound_answers {ops : List (Op commsSystem)} (h : Ordered w)
    (hlegal : (machine commsSystem).Legal w ops) : ∀ a ∈ answers w ops, a.Sound := by
  induction ops generalizing w with
  | nil =>
    intro a ha
    cases ha
  | cons op ops ih =>
    obtain ⟨hop, hlegal⟩ := hlegal
    intro a ha
    rcases List.mem_append.mp ha with hfirst | hlater
    · obtain ⟨c, hc, hstatus, hlinks⟩ := answer_eq h hop (Option.mem_toList.mp hfirst)
      exact sound_of_filled (h.filled _ c hc) hstatus hlinks
    · exact ih (h.next hop) hlegal a hlater

/-! ## What was published -/

/-- The key of a link tells which instrument it is of. -/
theorem wanted_of_key {peer peer' : Peer} {fd fd' : Int} (hkey : (peer.link fd).key = (peer'.link fd').key)
    (h : (peer.link fd).Wanted instrumentType) : (peer'.link fd').Wanted instrumentType := by
  have hkeys := congrArg String.toList hkey
  simp only [Peer.key_link, String.toList_append] at hkeys
  have hbluetooth : "bt".toList = ['b', 't'] := by decide
  have hwifi : "wifi".toList = ['w', 'i', 'f', 'i'] := by decide
  cases peer <;> cases peer'
  · cases instrumentType <;> exact h
  · simp [Peer.kind, hbluetooth, hwifi] at hkeys
  · simp [Peer.kind, hbluetooth, hwifi] at hkeys
  · cases instrumentType <;> exact h

/-- The runtime has afterwards what it keeps of a link that is published. -/
theorem published_next (h : Ordered w) (hop : w.enabled op = true) (hpublishes : Publishes r link w op) :
    ∃ c' kept, (w.next op).state.runtimes.lookup r = some c' ∧ kept ∈ c'.activeLinks ∧
      Keeps r link kept w := by
  cases op with
  | start t f => exact hpublishes.elim
  | run t e =>
    obtain ⟨f, k, hthread⟩ := nextMethod_iff.mp hpublishes
    have hran := World.ran hop
    generalize w.next (.run t e) = w' at hran
    cases hran with
    | @act f' a' k' x s' hold hexec =>
      rw [hthread] at hold
      cases hold
      have hexec' : w.state.exec e (.method r (.publish link)) = some (x, s') := hexec
      cases hc : w.state.runtimes.lookup r with
      | none => simp [CommsState.exec, hc] at hexec'
      | some c =>
        simp only [CommsState.exec, hc, CommsState.execMethod] at hexec'
        split at hexec'
        · rename_i hkey
          cases hexec'
          have hmem := hkey
          rw [(h.filled r c hc).keys, List.mem_toFinset] at hmem
          obtain ⟨kept, hkept, hsame⟩ := List.mem_map.mp hmem
          exact ⟨c, kept, hc, hkept, hsame, c, hc, by rwa [if_pos hkey]⟩
        · rename_i hkey
          cases hexec'
          refine ⟨_, link, Finmap.lookup_insert _, ?_, rfl, c, hc, by rw [if_neg hkey]⟩
          exact List.mem_append_right _ List.mem_cons_self
    | done hold | lock hold | unlock hold | call hold =>
      rw [hthread] at hold
      cases hold

/-- Until the links are cleared, all later answers of the runtime have what it keeps of the link. -/
theorem published_later {ops : List (Op commsSystem)} (h : Ordered w) (hop : w.enabled op = true)
    (hpublishes : Publishes r link w op)
    (hlegal : (machine commsSystem).Legal (w.next op) ops) :
    (machine commsSystem).EachUntil
      (fun w' op' => ∀ b ∈ answerOf w' op', b.runtime = r → link.Wanted b.instrumentType →
        (∃ kept ∈ b.links, Keeps r link kept w) ∨ b.links.length = commsMaxLinks)
      (Clears r) (w.next op) ops := by
  obtain ⟨c', kept, hc', hkept, hkeeps⟩ := published_next h hop hpublishes
  have hordered := h.next hop
  have hfills : Fills (.method r (.publish link)) := by
    cases op with
    | start t f => exact hpublishes.elim
    | run t e =>
      obtain ⟨f, k, hthread⟩ := nextMethod_iff.mp hpublishes
      exact (h.within t f _ hthread).1
  refine (includes_later hordered (had_now hordered hc') hlegal).mono ?_
  intro w' op' hincludes b hb hruntime hwanted
  have hwanted' : kept.Wanted b.instrumentType := by
    obtain ⟨peer, fd, rfl⟩ := hfills
    obtain ⟨peer', fd', rfl⟩ := (hordered.filled r c' hc').filled kept hkept
    exact wanted_of_key hkeeps.1.symm hwanted
  apply ((hincludes b hb hruntime).knows kept hkept hwanted').imp_left
  exact fun hin => ⟨kept, hin, hkeeps⟩

/-- A link that a runtime has afterwards it has had, or a handshake has published it. -/
theorem link_next (hop : w.enabled op = true) (hc : (w.next op).state.runtimes.lookup r = some c)
    (hlink : link ∈ c.activeLinks) :
    (∃ c₀, w.state.runtimes.lookup r = some c₀ ∧ link ∈ c₀.activeLinks) ∨ Publishes r link w op := by
  revert c
  refine state_next (I := fun s => ∀ {c}, s.runtimes.lookup r = some c → link ∈ c.activeLinks → _)
    hop ?_ fun hc hlink => Or.inl ⟨_, hc, hlink⟩
  intro a e x s' hact hexec hold c hc hlink
  cases (becomes_exec hexec r).2 with
  | new hr hnew hlookup =>
    rw [hlookup] at hc
    cases hc
    cases hlink
  | method ha hbefore hlookup hgrows =>
    subst ha
    rw [hlookup] at hc
    cases hc
    rcases hgrows.added link hlink with hin | rfl
    · exact hold hbefore hin
    · exact Or.inr (publishes_of_performed hact)
  | same hlookup => exact hold (hlookup ▸ hc) hlink
  | gone hlookup =>
    rw [hlookup] at hc
    cases hc

/-- Every link of a runtime was published in the run. -/
def Traced (w : World commsSystem) (ops : List (Op commsSystem)) : Prop :=
  ∀ r c, ((machine commsSystem).run w ops).state.runtimes.lookup r = some c →
    ∀ link ∈ c.activeLinks, (machine commsSystem).Sometime (Publishes r link) w ops

theorem Traced.later {ops : List (Op commsSystem)} (h : Traced w ops)
    (hop : ((machine commsSystem).run w ops).enabled op = true) : Traced w (ops ++ [op]) := by
  intro r c hc link hlink
  rw [Machine.run_append] at hc
  rcases link_next hop hc hlink with ⟨c₀, hc₀, hold⟩ | hpublishes
  · exact (h r c₀ hc₀ link hold).later op
  · exact Machine.sometime_now hpublishes

end Answers

open Answers

/-- The step is the read of a call that asks for links. -/
def ReadsLinks (w : World commsSystem) : Op commsSystem → Prop
  | .start .. => False
  | .run t _ => ∃ f p, w.thread t = some (f, p) ∧ f.asks ≠ none ∧
      ∃ r instrumentType, nextMethod w t = some (r, .readLinks instrumentType)

/-- What the answers of a run have to do with each other and with what was published. -/
structure AnswersAgree (s : CommsState) (ops : List (Op commsSystem)) : Prop where
  answered : (machine commsSystem).Each (fun w op => ReadsLinks w op → (answerOf w op).isSome)
    (World.quiet s) ops
  sound : ∀ a ∈ answers (World.quiet s) ops, a.Sound
  published : ∀ before op after, ops = before ++ op :: after →
    ∀ a ∈ answerOf ((machine commsSystem).run (World.quiet s) before) op, ∀ link ∈ a.links,
      (machine commsSystem).Sometime (Publishes a.runtime link) (World.quiet s) before
  agree : ∀ before op after, ops = before ++ op :: after →
    ∀ a ∈ answerOf ((machine commsSystem).run (World.quiet s) before) op,
      (machine commsSystem).EachUntil
        (fun w op => ∀ b ∈ answerOf w op, b.runtime = a.runtime → a.Agrees b) (Clears a.runtime)
        (((machine commsSystem).run (World.quiet s) before).next op) after
  complete : ∀ before op after this link, ops = before ++ op :: after →
    Publishes this link ((machine commsSystem).run (World.quiet s) before) op →
      (machine commsSystem).EachUntil
        (fun w op => ∀ b ∈ answerOf w op, b.runtime = this → link.Wanted b.instrumentType →
          (∃ kept ∈ b.links, Keeps this link kept ((machine commsSystem).run (World.quiet s) before)) ∨
            b.links.length = commsMaxLinks)
        (Clears this) (((machine commsSystem).run (World.quiet s) before).next op) after

/-- The run before a step, and the rest of it, are such runs too. -/
theorem Answers.ordered_at {before after : List (Op commsSystem)} {op : Op commsSystem}
    (hlegal : (machine commsSystem).Legal (World.quiet .initial) (before ++ op :: after)) :
    Ordered ((machine commsSystem).run (World.quiet .initial) before) ∧
      ((machine commsSystem).run (World.quiet .initial) before).enabled op = true ∧
        (machine commsSystem).Legal (((machine commsSystem).run (World.quiet .initial) before).next op)
          after := by
  obtain ⟨hbefore, hop, hafter⟩ := (Machine.each_append _ _ _).mp hlegal
  exact ⟨Machine.Each.invariant (fun _ _ h hop => h.next hop) hbefore ordered_initial, hop, hafter⟩

/-- All the answers of a run agree, and with what was published, whatever else runs. -/
theorem answers_agree {ops : List (Op commsSystem)}
    (hlegal : (machine commsSystem).Legal (World.quiet .initial) ops) :
    AnswersAgree .initial ops where
  answered := by
    apply Machine.Each.each (M := machine commsSystem) (I := Ordered) _ _ hlegal ordered_initial
    · intro w op h hop
      exact h.next hop
    · intro w op h hop hreads
      cases op with
      | start t f => exact hreads.elim
      | run t e =>
        obtain ⟨f, p, hthread, hf, r, readType, hnext⟩ := hreads
        obtain ⟨instrumentType, hasks⟩ := Option.ne_none_iff_exists'.mp hf
        obtain ⟨f', k, hthread'⟩ := nextMethod_iff.mp hnext
        rw [hthread] at hthread'
        cases hthread'
        obtain ⟨c, -, heq⟩ := answer_read h hop hthread hasks
        rw [heq]
        rfl
  sound := sound_answers ordered_initial hlegal
  published := by
    rintro before op after rfl a ha link hlink
    obtain ⟨hordered, hop, -⟩ := ordered_at hlegal
    obtain ⟨c, hc, -, hlinks⟩ := answer_eq hordered hop ha
    have htraced : Traced (World.quiet .initial) before := by
      refine Machine.Each.remembered (M := machine commsSystem) (fun _ _ h hop => h.later hop) hlegal
        ?_ before (List.prefix_append _ _)
      intro r c hc
      cases hc
    exact htraced a.runtime c hc link (mem_of_chosen (hlinks ▸ hlink)).1
  agree := by
    rintro before op after rfl a ha
    obtain ⟨hordered, hop, hafter⟩ := ordered_at hlegal
    exact agrees_later hordered hop ha hafter
  complete := by
    rintro before op after this link rfl hpublishes
    obtain ⟨hordered, hop, hafter⟩ := ordered_at hlegal
    exact published_later hordered hop hpublishes hafter

/-- Two calls for the links, with a handshake in the second one. -/
def askedTwice : List (Op commsSystem) :=
  bothLinks ++ .start 1 (.commsRuntimeDiscoverLinks .wifi true) ::
    List.replicate 4 (.run 1 {}) ++
    .run 1 { candidates := [⟨⟨"AA:BB:CC:DD:EE:10"⟩, "wlan0", "10.0.0.2"⟩] } :: .run 1 {} ::
      .run 1 { fd := 7 } :: List.replicate 6 (.run 1 {})

theorem answers_agree_asked_twice :
    AnswersAgree .initial askedTwice ∧
      (answers (World.quiet .initial) askedTwice).map (fun a => a.links.map (·.key)) =
        [["bt|AA:BB:CC:DD:EE:0F", "wifi|AA:BB:CC:DD:EE:0F"],
          ["wifi|AA:BB:CC:DD:EE:0F", "wifi|AA:BB:CC:DD:EE:10"]] :=
  ⟨answers_agree (by decide +kernel), by decide +kernel⟩

end SensorLib.Comms
