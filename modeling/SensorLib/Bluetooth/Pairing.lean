import SensorLib.Bluetooth.Network
import SensorLib.Threads.Discipline
import SensorLib.Threads.Paths

/-! # Which adapters are connected to each other

Neither side checks who is at the other end. It is the peer as long as two
devices that dial a third one do not have the same PSM.
-/

namespace SensorLib.Bluetooth

open Threads Runs CString

namespace Pairing

variable (lib : Libraries) (population : List Placement)

/-- The adapter listens, or dials. -/
def HasRole (this : AdapterId) (listens : Bool) : Prop :=
  ∀ p ∈ population[this]?, listens = true ↔ p.Listens lib

def MayRun : PairAct → Prop
  | .endpoint this .bind | .endpoint this .listen | .endpoint this .accept => HasRole lib population this true
  | .endpoint this (.connect .comms) => HasRole lib population this false
  | _ => True

def Told : (a : PairAct) → a.Answer → Prop
  | .endpoint this .isListener, listens => HasRole lib population this listens
  | _, _ => True

end Pairing

open Pairing

@[reducible] def roleDiscipline (lib : Libraries) (population : List Placement) :
    Discipline (pairSystem lib) where
  Ghost := Unit
  initial _ _ := ()
  mayLock _ _ _ _ _ := False
  locked _ _ g _ _ := g
  mayUnlock _ _ _ _ := False
  unlocked _ g _ _ := g
  mayAct _ _ _ a := MayRun lib population a
  answers _ _ a x := Told lib population a x
  acted _ g _ _ := g
  mayCall _ _ _ _ := False
  returns _ _ _ _ _ _ := False
  finished _ _ _ := True

namespace Pairing

variable {lib : Libraries} {population : List Placement} {this : AdapterId}

/-! ## The programs -/

theorem only_requestLoop (rounds : Nat) :
    (Adapters.requestLoop this rounds).Only (MayRun lib population) := by
  induction rounds with
  | zero => trivial
  | succ rounds ih =>
    refine ⟨trivial, fun connected => ?_⟩
    cases connected with
    | true => trivial
    | false =>
      refine ⟨trivial, fun wait => ?_⟩
      cases wait with
      | expired => trivial
      | notReady => exact ih
      | expiredReady => exact ⟨trivial, fun _ => trivial⟩
      | ready =>
        refine ⟨trivial, fun failure => ?_⟩
        have hagain : Prog.Only (MayRun lib population) (do
            if ← endpointAct this .timeLeft then Adapters.requestLoop this rounds else pure ()) := by
          refine ⟨trivial, fun timeLeft => ?_⟩
          cases timeLeft with
          | true => exact ih
          | false => trivial
        rcases failure with _ | _ | _ | _ | _ | _ | _ | _ | _
        all_goals first | exact hagain | trivial

theorem only_connectLoop (h : HasRole lib population this false) (rounds : Nat) :
    (Adapters.connectLoop this rounds).Only (MayRun lib population) := by
  induction rounds with
  | zero => trivial
  | succ rounds ih =>
    refine ⟨trivial, fun wait => ?_⟩
    cases wait with
    | expired | notReady | expiredReady => trivial
    | ready =>
      refine ⟨h, fun failure => ?_⟩
      have hagain : Prog.Only (MayRun lib population) (do
          if ← endpointAct this .timeLeft then Adapters.connectLoop this rounds else pure ()) := by
        refine ⟨trivial, fun timeLeft => ?_⟩
        cases timeLeft with
        | true => exact ih
        | false => trivial
      rcases failure with _ | _ | _ | _ | _ | _ | _ | _ | _
      all_goals first | exact hagain | exact ⟨trivial, fun _ => hagain⟩ | exact ⟨trivial, fun _ => trivial⟩ | trivial

theorem only_listenForPeer (h : HasRole lib population this true) :
    (Adapters.listenForPeer this).Only (MayRun lib population) := by
  refine ⟨trivial, fun timeLeft => ?_⟩
  cases timeLeft with
  | false => trivial
  | true =>
    refine ⟨h, fun bound => ?_⟩
    cases bound with
    | false => trivial
    | true =>
      refine ⟨h, fun listens => ?_⟩
      cases listens with
      | false => trivial
      | true =>
        refine ⟨h, fun accepted => ?_⟩
        cases accepted with
        | false => trivial
        | true => exact ⟨trivial, fun _ => trivial⟩

theorem keeps_only_mayRun {α : Type} {f : PairCall} {p : PairProgram α} (hp : p.Only (MayRun lib population)) :
    (roleDiscipline lib population).Keeps f p [] () :=
  Discipline.keeps_only (fun _ ha => ⟨ha, fun _ => rfl⟩) hp

theorem roles_cover : (roleDiscipline lib population).Covers fun _ => True := by
  intro f s _
  have hend : ∀ (b : Bool), (roleDiscipline lib population).Obeys f
      (if b = true then pure 0 else pure (-1) : PairProgram Int) [] () fun _ h _ => h = [] ∧ True := by
    intro b
    cases b with
    | true => exact ⟨rfl, trivial⟩
    | false => exact ⟨rfl, trivial⟩
  cases f with
  | conn this =>
    refine ⟨trivial, fun _ _ => ⟨trivial, fun (listens : Bool) hlistens => ?_⟩⟩
    have hattempt : Prog.Only (MayRun lib population)
        (Prog.interleave (S := pairSignature) .turn (fun x => x) (Adapters.sendConnectionRequest this)
          (if listens then Adapters.listenForPeer this else Adapters.connectToPeer this)) := by
      apply Prog.Only.interleave
      · trivial
      · exact only_requestLoop maxRetries
      · cases listens with
        | true => exact only_listenForPeer hlistens
        | false => exact only_connectLoop hlistens maxRetries
    show (roleDiscipline lib population).Obeys _ (Prog.bind (Prog.interleave _ _ _ _) _) [] () _
    apply Discipline.Keeps.bind (keeps_only_mayRun hattempt)
    exact fun _ => ⟨trivial, fun b _ => hend b⟩
  | disconn this =>
    exact ⟨trivial, fun _ _ => ⟨trivial, fun _ _ => ⟨trivial, fun _ _ => ⟨trivial, fun b _ => hend b⟩⟩⟩⟩
  | destructor this =>
    exact ⟨trivial, fun _ _ => ⟨trivial, fun _ _ => ⟨trivial, fun _ _ => ⟨rfl, trivial⟩⟩⟩⟩

/-! ## The adapters -/

variable (lib population) in
/-- What holds of an adapter: the addresses are those that were derived, and what is connected, or
waits to be accepted, comes from the peer. -/
structure Fitting (i : AdapterId) (p : Placement) (ep : Endpoint) : Prop where
  derived : Derived lib p.own p.peer { adapter := ep.adapter }
  bound : ∀ addr ∈ ep.sockfdListen.boundAddr,
    addr = ep.adapter.localAddr ∧ p.Listens lib ∧ L2capValid (p.port lib)
  backlog : ∀ x ∈ ep.sockfdListen.backlog, Mirrored population x.1 i
  connected : ∀ other, ep.sockfd = .connected other → ∃ j ∈ other, Mirrored population i j

variable (lib population) in
structure Wired (s : Network) : Prop where
  length : s.length = population.length
  fitting : ∀ i, ∀ p ∈ population[i]?, ∀ ep ∈ s[i]?, Fitting lib population i p ep

theorem mirrored_symm {i j : AdapterId} (h : Mirrored population i j) : Mirrored population j i := by
  obtain ⟨p, hp, q, hq, hown, hpeer⟩ := h
  exact ⟨q, hq, p, hp, hpeer.symm, hown.symm⟩

namespace Wired

variable {s : Network} {ep : Endpoint}

theorem placement (h : Wired lib population s) (hep : s[this]? = some ep) :
    ∃ p, population[this]? = some p := by
  obtain ⟨hlt, -⟩ := List.getElem?_eq_some_iff.mp hep
  rw [h.length] at hlt
  exact ⟨_, List.getElem?_eq_getElem hlt⟩

theorem modify (h : Wired lib population s) {f : Endpoint → Endpoint}
    (hf : ∀ p ∈ population[this]?, ∀ ep ∈ s[this]?, Fitting lib population this p (f ep)) :
    Wired lib population (s.modify this f) := by
  constructor
  · rw [List.length_modify, h.length]
  · intro i p hp ep hep
    rw [List.getElem?_modify] at hep
    obtain ⟨ep', hep', rfl⟩ := Option.map_eq_some_iff.mp hep
    by_cases hi : this = i
    · subst hi
      simp only [if_pos]
      exact hf p hp ep' hep'
    · simp only [if_neg hi]
      exact h.fitting i p hp ep' hep'

theorem set (h : Wired lib population s) {ep' : Endpoint}
    (hep : ∀ p ∈ population[this]?, Fitting lib population this p ep') :
    Wired lib population (s.set this ep') := by
  rw [List.set_eq_modify]
  exact h.modify fun p hp _ _ => hep p hp

end Wired

namespace Fitting

variable {i : AdapterId} {p : Placement} {ep : Endpoint}

theorem setSocket (h : Fitting lib population i p ep) (channel : Channel) {socket : DataSocket}
    (hsocket : channel = .comms → ∀ other, socket = .connected other → ∃ j ∈ other, Mirrored population i j) :
    Fitting lib population i p (ep.setSocket channel socket) := by
  cases channel with
  | comms => exact ⟨h.derived, h.bound, h.backlog, hsocket rfl⟩
  | request => exact ⟨h.derived, h.bound, h.backlog, h.connected⟩

theorem setListening (h : Fitting lib population i p ep) {socket : ListeningSocket}
    (hbound : ∀ addr ∈ socket.boundAddr, addr ∈ ep.sockfdListen.boundAddr)
    (hbacklog : ∀ x ∈ socket.backlog, Mirrored population x.1 i) :
    Fitting lib population i p { ep with sockfdListen := socket } :=
  ⟨h.derived, fun addr haddr => h.bound addr (hbound addr haddr), hbacklog, h.connected⟩

end Fitting

/-! ## What a step does -/

theorem generateUniquePort_ne (macAddress : Text) : generateUniquePort lib macAddress ≠ bratislavaPort := by
  rw [generateUniquePort_eq]
  generalize (lib.sha256 macAddress).get 1 = b
  revert b
  refine forall_byte ?_
  decide +kernel

theorem mirrored_of_bound (hports : PortsDistinct lib population) (hlib : lib.Faithful)
    {i j : AdapterId} {p q : Placement} (hp : population[i]? = some p) (hq : population[j]? = some q)
    (hdials : ¬ p.Listens lib) {ep other : Endpoint} (hep : Fitting lib population i p ep)
    (hother : Fitting lib population j q other)
    (hbound : ep.adapter.remoteAddr ∈ other.sockfdListen.boundAddr) : Mirrored population i j := by
  obtain ⟨haddr, hlistens, hvalid⟩ := hother.bound _ hbound
  rw [hep.derived.remoteAddr, hother.derived.localAddr, SockaddrL2.mk.injEq, hlib.str2ba] at haddr
  obtain ⟨-, hport, hown⟩ := haddr
  have hport := hlib.htobs hport
  refine ⟨p, hp, q, hq, hown.symm, ?_⟩
  apply hports p (List.mem_of_getElem? hp) q (List.mem_of_getElem? hq) hdials hlistens hown.symm hvalid
  exact hport.symm

variable {s s' : Network} {ep : Endpoint} {e : PairChoice}

theorem wired_connect (hports : PortsDistinct lib population) (hlib : lib.Faithful)
    (h : Wired lib population s) (hep : s[this]? = some ep) {channel : Channel}
    (hdials : channel = .comms → HasRole lib population this false) {x : Option ConnectErrno}
    (hexec : s.connect lib this ep e channel = some (x, s')) : Wired lib population s' := by
  obtain ⟨p, hp⟩ := h.placement hep
  have hfitting := h.fitting this p hp ep hep
  have hremote : channel = .comms → (ep.remote lib channel).psm ≠ lib.htobs bratislavaPort := by
    rintro rfl heq
    rw [Endpoint.remote, hfitting.derived.remoteAddr] at heq
    exact generateUniquePort_ne _ (hlib.htobs heq)
  unfold Network.connect at hexec
  split at hexec
  · cases hexec
    exact h
  · split at hexec
    · split at hexec
      · split at hexec <;> cases hexec
        rename_i hpsm
        apply h.set
        intro p' hp'
        cases Option.some.inj (hp.symm.trans hp')
        exact hfitting.setSocket channel fun hcomms => absurd hpsm (hremote hcomms)
      · rename_i other _
        split at hexec
        · rename_i adapter connected sockfd sockfdRequest addr backlog hother
          split at hexec <;> cases hexec
          rename_i haddr
          obtain ⟨q, hq⟩ := h.placement hother
          have hlistener := h.fitting other q hq _ hother
          -- A request does not come to an adapter.
          have hchannel : channel = .comms := by
            cases channel with
            | comms => rfl
            | request =>
              obtain ⟨hlocal, -, -⟩ := hlistener.bound addr rfl
              rw [haddr, Endpoint.remote, hlistener.derived.localAddr, SockaddrL2.mk.injEq] at hlocal
              exact absurd (hlib.htobs hlocal.2.1).symm (generateUniquePort_ne _)
          subst hchannel
          have hmirrored : Mirrored population this other := by
            apply mirrored_of_bound hports hlib hp hq _ hfitting hlistener
            · exact congrArg some haddr
            · intro hlistens
              have hrole := (hdials rfl p hp).mpr hlistens
              cases hrole
          have hwaits : Wired lib population (s.set other ⟨adapter, connected, sockfd, sockfdRequest,
              .listening addr (backlog ++ [(this, .comms)])⟩) := by
            apply h.set
            intro q' hq'
            cases Option.some.inj (hq.symm.trans hq')
            apply hlistener.setListening
            · exact fun addr' haddr' => haddr'
            · intro y hy
              rcases List.mem_append.mp hy with hy | hy
              · exact hlistener.backlog y hy
              · obtain rfl := List.mem_singleton.mp hy
                exact hmirrored
          apply hwaits.modify
          intro p' hp' ep' hep'
          apply (hwaits.fitting this p' hp' ep' hep').setSocket .comms
          rintro - other' heq
          cases heq
          exact ⟨other, rfl, hmirrored⟩
        · cases hexec
    · cases hexec

theorem wired_bind (hlib : lib.Faithful) (h : Wired lib population s) (hep : s[this]? = some ep)
    (hlistens : HasRole lib population this true) {x : Bool}
    (hexec : s.bind lib this ep e = some (x, s')) : Wired lib population s' := by
  unfold Network.bind at hexec
  split at hexec
  · split at hexec
    · split at hexec <;> cases hexec
      rename_i hpsm
      obtain ⟨hpsm, hvalid, -⟩ := hpsm
      apply h.set
      intro p hp
      have hfitting := h.fitting this p hp ep hep
      rw [hfitting.derived.localAddr] at hpsm
      have hport : e.psm = p.port lib := hlib.htobs hpsm
      refine ⟨hfitting.derived, ?_, nofun, hfitting.connected⟩
      intro addr haddr
      cases haddr
      exact ⟨rfl, (hlistens p hp).mp rfl, hport ▸ hvalid⟩
    · cases hexec
      exact h
  · cases hexec
    exact h

theorem wired_accept (h : Wired lib population s) (hep : s[this]? = some ep) {x : Bool}
    (hexec : s.accept this ep e = some (x, s')) : Wired lib population s' := by
  unfold Network.accept at hexec
  split at hexec
  · split at hexec
    · cases hexec
      rename_i addr other channel backlog hlistening
      apply h.set
      intro p hp
      have hfitting := h.fitting this p hp ep hep
      have hbound := hfitting.bound
      have hwaiting := hfitting.backlog
      rw [hlistening] at hbound hwaiting
      refine ⟨hfitting.derived, hbound, ?_, ?_⟩
      · exact fun y hy => hwaiting y (List.mem_cons_of_mem _ hy)
      · rintro other' heq
        cases heq
        exact ⟨other, rfl, mirrored_symm (hwaiting (other, channel) List.mem_cons_self)⟩
    · cases hexec
  · cases hexec
    exact h

theorem wired_endpoint (hports : PortsDistinct lib population) (hlib : lib.Faithful)
    (h : Wired lib population s) (hep : s[this]? = some ep) {a : EndpointAct}
    (hmay : MayRun lib population (.endpoint this a)) {x : a.Answer}
    (hexec : s.execEndpoint lib this ep e a = some (x, s')) :
    Told lib population (.endpoint this a) x ∧ Wired lib population s' := by
  have hset : ∀ ep', (∀ p ∈ population[this]?, Fitting lib population this p ep →
      Fitting lib population this p ep') → Wired lib population (s.set this ep') := by
    intro ep' hep'
    apply h.set
    exact fun p hp => hep' p hp (h.fitting this p hp ep hep)
  cases a with
  | isListener =>
    cases hexec
    refine ⟨?_, h⟩
    intro p hp
    exact (h.fitting this p hp ep hep).derived.isListener
  | isConnected | timeLeft | wait | isOpen =>
    cases hexec
    exact ⟨trivial, h⟩
  | setConnected connected =>
    cases hexec
    exact ⟨trivial, hset _ fun p hp hfit => ⟨hfit.derived, hfit.bound, hfit.backlog, hfit.connected⟩⟩
  | connect channel =>
    refine ⟨trivial, wired_connect hports hlib h hep ?_ hexec⟩
    rintro rfl
    exact hmay
  | setupRemoteAddr =>
    cases hexec
    refine ⟨trivial, hset _ fun p hp hfit => ?_⟩
    rw [hfit.derived.setupRemoteAddr]
    exact hfit
  | bind => exact ⟨trivial, wired_bind hlib h hep hmay hexec⟩
  | listen =>
    simp only [Network.execEndpoint] at hexec
    split at hexec
    · split at hexec <;> cases hexec
      · rename_i addr hbound _
        refine ⟨trivial, hset _ fun p hp hfit => hfit.setListening ?_ nofun⟩
        rw [hbound]
        exact fun addr' haddr' => haddr'
      · exact ⟨trivial, h⟩
    · cases hexec
      exact ⟨trivial, h⟩
  | accept => exact ⟨trivial, wired_accept h hep hexec⟩
  | closeSocket =>
    cases hexec
    exact ⟨trivial, hset _ fun p hp hfit => hfit.setSocket .comms nofun⟩
  | createSocket =>
    cases hexec
    refine ⟨trivial, hset _ fun p hp hfit => hfit.setSocket .comms ?_⟩
    intro _ other heq
    split at heq <;> cases heq
  | closeRequest =>
    cases hexec
    exact ⟨trivial, hset _ fun p hp hfit => hfit.setSocket .request nofun⟩
  | closeListening =>
    cases hexec
    exact ⟨trivial, hset _ fun p hp hfit => hfit.setListening nofun nofun⟩

theorem roles_sound (hports : PortsDistinct lib population) (hlib : lib.Faithful) :
    (roleDiscipline lib population).Sound (fun s _ _ => Wired lib population s) fun _ _ _ => True where
  start _ _ _ _ _ h _ := h
  lock _ _ _ _ _ _ _ _ _ _ hmay := hmay.elim
  unlock _ _ _ _ _ _ _ _ _ hmay := hmay.elim
  call _ _ _ _ hmay := hmay.elim
  act s _ _ _ _ a e x s' _ h _ hmay hexec := by
    cases a with
    | turn =>
      cases hexec
      exact ⟨trivial, h⟩
    | endpoint this a =>
      obtain ⟨ep, hep, hexec⟩ := Option.bind_eq_some_iff.mp hexec
      exact wired_endpoint hports hlib h hep hmay hexec

theorem wired_started {s : Network} (h : s.Started lib population) : Wired lib population s := by
  refine ⟨h.length, fun i p hp ep hep => ?_⟩
  have hnew := h.endpoints i p hp ep hep
  constructor
  · rw [hnew.adapter]
    exact derived_new p.read
  · intro addr haddr
    rcases hnew.sockfdListen with heq | heq
    · rw [heq] at haddr
      cases haddr
    · rw [heq] at haddr
      cases haddr
  · intro x hx
    rcases hnew.sockfdListen with heq | heq
    · rw [heq] at hx
      cases hx
    · rw [heq] at hx
      cases hx
  · exact fun other heq => absurd heq (hnew.sockfd other)

theorem Wired.paired {s : Network} (h : Wired lib population s) : Paired population s := by
  intro i ep other hep hconnected
  obtain ⟨p, hp⟩ := h.placement hep
  exact (h.fitting i p hp ep hep).connected other hconnected

/-! ## Two devices with the same PSM -/

/-- An adapter all of whose sockets were created. -/
def created (lib : Libraries) (p : Placement) : Endpoint where
  adapter := .new lib (lib.ba2str p.peer) p.hci

theorem started_created : Network.Started lib population (population.map (created lib)) := by
  constructor
  · rw [List.length_map]
  · intro i p hp ep hep
    rw [List.getElem?_map, Option.mem_def.mp hp] at hep
    cases hep
    exact ⟨rfl, nofun, Or.inl rfl⟩

theorem exec_of_endpoint {s s' : Network} {ep : Endpoint} (hep : s[this]? = some ep) {e : PairChoice}
    {a : EndpointAct} {x : a.Answer} (h : s.execEndpoint lib this ep e a = some (x, s')) :
    s.exec lib e (.endpoint this a) = some (x, s') := by
  rw [Network.exec, hep, Option.bind_some]
  exact h

theorem set_same {s : Network} {ep : Endpoint} (hep : s[this]? = some ep) : s.set this ep = s := by
  obtain ⟨hlt, rfl⟩ := List.getElem?_eq_some_iff.mp hep
  exact List.set_getElem_self hlt

/-- `conn` has nothing to undo at an adapter that is not connected. -/
theorem exec_setConnected {s : Network} {ep : Endpoint} (hep : s[this]? = some ep)
    (hconnected : ep.connected = false) :
    s.exec lib {} (.endpoint this (.setConnected false)) = some ((), s) := by
  have hsame : ({ ep with connected := false } : Endpoint) = ep := by rw [← hconnected]
  apply exec_of_endpoint hep
  rw [Network.execEndpoint, hsame, set_same hep]

theorem exec_isListener {s : Network} {ep : Endpoint} (hep : s[this]? = some ep) {listens : Bool}
    (hlistens : ep.adapter.isListener = listens) :
    s.exec lib {} (.endpoint this .isListener) = some (listens, s) :=
  exec_of_endpoint hep (by rw [Network.execEndpoint, hlistens])

/-- The steps of an orderly run without destructors. -/
structure Careful (w : World (pairSystem lib)) (op : Op (pairSystem lib)) : Prop where
  oneAtATime : OneAtATime w op
  keepsRequest : KeepsRequest w op
  starts : ∀ t i, op ≠ .start t (.destructor i)

variable {w v : World (pairSystem lib)} {t : Tid}

/-- A call of `conn` starts where none is under way on the adapter. -/
theorem careful_start (hfree : ∀ u g p, v.thread u = some (g, p) → g.this ≠ this) :
    Careful v (.start t (.conn this)) := ⟨hfree, trivial, fun _ _ heq => by cases heq⟩

theorem leadsTo_act (h : w.LeadsTo Careful v) {f : PairCall} {a : PairAct} {k : a.Answer → PairProgram Int}
    (hthread : v.thread t = some (f, .act a k)) {e : PairChoice} {x : a.Answer} {s : Network}
    (hexec : v.state.exec lib e a = some (x, s))
    (ha : ∀ i, a ≠ .endpoint i .closeRequest := by simp) :
    w.LeadsTo Careful { v.setThread t (some (f, k x)) with state := s } := by
  refine h.act hthread hexec ⟨trivial, fun i k' heq => ?_, fun _ _ heq => by cases heq⟩
  cases hthread.symm.trans heq
  exact ha i rfl

theorem orderly_of_careful {ops : List (Op (pairSystem lib))}
    (h : (machine (pairSystem lib)).Each Careful w ops) : Orderly w ops where
  oneAtATime := h.mono fun _ _ hop => hop.oneAtATime
  destructorLast before after u i heq := by
    have hstarts := Machine.forall_of_each (M := machine (pairSystem lib))
      (C := fun op => ∀ t i, op ≠ .start t (.destructor i)) (h.mono fun _ _ hop => hop.starts)
    refine absurd rfl (hstarts _ ?_ u i)
    rw [heq]
    exact List.mem_append_right _ List.mem_cons_self
  keepsRequest := h.mono fun _ _ hop => hop.keepsRequest

/-- A call of `conn` gets to `accept` at an adapter whose address can be bound. -/
theorem leadsTo_listening (h : w.LeadsTo Careful v) (hidle : v.thread t = none)
    (hfree : ∀ u g p, v.thread u = some (g, p) → g.this ≠ this) {listener : Endpoint}
    (hlistener : v.state[this]? = some listener) (hlistens : listener.adapter.isListener = true)
    (hconnected : listener.connected = false) (hunbound : listener.sockfdListen = .unbound)
    (hothers : ∀ ep ∈ v.state, ep.sockfdListen.boundAddr = none) {psm : UInt16}
    (hpsm : lib.htobs psm = listener.adapter.localAddr.psm) (hvalid : L2capValid psm) :
    ∃ v', w.LeadsTo Careful v' ∧ (∀ u, u ≠ t → v'.thread u = v.thread u) ∧
      (∃ p, v'.thread t = some (.conn this, p)) ∧ v'.state = v.state.set this
        { listener with sockfdListen := .listening listener.adapter.localAddr [] } := by
  obtain ⟨hlt, -⟩ := List.getElem?_eq_some_iff.mp hlistener
  have hbind : Network.execEndpoint lib v.state this listener { psm } .bind =
      some (true, v.state.set this { listener with sockfdListen := .bound listener.adapter.localAddr }) := by
    have hfree : ∀ ep ∈ v.state, ep.sockfdListen.boundAddr ≠ some listener.adapter.localAddr := by
      intro ep hep
      rw [hothers ep hep]
      exact nofun
    rw [Network.execEndpoint, Network.bind, hunbound]
    exact if_pos (show lib.htobs psm = listener.adapter.localAddr.psm ∧ L2capValid psm ∧ _ from
      ⟨hpsm, hvalid, hfree⟩)
  have hlisten : Network.execEndpoint lib
      (v.state.set this { listener with sockfdListen := .bound listener.adapter.localAddr }) this
      { listener with sockfdListen := .bound listener.adapter.localAddr } {} .listen =
      some (true, v.state.set this
        { listener with sockfdListen := .listening listener.adapter.localAddr [] }) := by
    exact congrArg (fun s : Network => some (true, s)) (List.set_set _)
  have h0 := h.start hidle (f := .conn this) (careful_start hfree)
  have h1 := leadsTo_act h0 (Function.update_self ..) (exec_setConnected hlistener hconnected)
  have h2 := leadsTo_act h1 (Function.update_self ..) (exec_isListener hlistener hlistens)
  have h3 := leadsTo_act h2 (e := {}) (Function.update_self ..) rfl
  have h4 := leadsTo_act h3 (e := {}) (Function.update_self ..) (exec_of_endpoint hlistener rfl)
  have h5 := leadsTo_act h4 (e := {}) (Function.update_self ..) rfl
  have h6 := leadsTo_act h5 (Function.update_self ..) (exec_of_endpoint hlistener hbind)
  have h7 := leadsTo_act h6 (e := {}) (Function.update_self ..) rfl
  have h8 := leadsTo_act h7 (Function.update_self ..)
    (exec_of_endpoint (List.getElem?_set_self hlt) hlisten)
  refine ⟨_, h8, fun u hu => ?_, ⟨_, Function.update_self ..⟩, rfl⟩
  simp [Function.update_of_ne hu]

/-- A call of `conn` gets connected to an adapter that listens at the address that it dials. -/
theorem leadsTo_dialled (h : w.LeadsTo Careful v) (hidle : v.thread t = none)
    (hfree : ∀ u g p, v.thread u = some (g, p) → g.this ≠ this) {dialler : Endpoint}
    (hdialler : v.state[this]? = some dialler) (hdials : dialler.adapter.isListener = false)
    (hconnected : dialler.connected = false) (hunconnected : dialler.sockfd = .unconnected)
    {other : AdapterId} (hother : other ≠ this) {listener : Endpoint}
    (hlistener : v.state[other]? = some listener)
    (hlistening : listener.sockfdListen = .listening dialler.adapter.remoteAddr []) :
    ∃ v' ep, w.LeadsTo Careful v' ∧ v'.state[this]? = some ep ∧ ep.sockfd = .connected (some other) := by
  obtain ⟨adapter, connected, sockfd, sockfdRequest, sockfdListen⟩ := listener
  obtain rfl : sockfdListen = .listening dialler.adapter.remoteAddr [] := hlistening
  have hconnect : Network.execEndpoint lib v.state this dialler { target := some other } (.connect .comms) =
      some (none, (v.state.set other ⟨adapter, connected, sockfd, sockfdRequest,
        .listening dialler.adapter.remoteAddr [(this, .comms)]⟩).modify this
          (·.setSocket .comms (.connected (some other)))) := by
    simp [Network.execEndpoint, Network.connect, Endpoint.socket, hunconnected, hlistener, Endpoint.remote]
  have h0 := h.start hidle (f := .conn this) (careful_start hfree)
  have h1 := leadsTo_act h0 (Function.update_self ..) (exec_setConnected hdialler hconnected)
  have h2 := leadsTo_act h1 (Function.update_self ..) (exec_isListener hdialler hdials)
  have h3 := leadsTo_act h2 (e := {}) (Function.update_self ..) rfl
  have h4 := leadsTo_act h3 (e := {}) (Function.update_self ..) (exec_of_endpoint hdialler rfl)
  have h5 := leadsTo_act h4 (e := {}) (Function.update_self ..) rfl
  have h6 := leadsTo_act h5 (Function.update_self ..) (exec_of_endpoint hdialler hconnect)
  refine ⟨_, dialler.setSocket .comms (.connected (some other)), h6, ?_, rfl⟩
  show (List.modify _ _ _)[this]? = _
  rw [List.getElem?_modify, List.getElem?_set_ne hother, hdialler]
  simp

end Pairing

/-- In every orderly run of any number of adapters, each connected socket leads to the adapter that is
for this one, if and only if the devices can be told apart. -/
theorem connections_pair_up_iff {lib : Libraries} (hlib : lib.Faithful) (population : List Placement) :
    (∀ (s : Network) (ops : List (Op (pairSystem lib))), s.Started lib population →
      (machine (pairSystem lib)).Legal (World.quiet s) ops → Orderly (World.quiet s) ops →
      (machine (pairSystem lib)).Always (fun w => Paired population w.state) (World.quiet s) ops) ↔
    PortsDistinct lib population := by
  constructor
  · intro hpaired p hp q hq hdials hlistens hown hvalid hport
    obtain ⟨i, hi⟩ := List.getElem?_of_mem hp
    obtain ⟨j, hj⟩ := List.getElem?_of_mem hq
    have hij : j ≠ i := by
      rintro rfl
      cases Option.some.inj (hi.symm.trans hj)
      exact hdials hlistens
    have hderivedP : Derived lib p.own p.peer { adapter := (created lib p).adapter } := derived_new p.read
    have hderivedQ : Derived lib q.own q.peer { adapter := (created lib q).adapter } := derived_new q.read
    have hroleP : (created lib p).adapter.isListener = false := by
      apply Bool.eq_false_iff.mpr
      exact fun hrole => hdials (hderivedP.isListener.mp hrole)
    have hroleQ : (created lib q).adapter.isListener = true := hderivedQ.isListener.mpr hlistens
    have haddr : (created lib q).adapter.localAddr = (created lib p).adapter.remoteAddr := by
      rw [hderivedQ.localAddr, hderivedP.remoteAddr, hlib.str2ba, hown]
      exact congrArg (fun n => SockaddrL2.mk AF_BLUETOOTH (lib.htobs n) p.peer) hport
    have hgetP : (population.map (created lib))[i]? = some (created lib p) := by
      rw [List.getElem?_map, hi, Option.map_some]
    have hgetQ : (population.map (created lib))[j]? = some (created lib q) := by
      rw [List.getElem?_map, hj, Option.map_some]
    have hunbound : ∀ ep ∈ population.map (created lib), ep.sockfdListen.boundAddr = none := by
      intro ep hep
      obtain ⟨p', -, rfl⟩ := List.mem_map.mp hep
      rfl
    have hpsm : lib.htobs (q.port lib) = (created lib q).adapter.localAddr.psm := by
      rw [hderivedQ.localAddr]
      rfl
    have hstart : (World.quiet (population.map (created lib)) : World (pairSystem lib)).LeadsTo Careful
        (World.quiet (population.map (created lib))) := .refl _
    obtain ⟨v, hv, hidle, ⟨rest, hlistening⟩, hstate⟩ :=
      leadsTo_listening (t := 0) hstart rfl (fun _ _ _ heq => by cases heq) hgetQ hroleQ rfl rfl hunbound
        hpsm hvalid
    have hidle' : v.thread 1 = none := hidle 1 (by decide)
    have hfree : ∀ u g p, v.thread u = some (g, p) → g.this ≠ i := by
      intro u g p hthread
      by_cases hu : u = 0
      · rw [hu, hlistening] at hthread
        cases hthread
        exact hij
      · cases (hidle u hu).symm.trans hthread
    have hdialler : v.state[i]? = some (created lib p) := by
      rw [hstate]
      exact (List.getElem?_set_ne hij).trans hgetP
    have hlistener : v.state[j]? = some { created lib q with
        sockfdListen := .listening (created lib p).adapter.remoteAddr [] } := by
      rw [hstate, ← haddr]
      exact List.getElem?_set_self (List.getElem?_eq_some_iff.mp hgetQ).1
    obtain ⟨v', ep, ⟨ops, hlegal, hcareful, rfl⟩, hep, hconnected⟩ :=
      leadsTo_dialled hv hidle' hfree hdialler hroleP rfl rfl hij hlistener rfl
    obtain ⟨k, hk, p', hp', q', hq', -, hpeer⟩ :=
      (hpaired _ ops started_created hlegal (orderly_of_careful hcareful)).last i ep _ hep hconnected
    cases hk
    cases Option.some.inj (hi.symm.trans hp')
    cases Option.some.inj (hj.symm.trans hq')
    exact hpeer
  · intro hports s ops hstarted hlegal _
    apply Machine.Each.always (M := machine (pairSystem lib))
      (I := fun w => ∃ G, (roleDiscipline lib population).Follows (fun s _ _ => Wired lib population s) w G)
    · intro w op hfollows hop
      apply Discipline.Follows.step (roles_sound hports hlib) roles_cover hfollows
      refine ⟨hop, ?_⟩
      cases op with
      | start => trivial
      | run => exact fun _ _ _ => trivial
    · rintro w ⟨G, hG⟩
      exact hG.invariant.paired
    · exact hlegal
    · exact ⟨fun _ => (), Discipline.follows_quiet (wired_started hstarted)⟩

/-! ## A third device -/

def hexValue (c : UInt8) : UInt8 := if c < 58 then c - 48 else c - 55

/-- Reads what `printBdaddr` prints. -/
def readBdaddr (text : Text) : Bdaddr :=
  let byte i := 16 * hexValue (text.getD i 0) + hexValue (text.getD (i + 1) 0)
  ⟨#v[byte 15, byte 12, byte 9, byte 6, byte 3, byte 0]⟩

theorem hexValue_hexByte (b : UInt8) :
    16 * hexValue (hexDigit (b.toNat / 16)) + hexValue (hexDigit (b.toNat % 16)) = b := by
  revert b
  refine forall_byte ?_
  decide +kernel

/-- All addresses have the hash of 00:1A:7D:DA:71:13. -/
def sameHash : Libraries where
  ba2str := printBdaddr
  str2ba := readBdaddr
  htobs n := n
  sha256 := twoDevices.sha256 ∘ fun _ => printBdaddr listening

theorem sameHash_faithful : sameHash.Faithful := by
  constructor
  · intro a
    obtain ⟨b⟩ := a
    rw [Bdaddr.mk.injEq]
    refine Vector.ext fun i hi => ?_
    match i, hi with
    | 0, _ | 1, _ | 2, _ | 3, _ | 4, _ | 5, _ => exact hexValue_hexByte _
  · exact Function.injective_id

/-- DC:A6:32:0B:44:F1 -/
def thirdDevice : Bdaddr := ⟨#v[0xF1, 0x44, 0x0B, 0x32, 0xA6, 0xDC]⟩

def between (own peer : Bdaddr) : Placement where
  own
  peer
  hci := ⟨0, 3, some own⟩
  read := ⟨Int.le_refl 0, Int.natCast_nonneg 3, rfl⟩

theorem connections_pair_up_iff_third_device :
    ¬ ∀ (s : Network) (ops : List (Op (pairSystem sameHash))),
      s.Started sameHash [between listening dialling, between thirdDevice listening] →
      (machine (pairSystem sameHash)).Legal (World.quiet s) ops → Orderly (World.quiet s) ops →
      (machine (pairSystem sameHash)).Always
        (fun w => Paired [between listening dialling, between thirdDevice listening] w.state)
        (World.quiet s) ops := by
  rw [connections_pair_up_iff sameHash_faithful]
  intro hports
  have hpeer : dialling = thirdDevice :=
    hports (between thirdDevice listening) (by simp) (between listening dialling) (by simp)
      (by unfold Placement.Listens; decide +kernel) (by unfold Placement.Listens; decide +kernel) rfl
      (by decide +kernel) (by decide +kernel)
  exact absurd hpeer (by decide)

end SensorLib.Bluetooth
