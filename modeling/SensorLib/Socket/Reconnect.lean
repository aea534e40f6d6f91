import SensorLib.Registry.Ports
import SensorLib.Socket.Methods

/-! # A connection that is up already

`connect` on a socket that is connected reports `EISCONN`. `ConnectToPeer`
gives up on it, and `bratislavaConn` reports a failure where its header
promises 0.
-/

namespace SensorLib

open Threads Threads.Prog Runs Handles BratislavaSocketRegistry

/-- The system of the sockets, with what the rounds of `ConnectToPeer` came to. -/
@[reducible] def attemptSystem (reuse : Bool) : System socketSignature :=
  (socketSystem reuse).recording fun act e _ (attempts : List Attempt) =>
    match act with
    | .adapter _ (.attempt .comms) => e.attempt :: attempts
    | _ => attempts

/-- Where `connect` on `sockfd_` reported 0 or `EISCONN`, the result is 0 and the handle is
connected. -/
def HonoursConnection (x : SocketPtr) (value : Int) (s : SharedState × List Attempt) : Prop :=
  .connected ∈ s.2 ∨ .alreadyConnected ∈ s.2 →
    value = 0 ∧ s.1.registry.isConnectedSocket x = true

/-- The registry when `ConnectToPeer` starts. Only a Wi-Fi adapter asks for a local port. -/
def BratislavaSocketRegistry.atConnect (r : BratislavaSocketRegistry) (link : BratislavaLink)
    (kind : AdapterKind) : BratislavaSocketRegistry :=
  if kind = .wifi .adapter then (r.addLocalPort link.wifiDeviceInfo.macAddress).2 else r

/-- The registry can record a connection of the handle. -/
def SharedState.canFlag (s : SharedState) (x : SocketPtr) : Bool :=
  match s.heap.lookup x with
  | some { link, adapter := .object a } =>
    ((s.registry.atConnect link a.kind).connect x).2.isConnectedSocket x
  | _ => false

/-- The acts that neither change `connected_` nor connect `sockfd_`. -/
def AdapterAct.Aside : AdapterAct → Prop
  | .setConnected _ | .listenForPeer | .attempt .comms => False
  | _ => True

theorem AdapterAct.Requests.aside {a : AdapterAct} (ha : a.Requests) : a.Aside := by
  cases a with
  | setConnected | listenForPeer => exact ha
  | attempt channel => cases channel <;> exact ha
  | _ => trivial

/-- An act does not change the class of its adapter, and seldom the flag. -/
theorem Adapter.exec_frame {a a' : Adapter} {fds fds' : List Int} {e : Choice} {act : AdapterAct}
    {answer : act.Answer} (h : a.exec fds e act = some (answer, a', fds')) :
    a'.kind = a.kind ∧ (act.Aside → a'.connected = a.connected) := by
  cases act with
  | socket | attempt | receivePort =>
    simp only [exec] at h
    split at h
    · cases h
      exact ⟨rfl, fun _ => rfl⟩
    · cases h
  | listenForPeer =>
    rcases exec_listenForPeer h with ⟨-, rfl, -⟩ | ⟨-, -, rfl, -⟩
    · exact ⟨rfl, fun _ => rfl⟩
    · exact ⟨rfl, fun haside => haside.elim⟩
  | setConnected =>
    cases h
    exact ⟨rfl, fun haside => haside.elim⟩
  | _ =>
    cases h
    exact ⟨rfl, fun _ => rfl⟩

namespace Reconnect

theorem overlooks : Overlooks fun act e _ (attempts : List Attempt) =>
    match act with
    | .adapter _ (.attempt .comms) => e.attempt :: attempts
    | _ => attempts := by
  intro a _ _ _ hoff
  cases a <;> first | rfl | exact hoff.elim

/-- The object of the handle with its class, the flag of its adapter, the registry and the rounds
so far. -/
structure At (x : SocketPtr) (link : BratislavaLink) (kind : AdapterKind)
    (r : BratislavaSocketRegistry) (i : Bool × List Attempt) (s : SharedState × List Attempt) :
    Prop where
  object : ∃ a, s.1.heap.lookup x = some { link, adapter := .object a } ∧ a.kind = kind ∧
    a.connected = i.1
  registry : s.1.registry = r
  attempts : s.2 = i.2

variable {reuse b flags : Bool} {x : SocketPtr} {link : BratislavaLink} {kind : AdapterKind}
  {r : BratislavaSocketRegistry} {i : Bool × List Attempt} {attempts : List Attempt}
  {s s' : SharedState × List Attempt} {e : Choice} {act : AdapterAct}

/-! ## The acts -/

theorem exec_of_object {a : Adapter} {answer : act.Answer}
    (hx : s.1.heap.lookup x = some { link, adapter := .object a })
    (hexec : (attemptSystem reuse).exec (.adapter x act) e s = some (answer, s')) :
    ∃ a', a.exec s.1.openFds e act = some (answer, a', s'.1.openFds) ∧
      s'.1.heap.lookup x = some { link, adapter := .object a' } ∧
      s'.1.registry = s.1.registry ∧
      s'.2 = if act = .attempt .comms then e.attempt :: s.2 else s.2 := by
  obtain ⟨s', attempts'⟩ := s'
  obtain ⟨hexec', hattempts⟩ := System.recording_exec hexec
  simp only [SharedState.exec, hx] at hexec'
  obtain ⟨⟨answer', a', fds⟩, hadapter, heq⟩ := Option.map_eq_some_iff.mp hexec'
  cases heq
  refine ⟨a', hadapter, Finmap.lookup_insert _, rfl, hattempts.trans ?_⟩
  cases act with
  | attempt channel => cases channel <;> rfl
  | _ => rfl

/-- An act of the adapter, and where it leads. -/
theorem At.exec (h : At x link kind r i s) {answer : act.Answer}
    (hexec : (attemptSystem reuse).exec (.adapter x act) e s = some (answer, s')) :
    ∃ a a' : Adapter, a.connected = i.1 ∧ a.exec s.1.openFds e act = some (answer, a', s'.1.openFds) ∧
      At x link kind r (a'.connected, if act = .attempt .comms then e.attempt :: i.2 else i.2) s' := by
  obtain ⟨a, hx, rfl, hflag⟩ := h.object
  obtain ⟨a', hadapter, hx', hregistry, hattempts⟩ := exec_of_object hx hexec
  refine ⟨a, a', hflag, hadapter, ⟨a', hx', (Adapter.exec_frame hadapter).1, rfl⟩,
    hregistry.trans h.registry, ?_⟩
  rw [hattempts, h.attempts]

theorem At.setRegistry (h : At x link kind r i s) (r' : BratislavaSocketRegistry) :
    At x link kind r' i (s.1.setRegistry r', s.2) := ⟨h.object, rfl, h.attempts⟩

theorem keeps_aside (act : AdapterAct) (hact : act.Aside) :
    (Contract.free (attemptSystem reuse)).Keeps (At x link kind r i) (.adapter x act) := by
  refine fun s h => ⟨trivial, fun e answer s' _ hexec => ?_⟩
  obtain ⟨a, a', hflag, hadapter, h'⟩ := h.exec hexec
  have hne : act ≠ .attempt .comms := by
    rintro rfl
    exact hact
  rwa [(Adapter.exec_frame hadapter).2 hact, hflag, if_neg hne] at h'

theorem keeps_requests {a : SocketAct} (ha : ActsOn AdapterAct.Requests x a) :
    (Contract.free (attemptSystem reuse)).Keeps (At x link kind r i) a := by
  cases a with
  | adapter y act =>
    obtain ⟨rfl, hact⟩ := ha
    exact keeps_aside act hact.aside
  | turn =>
    refine fun s h => ⟨trivial, fun e answer s' _ hexec => ?_⟩
    cases hexec
    exact h
  | _ => exact ha.elim

theorem brings_setConnected :
    (Contract.free (attemptSystem reuse)).Brings (At x link kind r (b, attempts))
      (.adapter x (.setConnected flags)) fun _ => At x link kind r (flags, attempts) := by
  refine fun s h => ⟨trivial, fun e answer s' _ hexec => ?_⟩
  obtain ⟨a, a', -, hadapter, h'⟩ := h.exec hexec
  simp only [Adapter.exec, Option.some.injEq, Prod.mk.injEq] at hadapter
  obtain ⟨-, rfl, -⟩ := hadapter
  exact h'

/-! ## The rounds -/

/-- The adapter counts as connected where `connect` reported 0, and then the rounds were over. -/
structure Judged (i : Bool × List Attempt) : Prop where
  connected : i.1 = true ↔ .connected ∈ i.2
  last : .connected ∈ i.2 → .alreadyConnected ∉ i.2

theorem along_connectLoop (rounds : Nat) (hjudged : Judged (false, attempts))
    (hnone : .alreadyConnected ∉ attempts) :
    (Contract.free (attemptSystem reuse)).WpAlong (At x link kind r)
      (BaseAdapter.connectLoop x rounds) (fun _ s => ∃ i, Judged i ∧ At x link kind r i s)
      (false, attempts) := by
  induction rounds generalizing attempts with
  | zero => exact fun s hs => ⟨_, hjudged, hs⟩
  | succ rounds ih =>
    refine fun s hs => ⟨trivial, fun e answer s' _ hexec => ?_⟩
    obtain ⟨a, a', hflag, hadapter, hs'⟩ := hs.exec hexec
    simp only [Adapter.exec] at hadapter
    split at hadapter
    · simp only [Option.some.injEq, Prod.mk.injEq] at hadapter
      obtain ⟨rfl, rfl, -⟩ := hadapter
      rw [hflag, if_pos rfl] at hs'
      refine ⟨_, hs', ?_⟩
      have hnotConnected : .connected ∉ attempts := fun hmem => by
        cases hjudged.connected.mpr hmem
      cases hround : e.attempt with
      | connected =>
        rw [hround] at hs'
        refine fun s hs => ⟨trivial, fun e _ s' _ hexec => ⟨(true, .connected :: attempts), ?_, ?_⟩⟩
        · exact (brings_setConnected s hs).2 e _ s' trivial hexec
        · refine fun s hs => ⟨_, ⟨?_, fun _ => ?_⟩, hs⟩
          · exact ⟨fun _ => List.mem_cons_self, fun _ => rfl⟩
          · simpa using hnone
      | unavailable => exact ih ⟨by simpa using hnotConnected, by simp [hnone]⟩ (by simpa using hnone)
      | _ =>
        exact fun s hs => ⟨_, ⟨by simpa using hnotConnected, by simp [hnotConnected]⟩, hs⟩
    · cases hadapter

/-- The two adapters run the same loop. -/
theorem along_connectToPeer :
    (Contract.free (attemptSystem reuse)).WpAlong (At x link kind r)
      (BaseAdapter.connectLoop x maxRetries) (fun _ s => ∃ i, Judged i ∧ At x link kind r i s)
      (false, []) :=
  along_connectLoop maxRetries ⟨by simp, by simp⟩ (by simp)

/-- An adapter that listens makes no attempt, whatever `accept` returns. -/
theorem along_listenForPeer :
    (Contract.free (attemptSystem reuse)).WpAlong (At x link kind r)
      (adapterAct x .listenForPeer) (fun _ s => ∃ b, At x link kind r (b, []) s) (b, []) := by
  refine fun s hs => ⟨trivial, fun e _ s' _ hexec => ?_⟩
  obtain ⟨a, a', -, -, h'⟩ := hs.exec hexec
  exact ⟨_, h', fun s hs => ⟨_, hs⟩⟩

/-! ## The methods of the registry -/

section Methods

variable {α β : Type} {Q : β → SharedState × List Attempt → Prop}

/-- A method of the registry that has one outcome leaves the rounds alone. -/
theorem wp_method {p : Program α} {q : α → Program β} {a : α} {t : SharedState}
    (hp : PinnedBlock (fun _ => True) x (fun _ => True) α p)
    (hcomputes : p.Computes (attemptSystem reuse) [] (s.1, s.2) a (t, s.2))
    (hq : (Contract.free (attemptSystem reuse)).Wp (q a) Q (t, s.2)) :
    (Contract.free (attemptSystem reuse)).Wp (p.bind q) Q s :=
  wp_computes hcomputes hp.actsIn hq

theorem wp_setupLocalAddr {id : String} {q : Unit → Program β}
    (hq : (Contract.free (attemptSystem reuse)).Wp (q ()) Q s) :
    (Contract.free (attemptSystem reuse)).Wp ((WifiAdapter.setupLocalAddr id).bind q) Q s := by
  refine Contract.wp_bind.mpr (wp_method (x := 0) (p := Registry.getLocalPort id)
    (.getLocalPort id) (computes_getAttribute overlooks (below_nil 4) id _ _) ?_)
  exact hq

end Methods

/-! ## The call -/

/-- What the call leaves, for a registry that can record the connection if `flags` says so. -/
def Settles (x : SocketPtr) (flags : Bool) (value : Int) (s : SharedState × List Attempt) : Prop :=
  HonoursConnection x value s ↔
    .alreadyConnected ∉ s.2 ∧ (.connected ∈ s.2 → flags = true)

/-- Without a round that reported a connection nothing is promised. -/
theorem settles_of_nil {value : Int} (hs : s.2 = []) : Settles x flags value s := by
  simp [Settles, HonoursConnection, hs]

/-- A registry that records the connection settles the call where the adapter counts as
connected. -/
theorem Judged.settles (hjudged : Judged i) {value : Int} (hattempts : s.2 = i.2)
    (hvalue : if i.1 then value = 0 ∧ s.1.registry.isConnectedSocket x = flags else value = -1) :
    Settles x flags value s := by
  rw [Settles, HonoursConnection, hattempts]
  obtain ⟨b, attempts⟩ := i
  cases b with
  | false =>
    obtain rfl : value = -1 := hvalue
    have hnone : .connected ∉ attempts := fun hmem => by cases hjudged.connected.mpr hmem
    simp [hnone]
  | true =>
    obtain ⟨rfl, hflags⟩ : value = 0 ∧ s.1.registry.isConnectedSocket x = flags := hvalue
    have hmem : .connected ∈ attempts := hjudged.connected.mp rfl
    simp [hmem, hjudged.last hmem, hflags]

/-- The end of `conn`: the connection is recorded where the adapter counts as connected. -/
theorem wp_finishConn (h : At x link kind r i s) :
    (Contract.free (attemptSystem reuse)).Wp (BaseAdapter.finishConn x)
      (fun value s => s.2 = i.2 ∧
        if i.1 then value = 0 ∧ s.1.registry = (r.connect x).2 else value = -1) s := by
  refine ⟨trivial, fun e connected s₁ _ hexec => ⟨trivial, ?_⟩⟩
  obtain ⟨a, a', hflag, hadapter, h₁⟩ := h.exec hexec
  simp only [Adapter.exec, Option.some.injEq, Prod.mk.injEq] at hadapter
  obtain ⟨rfl, rfl, -⟩ := hadapter
  rw [hflag, if_neg (by simp)] at h₁
  rw [hflag]
  obtain ⟨b, attempts⟩ := i
  cases b with
  | false => exact ⟨h₁.attempts, rfl⟩
  | true =>
    refine wp_method (p := Registry.connect x) .connect (computes_connect overlooks (below_nil 4)) ?_
    refine (keeps_aside .configureForComms trivial).wp_act (fun _ _ => trivial)
      (h₁.setRegistry _) fun _ s₂ h₂ => ?_
    exact ⟨h₂.attempts, rfl, h₂.registry.trans (by rw [h₁.registry])⟩

theorem wp_finishConnecting (h : ∃ i, Judged i ∧ At x link kind r i s) :
    (Contract.free (attemptSystem reuse)).Wp (BaseAdapter.finishConn x)
      (Settles x ((r.connect x).2.isConnectedSocket x)) s := by
  obtain ⟨i, hjudged, h⟩ := h
  refine (wp_finishConn h).mono fun value s' hs' => hjudged.settles hs'.1 ?_
  split
  · rename_i hb
    rw [if_pos hb] at hs'
    exact ⟨hs'.2.1, by rw [hs'.2.2]⟩
  · rename_i hb
    rw [if_neg hb] at hs'
    exact hs'.2

theorem wp_finishListening (h : ∃ b, At x link kind r (b, []) s) :
    (Contract.free (attemptSystem reuse)).Wp (BaseAdapter.finishConn x) (Settles x flags) s := by
  obtain ⟨b, h⟩ := h
  exact (wp_finishConn h).mono fun value s' hs' => settles_of_nil hs'.1

theorem wp_wifiConn {deviceType : WifiDeviceType} (h : At x link (.wifi deviceType) r (b, []) s) :
    (Contract.free (attemptSystem reuse)).Wp (WifiAdapter.conn x deviceType)
      (Settles x (((r.atConnect link (.wifi deviceType)).connect x).2.isConnectedSocket x)) s := by
  refine brings_setConnected.wp_act (fun _ _ => trivial) h fun _ s₁ h₁ => ?_
  refine ⟨trivial, fun e link' s₂ _ hexec => ⟨trivial, ?_⟩⟩
  obtain ⟨rfl, rfl⟩ : link' = link ∧ s₂ = s₁ := by
    obtain ⟨a, hx, -, -⟩ := h₁.object
    obtain ⟨hread, hattempts⟩ := System.recording_exec hexec
    simp only [SharedState.exec, hx, Option.map_some, Option.some.injEq, Prod.mk.injEq] at hread
    exact ⟨hread.1.symm, Prod.ext hread.2.symm hattempts⟩
  cases deviceType with
  | router =>
    refine wp_method (x := x) (p := Registry.getRemotePort _) (.getRemotePort _)
      (computes_getAttribute overlooks (below_nil 4) _ _ _) ?_
    refine (keeps_aside (.setRemotePort _) trivial).wp_act (fun _ _ => trivial) h₁
      fun _ s₂ h₂ => ?_
    refine wp_setupLocalAddr ?_
    exact (along_listenForPeer.wp (fun _ _ _ => trivial) h₂).bind fun _ _ => wp_finishListening
  | adapter =>
    obtain rfl := h₁.registry
    refine wp_method (x := x) (p := Registry.addLocalPort _) (.addLocalPort _ trivial)
      (computes_addLocalPort overlooks (below_nil 4) _) (wp_setupLocalAddr ?_)
    have hasked : (WifiAdapter.sendConnectionRequest x).ActsIn (ActsOn AdapterAct.Requests x) :=
      (only_wifiRequest fun _ ha => ha).actsIn
    refine (Contract.wp_actsIn (fun _ _ => trivial) (fun _ ha => keeps_requests ha) hasked
      (h₁.setRegistry _)).bind fun sent s₂ h₂ => ?_
    cases sent with
    | false => exact settles_of_nil h₂.attempts
    | true => exact (along_connectToPeer.wp (fun _ _ _ => trivial) h₂).bind fun _ _ => wp_finishConnecting
  | unknown => exact wp_finishListening ⟨_, h₁⟩

theorem wp_bluetoothConn {isListener : Bool} (h : At x link (.bluetooth isListener) r (b, []) s) :
    (Contract.free (attemptSystem reuse)).Wp (BluetoothAdapter.conn x isListener)
      (Settles x ((r.connect x).2.isConnectedSocket x)) s := by
  refine brings_setConnected.wp_act (fun _ _ => trivial) h fun _ s₁ h₁ => ?_
  have hasked : ((BluetoothAdapter.sendConnectionRequest x).bind fun _ => .pure ()).ActsIn
      (ActsOn AdapterAct.Requests x) :=
    (only_bluetoothRequest fun _ ha => ha).actsIn.bind fun _ => trivial
  have hbeside : ∀ (attempt : Program Unit) (Q : Unit → SharedState × List Attempt → Prop),
      (Contract.free (attemptSystem reuse)).WpAlong (At x link (.bluetooth isListener) r) attempt Q
        (false, []) →
      (Contract.free (attemptSystem reuse)).Wp (interleave (S := socketSignature) .turn (fun x => x)
        ((BluetoothAdapter.sendConnectionRequest x).bind fun _ => .pure ()) attempt) Q s₁ := by
    intro attempt Q hattempt
    refine hattempt.interleave (fun _ _ _ => trivial) (fun _ => ?_)
      (hasked.mono fun _ ha _ => keeps_requests ha) h₁
    exact keeps_requests (a := .turn) trivial
  cases isListener with
  | true => exact (hbeside _ _ along_listenForPeer).bind fun _ _ => wp_finishListening
  | false => exact (hbeside _ _ along_connectToPeer).bind fun _ _ => wp_finishConnecting

theorem wp_conn (hs : s.2 = []) :
    (Contract.free (attemptSystem reuse)).Wp (BaseAdapter.conn x)
      (Settles x (s.1.canFlag x)) s := by
  refine ⟨trivial, fun e kind s₁ _ hexec => ⟨trivial, ?_⟩⟩
  obtain ⟨hexec', -⟩ := System.recording_exec hexec
  simp only [SharedState.exec] at hexec'
  split at hexec'
  · rename_i link a hlookup
    have h : At x link a.kind s.1.registry (a.connected, []) s := ⟨⟨a, hlookup, rfl, rfl⟩, rfl, hs⟩
    have h₁ := (keeps_aside .kind trivial s h).2 e kind s₁ trivial hexec
    obtain ⟨out, hadapter, heq⟩ := Option.map_eq_some_iff.mp hexec'
    have hkind : a.kind = kind := by
      cases hadapter
      exact (Prod.mk.inj heq).1
    have hflag : s.1.canFlag x =
        ((s.1.registry.atConnect link a.kind).connect x).2.isConnectedSocket x := by
      rw [SharedState.canFlag, hlookup]
    rw [hflag]
    rw [hkind] at h₁ ⊢
    cases kind with
    | wifi deviceType => exact wp_wifiConn h₁
    | bluetooth isListener => exact wp_bluetoothConn h₁
  · cases hexec'

theorem wp_pinIfExists :
    (Contract.free (attemptSystem reuse)).Wp (pinIfExists .exclusive x) (fun _ s' => s' = s) s := by
  have hpin : (pinIfExists .exclusive x).ActsIn fun a => a = SocketAct.findSocket x := by
    refine ActsIn.locked (S := socketSignature) (ActsIn.bind (p := Registry.existsSocket x) ?_ ?_)
    · exact ⟨rfl, fun _ => trivial⟩
    · intro found
      cases found <;> trivial
  refine Contract.wp_actsIn (fun _ _ => trivial) ?_ hpin rfl
  rintro _ rfl s rfl
  refine ⟨trivial, fun e found s' _ hexec => ?_⟩
  cases hexec
  rfl

/-- Whatever the adapter is, a call settles the attempts that it makes. -/
theorem wp_bratislavaConn (hs : s.2 = []) :
    (Contract.free (attemptSystem reuse)).Wp (bratislavaConn (some x))
      (fun status => Settles x (s.1.canFlag x) status.value) s := by
  refine wp_pinIfExists.bind fun found s' heq => ?_
  subst heq
  cases found with
  | false => exact settles_of_nil hs
  | true =>
    refine Contract.Wp.bind (p := connPinned x) ?_ fun status s' hstatus => hstatus
    refine wp_method (p := Registry.isConnectedSocket x) .isConnected
      (computes_isConnectedSocket overlooks (below_nil 4)) ?_
    cases s'.1.registry.isConnectedSocket x with
    | true => exact settles_of_nil hs
    | false => exact Contract.Wp.bind (p := BaseAdapter.conn x) (wp_conn hs) fun value s' hs' => hs'

/-- A registry in which no two handles share a device can record every connection. -/
theorem canFlag_of_run {s : SharedState} {links : SocketPtr → BratislavaLink}
    {ops : List Operation} (hlegal : (registryMachine links).Legal .empty ops)
    (hregistry : s.registry = (registryMachine links).run .empty ops)
    (hx : x ∈ s.registry.sockets) (hadapter : (s.adapterOf x).isSome) : s.canFlag x = true := by
  obtain ⟨t, haccounts⟩ := Machine.Each.invariant (M := registryMachine links)
    (I := fun r => ∃ t, Accounts links r t) (fun _ _ ⟨_, ht⟩ hop => ⟨_, ht.step hop⟩) hlegal
    ⟨_, .empty⟩
  rw [← hregistry] at haccounts
  obtain ⟨a, ha⟩ := Option.isSome_iff_exists.mp hadapter
  obtain ⟨link, hlookup⟩ := SharedState.adapterOf_eq_some.mp ha
  have hflag : s.canFlag x =
      ((s.registry.atConnect link a.kind).connect x).2.isConnectedSocket x := by
    rw [SharedState.canFlag, hlookup]
  rw [hflag, atConnect]
  split
  · have hadmissible : (Operation.addLocalPort link.wifiDeviceInfo.macAddress).Admissible links
        s.registry := trivial
    have hport := haccounts.step hadmissible
    refine hport.consistent.wellFormed.isConnectedSocket_connect ?_
    rw [Operation.apply, sockets_addLocalPort]
    exact hx
  · exact haccounts.consistent.wellFormed.isConnectedSocket_connect hx

end Reconnect

open Reconnect

/-- A call of `bratislavaConn` keeps the promise of its header if and only if `connect` on `sockfd_`
does not report `EISCONN` in it, and the registry can record the connection where `connect` reports 0.
In a run in which no two handles share a device it always can. -/
theorem conn_honours_connection_iff {reuse : Bool} {x : SocketPtr} {s : SharedState}
    {s' : SharedState × List Attempt} {status : Status} {es : List Choice}
    (hran : (bratislavaConn (some x)).eval (Y := attemptSystem reuse) es (s, []) = some (status, s')) :
    (HonoursConnection x status.value s' ↔
      .alreadyConnected ∉ s'.2 ∧ (.connected ∈ s'.2 → s.canFlag x = true)) ∧
    ∀ (links : SocketPtr → BratislavaLink) (ops : List Operation),
      (registryMachine links).Legal .empty ops →
      s.registry = (registryMachine links).run .empty ops → x ∈ s.registry.sockets →
      (s.adapterOf x).isSome → s.canFlag x = true :=
  ⟨Contract.wp_eval (wp_bratislavaConn rfl) hran, fun _ _ => canFlag_of_run⟩

/-- A peer that connects, with the outcome of its rounds. -/
def connecting (attempt : Attempt) : Choice :=
  { address := 1, sockfd := 3, sockfdRequest := 4, sockfdListen := 5, deviceType := .adapter, attempt,
    status := 1 }

/-- A new handle, after the call that makes it. -/
def newHandle (link : BratislavaLink) : List (Op (attemptSystem false)) :=
  .start 0 (.bratislavaSocket link) :: List.replicate 18 (.run 0 (connecting .connected))

/-- The handle is connected, and then disconnected in the registry alone. -/
def disconnectedById (link : BratislavaLink) (steps : Nat) : List (Op (attemptSystem false)) :=
  newHandle link ++
    .start 0 (.bratislavaConn (some 1)) :: List.replicate steps (.run 0 (connecting .connected)) ++
    .start 0 (.disconnectId "aa") :: List.replicate 9 (.run 0 (connecting .connected))

/-- The state that a run leaves. -/
def stateAfter (ops : List (Op (attemptSystem false))) : SharedState :=
  ((machine (attemptSystem false)).run (World.quiet (.noSockets, [])) ops).state.1

/-- A call of `bratislavaConn` whose rounds all come out alike. -/
def connAgain (s : SharedState) (attempt : Attempt) :
    Option (Status × SharedState × List Attempt) :=
  (bratislavaConn (some 1)).eval (Y := attemptSystem false)
    (List.replicate 40 (connecting attempt)) (s, [])

/-- The first connection of a handle. -/
theorem conn_honours_connection_iff_first :
    ∃ status s', connAgain (stateAfter (newHandle (.wifi "aa" "aa"))) .connected =
        some (status, s') ∧ s'.2 = [.connected] ∧
      (HonoursConnection 1 status.value s' ↔ .alreadyConnected ∉ s'.2 ∧
        (.connected ∈ s'.2 → (stateAfter (newHandle (.wifi "aa" "aa"))).canFlag 1 = true)) := by
  have hout : (connAgain (stateAfter (newHandle (.wifi "aa" "aa"))) .connected).map
      (fun out => out.2.2) = some [.connected] := by decide +kernel
  obtain ⟨⟨status, s'⟩, hran, hattempts⟩ := Option.map_eq_some_iff.mp hout
  exact ⟨status, s', hran, hattempts, (conn_honours_connection_iff hran).1⟩

/-- After any calls of one thread, with an adapter in the connecting role: where `connect` on
`sockfd_` reports a connection, `bratislavaConn` does. -/
def AlwaysHonours (kind : AdapterKind) : Prop :=
  ∀ (ops : List (Op (attemptSystem false))) (es : List Choice) (status : Status)
      (s' : SharedState × List Attempt),
    (machine (attemptSystem false)).Legal (World.quiet (.noSockets, [])) ops →
    (∀ op ∈ ops, op.tid = 0) →
    (((machine (attemptSystem false)).run (World.quiet (.noSockets, [])) ops).thread 0).isNone =
      true →
    ((stateAfter ops).adapterOf 1).map (fun a => a.kind) = some kind →
    (bratislavaConn (some 1)).eval (Y := attemptSystem false) es (stateAfter ops, []) =
      some (status, s') →
    HonoursConnection 1 status.value s'

/-- `Disconnect` by the device leaves the connection up, and no call of `bratislavaConn` gets the
handle connected again. -/
theorem reconnect_refused :
    ¬ AlwaysHonours (.wifi .adapter) ∧ ¬ AlwaysHonours (.bluetooth false) := by
  have hfails : ∀ (link : BratislavaLink) (steps : Nat) {kind : AdapterKind},
      (machine (attemptSystem false)).Legal (World.quiet (.noSockets, []))
        (disconnectedById link steps) →
      (((machine (attemptSystem false)).run (World.quiet (.noSockets, []))
        (disconnectedById link steps)).thread 0).isNone = true →
      ((stateAfter (disconnectedById link steps)).adapterOf 1).map (fun a => a.kind) = some kind →
      (connAgain (stateAfter (disconnectedById link steps)) .alreadyConnected).map
        (fun out => (out.1.value, out.2.2)) = some (-1, [.alreadyConnected]) →
      ¬ AlwaysHonours kind := by
    intro link steps kind hlegal hidle hkind hout h
    obtain ⟨⟨status, s'⟩, hran, heq⟩ := Option.map_eq_some_iff.mp hout
    obtain ⟨hvalue, hattempts⟩ := Prod.mk.inj heq
    have hone : ∀ op ∈ disconnectedById link steps, op.tid = 0 := by
      simp only [disconnectedById, newHandle, List.mem_append, List.mem_cons, List.mem_replicate]
      rintro op (((rfl | ⟨-, rfl⟩) | rfl | ⟨-, rfl⟩) | rfl | ⟨-, rfl⟩) <;> rfl
    have hzero := (h _ _ status s' hlegal hone hidle hkind hran (Or.inr (by rw [hattempts]; simp))).1
    exact absurd (hvalue.symm.trans hzero) (by decide)
  exact ⟨hfails (.wifi "aa" "aa") 56 (by decide +kernel) (by decide +kernel)
      (by decide +kernel) (by decide +kernel),
    hfails (.bluetooth "aa" "aa") 31 (by decide +kernel) (by decide +kernel)
      (by decide +kernel) (by decide +kernel)⟩

end SensorLib
