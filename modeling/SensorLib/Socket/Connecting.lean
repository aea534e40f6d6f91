import SensorLib.Socket.Agreement

/-! # How a connection is made

`conn` takes back the flag of the adapter, and gives it again where `connect`
or `accept` made a connection. Only then does the registry get its flag.
-/

namespace SensorLib

open Threads Threads.Prog Runs Handles

/-- In the middle of `conn`: the adapter has a connection where it counts as connected, or where
`connect` has just made one. -/
structure Trying (x : SocketPtr) (linked : Bool) (s : SharedState × Connections) : Prop
    extends Unflagged x s where
  linked : ∀ a, s.1.adapterOf x = some a → a.connected = true ∨ linked = true → Linked x a s

/-- What `conn` leaves. -/
def Attempted (x : SocketPtr) (value : Int) (s : SharedState × Connections) : Prop :=
  Agreed none s ∧ (value = 0 → Backed x s)

variable {reuse linked : Bool} {s s' : SharedState × Connections} {x : SocketPtr} {e : Choice}

theorem Linked.of_attempt {answer : Attempt}
    (hexec : (connectionSystem reuse).exec (.adapter x (.attempt .comms)) e s = some (answer, s'))
    (hanswer : answer = .connected) : ∃ a', Linked x a' s' := by
  obtain ⟨hexec', hconnections⟩ := System.recording_exec hexec
  obtain ⟨a, a', hstep, hadapter⟩ := SharedState.exec_adapter
    (show s.1.exec reuse (.adapter x (.attempt .comms)) e = some (answer, s'.1) from hexec')
  simp only [Adapter.exec] at hadapter
  split at hadapter
  · rename_i hready
    simp only [Option.some.injEq, Prod.mk.injEq] at hadapter
    obtain ⟨hattempt, rfl, hfds⟩ := hadapter
    subst hanswer
    refine ⟨a, by rw [hstep.after, if_pos rfl], ?_, ?_⟩
    · rw [hconnections]
      simp only [SharedState.connections, hattempt, if_true, Function.update_self, hstep.before,
        Option.map_some]
    · rw [hattempt] at hready
      rw [← hfds]
      exact hready.resolve_right (by simp)
  · cases hadapter

/-- A method of the registry raises no flag in the middle of `conn`. -/
theorem Trying.setRegistry (h : Trying x linked s) {r : BratislavaSocketRegistry}
    (hr : Paired (s.1.setRegistry r))
    (hflags : ∀ y, r.isConnectedSocket y = true → s.1.registry.isConnectedSocket y = true) :
    Trying x linked (s.1.setRegistry r, s.2) where
  agreed := h.agreed.of_heap rfl rfl hr fun y hy => Or.inl (hflags y hy)
  unflagged := by
    rw [Bool.eq_false_iff]
    intro hx
    have hold := hflags x hx
    rw [h.unflagged] at hold
    cases hold
  linked a ha hlinked := by
    have hold := h.linked a ha hlinked
    exact ⟨ha, hold.connection, hold.isOpen⟩

namespace Connections

variable {act : AdapterAct}

theorem exec_self {answer : act.Answer}
    (hexec : (connectionSystem reuse).exec (.adapter x act) e s = some (answer, s')) :
    ∃ a a', s.1.adapterOf x = some a ∧ s'.1.adapterOf x = some a' ∧
      a.exec s.1.openFds e act = some (answer, a', s'.1.openFds) := by
  obtain ⟨a, a', hstep, hadapter⟩ := SharedState.exec_adapter
    (show s.1.exec reuse (.adapter x act) e = some (answer, s'.1) from
      (System.recording_exec hexec).1)
  exact ⟨a, a', hstep.before, by rw [hstep.after, if_pos rfl], hadapter⟩

/-- A connection stays linked through the acts that leave it. -/
theorem linked_of_own (hpreserves : act.Preserves) (hsep : s.1.Separate)
    (hassumed : (connectionContract reuse).assumes (.adapter x act) e s) {answer : act.Answer}
    (hexec : (connectionSystem reuse).exec (.adapter x act) e s = some (answer, s'))
    {a a' : Adapter} (ha' : s'.1.adapterOf x = some a') (h : Linked x a s) : Linked x a' s' := by
  have hclosed : a.sockfd ∉ s.1.closedBy (.adapter x act) := by
    refine h.not_closed hsep (fun _ => hpreserves) ?_
    rintro _ _ ⟨⟩
    exact ⟨ne_closeRequest hassumed.1, hpreserves⟩
  obtain ⟨a'', hlinked, -⟩ := h.exec_own hclosed hpreserves hexec
  cases ha'.symm.trans hlinked.adapter
  exact hlinked

/-! ## The acts of `conn` -/

/-- What an act leads to, by what it does to the adapter. -/
theorem brings_trying {I : SharedState × Connections → Prop} (hI : ∀ s, I s → Unflagged x s)
    (hpreserves : act.Preserves) (hact : act ≠ .startIo .comms)
    (hlinked : ∀ s s' e answer a a', I s → (connectionContract reuse).assumes (.adapter x act) e s →
      (connectionSystem reuse).exec (.adapter x act) e s = some (answer, s') →
      s.1.adapterOf x = some a → s'.1.adapterOf x = some a' →
      a.exec s.1.openFds e act = some (answer, a', s'.1.openFds) →
      a'.connected = true ∨ linked = true → Linked x a' s') :
    (connectionContract reuse).Brings I (.adapter x act) fun _ => Trying x linked := by
  have hunflagged : (connectionContract reuse).Keeps (Unflagged x) (.adapter x act) :=
    keeps_unflagged act hpreserves hact
  refine fun s h => ⟨(hunflagged s (hI s h)).1, fun e answer s' hassumed hexec => ?_⟩
  obtain ⟨a, a', ha, ha', hadapter⟩ := exec_self hexec
  refine ⟨(hunflagged s (hI s h)).2 e answer s' hassumed hexec, fun a'' ha'' hflag => ?_⟩
  cases ha'.symm.trans ha''
  exact hlinked s s' e answer a a' h hassumed hexec ha ha' hadapter hflag

theorem brings_start :
    (connectionContract reuse).Brings (Unflagged x) (.adapter x (.setConnected false))
      fun _ => Trying x false := by
  refine brings_trying (fun _ h => h) trivial (by simp) ?_
  intro s s' e answer a a' h _ hexec ha ha' hadapter hconnected
  simp only [Adapter.exec, Option.some.injEq, Prod.mk.injEq] at hadapter
  obtain ⟨-, rfl, -⟩ := hadapter
  simp at hconnected

theorem keeps_trying (haside : act.Aside) (hpreserves : act.Preserves)
    (hact : act ≠ .startIo .comms) :
    (connectionContract reuse).Keeps (Trying x linked) (.adapter x act) := by
  refine brings_trying (fun _ h => h.toUnflagged) hpreserves hact ?_
  intro s s' e answer a a' h hassumed hexec ha ha' hadapter hflag
  rw [(Adapter.exec_frame hadapter).2 haside] at hflag
  exact linked_of_own hpreserves h.agreed.separate hassumed hexec ha' (h.linked a ha hflag)

theorem keeps_listen :
    (connectionContract reuse).Keeps (Trying x false) (.adapter x .listenForPeer) := by
  refine brings_trying (fun _ h => h.toUnflagged) trivial (by simp) ?_
  intro s s' e answer a a' h hassumed hexec ha ha' hadapter hflag
  by_cases hfailed : e.sockfd = -1
  · rcases Adapter.exec_listenForPeer hadapter with ⟨-, rfl, -⟩ | ⟨hne, -⟩
    · exact linked_of_own (show AdapterAct.Preserves .listenForPeer from trivial) h.agreed.separate
        hassumed hexec ha' (h.linked _ ha hflag)
    · exact absurd hfailed hne
  · obtain ⟨a'', hlinked', -⟩ := Linked.of_accepted hexec hfailed
    cases ha'.symm.trans hlinked'.adapter
    exact hlinked'

theorem brings_linked :
    (connectionContract reuse).Brings (Trying x true) (.adapter x (.setConnected true))
      fun _ => Trying x false := by
  refine brings_trying (fun _ h => h.toUnflagged) trivial (by simp) ?_
  intro s s' e answer a a' h hassumed hexec ha ha' hadapter hflag
  exact linked_of_own (show AdapterAct.Preserves (.setConnected true) from trivial)
    h.agreed.separate hassumed hexec ha' (h.linked _ ha (Or.inr rfl))

/-- A round of `ConnectToPeer` makes a connection, or leaves everything as it was. -/
theorem trying_attempt (h : Trying x false s) {answer : Attempt}
    (hassumed : (connectionContract reuse).assumes (.adapter x (.attempt .comms)) e s)
    (hexec : (connectionSystem reuse).exec (.adapter x (.attempt .comms)) e s = some (answer, s')) :
    Trying x (decide (answer = .connected)) s' := by
  have hunflagged := (keeps_unflagged (.attempt .comms) trivial (by simp) s h.toUnflagged).2 e
    answer s' hassumed hexec
  refine ⟨hunflagged, fun a'' ha'' hflag => ?_⟩
  obtain ⟨a, a', ha, ha', hadapter⟩ := exec_self hexec
  obtain rfl : a' = a'' := Option.some.inj (ha'.symm.trans ha'')
  by_cases hanswer : answer = .connected
  · obtain ⟨a'', hlinked⟩ := Linked.of_attempt hexec hanswer
    cases ha'.symm.trans hlinked.adapter
    exact hlinked
  · have hsame : a' = a := by
      simp only [Adapter.exec] at hadapter
      split at hadapter
      · exact (Prod.mk.inj (Prod.mk.inj (Option.some.inj hadapter)).2).1.symm
      · cases hadapter
    subst hsame
    exact linked_of_own (show AdapterAct.Preserves (.attempt .comms) from trivial)
      h.agreed.separate hassumed hexec ha'
      (h.linked _ ha (hflag.imp_right fun heq => absurd (of_decide_eq_true heq) hanswer))

/-- The two adapters run the same loop. -/
theorem along_connectLoop (rounds : Nat) :
    (connectionContract reuse).WpAlong (Trying x) (BaseAdapter.connectLoop x rounds)
      (fun _ => Trying x false) false := by
  induction rounds with
  | zero => exact fun s hs => hs
  | succ rounds ih =>
    have hattempt : (connectionContract reuse).Keeps (Unflagged x) (.adapter x (.attempt .comms)) :=
      keeps_unflagged _ trivial (by simp)
    refine fun s hs => ⟨(hattempt s hs.toUnflagged).1, fun e answer s' hassumed hexec =>
      ⟨_, trying_attempt hs hassumed hexec, ?_⟩⟩
    cases answer with
    | connected =>
      refine fun s hs => ⟨(brings_linked s hs).1, fun e _ s' hassumed hexec => ⟨false, ?_, ?_⟩⟩
      · exact (brings_linked s hs).2 e _ s' hassumed hexec
      · exact fun s hs => hs
    | unavailable => exact ih
    | _ => exact fun s hs => hs

theorem along_listenForPeer :
    (connectionContract reuse).WpAlong (Trying x) (adapterAct x .listenForPeer)
      (fun _ => Trying x false) false := by
  refine fun s hs => ⟨(keeps_listen s hs).1, fun e answer s' hassumed hexec => ?_⟩
  exact ⟨false, (keeps_listen s hs).2 e answer s' hassumed hexec, fun s hs => hs⟩

theorem keeps_requests {a : SocketAct} (ha : ActsOn AdapterAct.Requests x a) :
    (connectionContract reuse).Keeps (Trying x linked) a := by
  cases a with
  | adapter y act =>
    obtain ⟨rfl, hact⟩ := ha
    refine keeps_trying hact.aside ?_ ?_
    · cases act <;> trivial
    · rintro rfl
      exact hact
  | turn => exact keeps_reads .turn trivial
  | _ => exact ha.elim

/-! ## The methods of the registry -/

section Methods

variable {α β : Type} {Q : β → SharedState × Connections → Prop}

theorem owes_offHeap {a : SocketAct} (ha : a.OffHeap) (s : SharedState × Connections) :
    (connectionContract reuse).owes a s := by
  rintro y rfl
  exact ha.elim

/-- After a method of the registry that has one outcome, the rest goes on from there. -/
theorem wp_method {p : Program α} {q : α → Program β} {a : α} {t : SharedState}
    (hp : p.ActsIn (S := socketSignature) SocketAct.OffHeap)
    (hcomputes : p.Computes (connectionSystem reuse) [] (s.1, s.2) a (t, s.2))
    (hq : (connectionContract reuse).Wp (q a) Q (t, s.2)) :
    (connectionContract reuse).Wp (p.bind q) Q s :=
  Computes.wp (S := socketSignature) hcomputes hp (fun _ s ha => owes_offHeap ha s)
    (fun _ => trivial) hq

/-- The methods that work on a pinned socket leave the objects alone. -/
theorem offHeap_built {p : Program α} (hp : PinnedBlock (fun _ => False) x (fun _ => True) α p) :
    p.ActsIn (S := socketSignature) SocketAct.OffHeap := by
  refine actsIn_built (x := x) (P := fun _ => False) (fun a ha => ?_) (fun _ ha => ha)
    (built_block (S := socketSignature) hp)
  cases a with
  | adapter y b => exact ha.2.elim
  | turn => trivial
  | _ => exact ha.elim

theorem wp_isConnected {q : Bool → Program β}
    (hq : (connectionContract reuse).Wp (q (s.1.registry.isConnectedSocket x)) Q s) :
    (connectionContract reuse).Wp ((Registry.isConnectedSocket x).bind q) Q s :=
  wp_method (offHeap_built .isConnected) (computes_isConnectedSocket overlooks (below_nil 4)) hq

theorem wp_setupLocalAddr {id : String} {q : Unit → Program β}
    (hq : (connectionContract reuse).Wp (q ()) Q s) :
    (connectionContract reuse).Wp ((WifiAdapter.setupLocalAddr id).bind q) Q s := by
  refine Contract.wp_bind.mpr (wp_method (p := Registry.getLocalPort id) (offHeap_built (x := 0)
    (.getLocalPort id)) (computes_getAttribute overlooks (below_nil 4) id _ _) ?_)
  exact hq

end Methods

/-! ## `conn` -/

/-- Where the adapter counts as connected at the end of `conn`, the registry takes the handle as
connected. -/
theorem wp_finishConn (h : Trying x false s) :
    (connectionContract reuse).Wp (BaseAdapter.finishConn x) (Attempted x) s := by
  have hread : (connectionContract reuse).Keeps (Trying x false) (.adapter x .isConnected) :=
    keeps_trying trivial trivial (by simp)
  refine ⟨(hread s h).1, fun e connected s₁ hassumed hexec => ⟨trivial, ?_⟩⟩
  have h₁ := (hread s h).2 e connected s₁ hassumed hexec
  obtain ⟨a, a', -, ha', hadapter⟩ := exec_self hexec
  simp only [Adapter.exec, Option.some.injEq, Prod.mk.injEq] at hadapter
  obtain ⟨hconnected, rfl, -⟩ := hadapter
  cases connected with
  | false => exact ⟨h₁.toUnflagged.all, fun heq => by cases heq⟩
  | true =>
    have hbacked : Backed x s₁ := ⟨a, h₁.linked a ha' (Or.inl hconnected), hconnected⟩
    refine wp_method (p := Registry.connect x) (offHeap_built .connect)
      (computes_connect overlooks (below_nil 4)) ?_
    obtain ⟨hpaired, hflags⟩ := h₁.agreed.paired.connect x
    have hagreed : Agreed none (s₁.1.setRegistry (s₁.1.registry.connect x).2, s₁.2) :=
      h₁.toUnflagged.all.of_heap rfl rfl hpaired fun y hy =>
        (hflags y hy).imp_right fun heq => by
          subst heq
          exact hbacked
    refine (keeps_backed .configureForComms trivial (by simp)).wp_act (fun _ _ => trivial)
      ⟨hagreed, hbacked.of_heap rfl rfl⟩ fun _ s₂ h₂ => ?_
    exact ⟨h₂.1, fun _ => h₂.2⟩

theorem wp_wifiConn {deviceType : WifiDeviceType} (h : Unflagged x s) :
    (connectionContract reuse).Wp (WifiAdapter.conn x deviceType) (Attempted x) s := by
  refine brings_start.wp_act (fun _ _ => trivial) h fun _ s₁ h₁ => ?_
  refine (keeps_reads (.readLink x) trivial).wp_act (fun _ _ => trivial) h₁ fun link s₂ h₂ => ?_
  cases deviceType with
  | router =>
    refine wp_method (p := Registry.getRemotePort _) (offHeap_built (x := x) (.getRemotePort _))
      (computes_getAttribute overlooks (below_nil 4) _ _ _) ?_
    have hset : ∀ port, (connectionContract reuse).Keeps (Trying x false)
        (.adapter x (.setRemotePort port)) := fun _ => keeps_trying trivial trivial (by simp)
    refine (hset _).wp_act (fun _ _ => trivial) h₂ fun _ s₃ h₃ => ?_
    refine wp_setupLocalAddr ?_
    exact (along_listenForPeer.wp (fun _ _ _ => trivial) h₃).bind fun _ _ hs => wp_finishConn hs
  | adapter =>
    obtain ⟨hpaired, hflags⟩ := h₂.agreed.paired.addLocalPort link.wifiDeviceInfo.macAddress
    refine wp_method (p := Registry.addLocalPort _)
      (offHeap_built (x := x) (.addLocalPort _ trivial))
      (computes_addLocalPort overlooks (below_nil 4) _) (wp_setupLocalAddr ?_)
    have hasked : (WifiAdapter.sendConnectionRequest x).ActsIn (ActsOn AdapterAct.Requests x) :=
      (only_wifiRequest fun _ ha => ha).actsIn
    refine (Contract.wp_actsIn (fun _ _ => trivial) (fun _ ha => keeps_requests ha) hasked
      (h₂.setRegistry hpaired hflags)).bind fun sent s₃ h₃ => ?_
    cases sent with
    | false => exact ⟨h₃.toUnflagged.all, fun heq => by cases heq⟩
    | true =>
      exact ((along_connectLoop maxRetries).wp (fun _ _ _ => trivial) h₃).bind fun _ _ hs =>
        wp_finishConn hs
  | unknown => exact wp_finishConn h₂

theorem wp_bluetoothConn {isListener : Bool} (h : Unflagged x s) :
    (connectionContract reuse).Wp (BluetoothAdapter.conn x isListener) (Attempted x) s := by
  refine brings_start.wp_act (fun _ _ => trivial) h fun _ s₁ h₁ => ?_
  have hasked : ((BluetoothAdapter.sendConnectionRequest x).bind fun _ => .pure ()).ActsIn
      (ActsOn AdapterAct.Requests x) :=
    (only_bluetoothRequest fun _ ha => ha).actsIn.bind fun _ => trivial
  -- The request runs beside the attempt, and changes neither the flags nor `sockfd_`.
  have hbeside : ∀ attempt : Program Unit,
      (connectionContract reuse).WpAlong (Trying x) attempt (fun _ => Trying x false) false →
      (connectionContract reuse).Wp (Prog.interleave (S := socketSignature) .turn (fun x => x)
        ((BluetoothAdapter.sendConnectionRequest x).bind fun _ => .pure ()) attempt)
        (fun _ => Trying x false) s₁ := by
    intro attempt hattempt
    refine hattempt.interleave (fun _ _ _ => trivial) (fun _ => ?_)
      (hasked.mono fun _ ha _ => keeps_requests ha) h₁
    exact keeps_reads .turn trivial
  cases isListener with
  | true => exact (hbeside _ along_listenForPeer).bind fun _ _ hs => wp_finishConn hs
  | false => exact (hbeside _ (along_connectLoop maxRetries)).bind fun _ _ hs => wp_finishConn hs

theorem wp_conn (h : Unflagged x s) :
    (connectionContract reuse).Wp (BaseAdapter.conn x) (Attempted x) s := by
  refine (keeps_unflagged .kind trivial (by simp)).wp_act (fun _ _ => trivial) h fun kind s₁ h₁ => ?_
  cases kind with
  | wifi deviceType => exact wp_wifiConn h₁
  | bluetooth isListener => exact wp_bluetoothConn h₁

end Connections

end SensorLib
