import SensorLib.Socket.Reopening

/-! # Runs of calls on connections

One thread makes, uses and ends connections. As long as no request socket is
closed, what the registry says of connections is true between the calls, and a
call that looks at it may go by it.
-/

namespace SensorLib

open Threads Threads.Prog Runs Handles BratislavaSocketRegistry

/-- The calls that make, use and end connections. -/
def Call.OnConnections : Call → Prop
  | .bratislavaSocket _ | .bratislavaConn _ | .bratislavaSend _ | .bratislavaLinkSend _
  | .bratislavaRecv _ | .bratislavaLinkRecv _ | .bratislavaConnTimeout .. | .bratislavaRecvTimeout ..
  | .bratislavaDestroy _ | .bratislavaDisconnect _ | .disconnectId _ => True
  | _ => False

/-- A handle for which `bratislavaConn` returns 0 has a connection. -/
def Call.Answered (f : Call) (r : CallResult) (s : SharedState × Connections) : Prop :=
  ∀ x status, f = .bratislavaConn (some x) → r = .status status → status.value = 0 → Backed x s

variable {reuse : Bool} {s s' : SharedState × Connections} {x : SocketPtr} {e : Choice}

namespace Connections

/-! ## The other methods of an adapter -/

theorem wp_transfer (h : Agreed none s ∧ Backed x s) :
    (connectionContract reuse).Wp (BaseAdapter.transfer x .comms) (fun _ s => Agreed none s) s := by
  refine (keeps_backed (.startIo .comms) trivial (by simp)).wp_act (fun _ _ => trivial) h
    fun fd s₁ h₁ => ?_
  exact (keeps_backed (.endIo fd) trivial (by simp)).wp_act (fun _ _ => trivial) h₁
    fun _ s₂ h₂ => h₂.1

theorem wp_sendMessage (h : Agreed none s) :
    (connectionContract reuse).Wp (BaseAdapter.sendMessage x) (fun _ s => Agreed none s) s := by
  refine wp_isConnected ?_
  cases hx : s.1.registry.isConnectedSocket x with
  | false => exact h
  | true => exact (wp_transfer ⟨h, h.backed x hx (by simp)⟩).bind fun _ _ hs => hs

theorem wp_recvMessage (h : Agreed none s) :
    (connectionContract reuse).Wp (BaseAdapter.recvMessage x) (fun _ s => Agreed none s) s := by
  refine wp_isConnected ?_
  cases hx : s.1.registry.isConnectedSocket x with
  | false => exact h
  | true =>
    refine (wp_transfer ⟨h, h.backed x hx (by simp)⟩).bind fun received s₁ h₁ => ?_
    show (connectionContract reuse).Wp (if received.1 < 0 then _ else _) _ _
    split <;> exact h₁

theorem wp_send (h : Agreed none s) :
    (connectionContract reuse).Wp (BaseAdapter.send x) (fun _ s => Agreed none s) s := by
  refine (keeps_all .kind trivial).wp_act (fun _ _ => trivial) h fun kind s₁ h₁ => ?_
  cases kind <;> exact wp_sendMessage h₁

theorem wp_recv (h : Agreed none s) :
    (connectionContract reuse).Wp (BaseAdapter.recv x) (fun _ s => Agreed none s) s := by
  refine (keeps_all .kind trivial).wp_act (fun _ _ => trivial) h fun kind s₁ h₁ => ?_
  cases kind <;> exact wp_recvMessage h₁

theorem wp_setTimeout {p : Program Int} (hp : p.Only (ActsOn AdapterAct.Bystands x))
    (h : Agreed none s) : (connectionContract reuse).Wp p (fun _ s => Agreed none s) s := by
  refine Contract.wp_actsIn (fun _ _ => trivial) (fun a ha => ?_) hp.actsIn h
  cases a with
  | adapter y act =>
    obtain ⟨rfl, hact⟩ := ha
    exact keeps_all act hact
  | turn => exact keeps_reads .turn trivial
  | _ => exact ha.elim

/-! ## The functions of the API -/

/-- What a function does with a pinned socket. -/
theorem wp_withPin {mode : Mode} {body : Program Status}
    {Q : Status → SharedState × Connections → Prop}
    (hbody : (connectionContract reuse).Wp body Q s) (hmissed : Q ⟨-1, some .EIDRM⟩ s) :
    (connectionContract reuse).Wp (withPin mode x body) Q s := by
  have hpin : (connectionContract reuse).Wp (pinIfExists mode x) (fun _ s' => s' = s) s := by
    have hacts : (pinIfExists mode x).ActsIn SocketAct.Reads := by
      refine ActsIn.locked (S := socketSignature) (ActsIn.bind (p := Registry.existsSocket x) ?_ ?_)
      · exact ⟨trivial, fun _ => trivial⟩
      · intro found
        cases found <;> trivial
    exact Contract.wp_actsIn (fun _ _ => trivial) (fun _ ha => keeps_reads _ ha) hacts rfl
  refine hpin.bind fun found s' heq => ?_
  subst heq
  cases found with
  | true => exact hbody.bind fun _ _ hs => hs
  | false => exact hmissed

theorem wp_connPinned (h : Agreed none s) :
    (connectionContract reuse).Wp (connPinned x)
      (fun status s => Agreed none s ∧ (status.value = 0 → Backed x s)) s := by
  refine wp_isConnected ?_
  cases hx : s.1.registry.isConnectedSocket x with
  | true => exact ⟨h, fun _ => h.backed x hx (by simp)⟩
  | false => exact (wp_conn ⟨h.but x, hx⟩).bind fun _ _ hs => hs

theorem wp_disconnectPinned (h : Agreed none s) :
    (connectionContract reuse).Wp (disconnectPinned x) (fun _ s => Agreed none s) s := by
  obtain ⟨hpaired, hflags⟩ := h.paired.disconnectSocket x
  refine wp_method (p := Registry.disconnectSocket x) (offHeap_built .disconnect)
    (computes_disconnectSocket overlooks (below_nil 4)) ?_
  have hagreed : Agreed none (s.1.setRegistry (s.1.registry.disconnectSocket x).2, s.2) :=
    h.of_heap rfl rfl hpaired fun y hy => Or.inl (hflags y hy)
  have hunflagged := h.paired.wellFormed.isConnectedSocket_disconnectSocket x
  cases (s.1.registry.disconnectSocket x).1 with
  | false => exact hagreed
  | true =>
    refine (wp_disconn (fun r => r.isConnectedSocket x = false)
      ⟨hagreed.but x, hunflagged⟩).bind fun _ s₁ h₁ => ?_
    exact h₁.1.all (by simp [h₁.2])

theorem wp_existsSocket {β : Type} {q : Bool → Program β}
    {Q : β → SharedState × Connections → Prop}
    (hq : (connectionContract reuse).Wp (q (decide (x ∈ s.1.registry.sockets))) Q s) :
    (connectionContract reuse).Wp ((Registry.existsSocket x).bind q) Q s :=
  wp_method (p := Registry.existsSocket x) ⟨trivial, fun _ => trivial⟩
    (computes_existsSocket overlooks) hq

/-- `disconn` comes before the handle leaves the registry. -/
theorem wp_interruptIfExists (h : Agreed none s) :
    (connectionContract reuse).Wp (interruptIfExists x) (fun found s =>
      if found then Agreed (some x) s ∧ x ∈ s.1.registry.sockets else Agreed none s) s := by
  refine Contract.wp_locked.mpr (wp_existsSocket ?_)
  by_cases hx : x ∈ s.1.registry.sockets
  · rw [decide_eq_true hx]
    refine Contract.Wp.bind (p := BaseAdapter.interrupt x) (P := fun _ s =>
      Agreed (some x) s ∧ x ∈ s.1.registry.sockets) ?_ fun _ _ hs => hs
    exact (wp_disconn (fun r => x ∈ r.sockets) ⟨h.but x, hx⟩).bind fun _ _ hs => hs
  · rw [decide_eq_false hx]
    exact h

theorem keeps_deleteAdapter (R : BratislavaSocketRegistry → Prop) :
    (connectionContract reuse).Keeps (fun s => Agreed (some x) s ∧ R s.1.registry)
      (.deleteAdapter x) := by
  rintro s ⟨h, hR⟩
  refine ⟨fun y heq => (by cases heq), fun e answer s' hassumed hexec => ?_⟩
  have hexec' : s.1.exec reuse (.deleteAdapter x) e = some (answer, s'.1) :=
    (System.recording_exec hexec).1
  obtain ⟨-, -, -, -, hregistry⟩ := SharedState.exec_deleteAdapter hexec'
  obtain ⟨s'', hdelete, heq⟩ := Option.map_eq_some_iff.mp hexec'
  cases heq
  have hother : ∀ y, some x ≠ some y → (SocketAct.deleteAdapter x).Preserves y ∧
      SocketAct.deleteAdapter x ≠ .adapter y (.setConnected false) :=
    fun y hy => ⟨fun heq => hy (congrArg some heq), by simp⟩
  have hshape := SharedState.sameShape_deleteAdapter hdelete
  exact ⟨h.exec (fun _ _ heq => by cases heq) hother hexec hregistry fun y _ => hshape.deviceOf,
    hregistry ▸ hR⟩

theorem keeps_deleteSocket :
    (connectionContract reuse).Keeps (fun s => Agreed (some x) s ∧ x ∉ s.1.registry.sockets)
      (.deleteSocket x) := by
  rintro s ⟨h, hx⟩
  refine ⟨fun y heq => (by cases heq), fun e answer s' hassumed hexec => ?_⟩
  obtain ⟨hlookup, -, hregistry⟩ := SharedState.exec_deleteSocket
    (show s.1.exec reuse (.deleteSocket x) e = some (answer, s'.1) from
      (System.recording_exec hexec).1)
  have hother : ∀ y, some x ≠ some y → (SocketAct.deleteSocket x).Preserves y ∧
      SocketAct.deleteSocket x ≠ .adapter y (.setConnected false) :=
    fun y hy => ⟨fun heq => hy (congrArg some heq), by simp⟩
  refine ⟨h.exec (fun _ _ heq => by cases heq) hother hexec hregistry fun y hy => ?_, hregistry ▸ hx⟩
  have hne : y ≠ x := by
    rintro rfl
    exact hx hy
  rw [SharedState.deviceOf, hlookup, if_neg hne, SharedState.deviceOf]

theorem actsIn_remove : (Registry.remove x).ActsIn (S := socketSignature) SocketAct.OffHeap := by
  refine actsIn_locked (ActsIn.bind (S := socketSignature) (p := act (.findSocket x))
    ⟨trivial, fun _ => trivial⟩ fun found => ?_)
  cases found with
  | false => trivial
  | true =>
    refine ActsIn.bind (S := socketSignature) (p := Registry.releaseLocalPortSocket x) ?_
      fun _ => ?_
    · refine actsIn_locked (actsIn_getConfigSocket.bind fun config => ?_)
      cases config with
      | none => trivial
      | some config =>
        show ActsIn (S := socketSignature) SocketAct.OffHeap
          (if config.localPort = -1 then _ else _)
        split
        · trivial
        · exact ⟨trivial, fun _ => trivial⟩
    refine ActsIn.bind (S := socketSignature) (p := Registry.disconnectSocket x)
      (actsIn_locked (actsIn_modifyConfig actsIn_getConfigSocket)) fun _ => ?_
    exact ⟨trivial, fun _ => ⟨trivial, fun _ => trivial⟩⟩

theorem wp_destroyLocked (h : Agreed (some x) s) (hx : x ∈ s.1.registry.sockets) :
    (connectionContract reuse).Wp (destroyLocked x) (fun _ s => Agreed none s) s := by
  refine wp_existsSocket ?_
  rw [decide_eq_true hx]
  obtain ⟨hpaired, hflags, hgone⟩ := h.paired.remove hx
  refine wp_method (p := Registry.remove x) ?_ (computes_remove overlooks (below_nil 4) hx) ?_
  · exact actsIn_remove
  · have hremoved : Agreed (some x) ({ s.1.setRegistry (s.1.registry.remove x).2 with
        removed := x :: s.1.removed }, s.2) :=
      h.of_heap rfl rfl (hpaired.of_registry rfl fun _ _ => rfl) fun y hy => Or.inl (hflags y hy)
    refine (keeps_deleteAdapter fun r => x ∉ r.sockets).wp_act (fun _ _ => trivial)
      ⟨hremoved, hgone⟩ fun _ s₁ h₁ => ?_
    exact keeps_deleteSocket.wp_act (fun _ _ => trivial) h₁ fun _ s₂ h₂ => h₂.1.all_of_gone h₂.2

theorem wp_bratislavaDestroy (h : Agreed none s) :
    (connectionContract reuse).Wp (bratislavaDestroy (some x)) (fun _ s => Agreed none s) s := by
  refine (wp_interruptIfExists h).bind fun found s₁ h₁ => ?_
  cases found with
  | true => exact wp_destroyLocked h₁.1 h₁.2
  | false => exact h₁

theorem exec_createConfigSocket {link : BratislavaLink} {answer : Unit}
    (hexec : (connectionSystem reuse).exec (.createConfigSocket x link) e s = some (answer, s')) :
    e.address ∉ s.1.registry.configs ∧
      s' = (s.1.setRegistry (s.1.registry.createConfigSocket x link e.address), s.2) := by
  obtain ⟨hcreate, hconnections⟩ := System.recording_exec hexec
  have hsame := hconnections.trans (overlooks (.createConfigSocket x link) e s.1 s.2 trivial)
  simp only [SharedState.exec] at hcreate
  split at hcreate
  · cases hcreate
  · rename_i hp
    exact ⟨hp, Prod.ext (Prod.mk.inj (Option.some.inj hcreate)).2.symm hsame⟩

theorem exec_pushSocket {answer : Unit}
    (hexec : (connectionSystem reuse).exec (.pushSocket x) e s = some (answer, s')) :
    s' = (s.1.setRegistry { s.1.registry with sockets := s.1.registry.sockets ++ [x] }, s.2) := by
  obtain ⟨hpush, hconnections⟩ := System.recording_exec hexec
  have hsame := hconnections.trans (overlooks (.pushSocket x) e s.1 s.2 trivial)
  exact Prod.ext (Prod.mk.inj (Option.some.inj hpush)).2.symm hsame

/-- A new handle is registered, as no other one is for its device. -/
theorem wp_add (h : Agreed none s) (hx : x ∉ s.1.registry.sockets) :
    (connectionContract reuse).Wp (Registry.add x) (fun _ s => Agreed none s) s := by
  refine Contract.wp_locked.mpr (Contract.wp_bind.mpr ?_)
  refine ⟨fun _ heq => (by cases heq), fun e link s₁ _ hread => ⟨trivial, ?_⟩⟩
  obtain ⟨hlookup, -⟩ := System.recording_exec hread
  obtain rfl : s₁ = s := exec_reads hread trivial
  have hdevice : s₁.1.deviceOf x = some (getDeviceID link) := by
    obtain ⟨b, hb, heq⟩ := Option.map_eq_some_iff.mp hlookup
    rw [SharedState.deviceOf, hb, Option.map_some, (Prod.mk.inj heq).1]
  refine ⟨fun _ heq => (by cases heq), fun e _ s₂ _ hcreate => ⟨trivial, ?_⟩⟩
  obtain ⟨hp, rfl⟩ := exec_createConfigSocket hcreate
  refine ⟨fun _ heq => (by cases heq), fun e' _ s₃ hassumed hpush => ⟨trivial, ?_⟩⟩
  obtain rfl : s₃ = (s₁.1.setRegistry (s₁.1.registry.add x link e.address), s₁.2) :=
    exec_pushSocket hpush
  have hone : ∀ y ∈ s₁.1.registry.sockets, s₁.1.deviceOf y ≠ some (getDeviceID link) := by
    intro y hy heq
    have hsockets := sockets_createConfigSocket s₁.1.registry x link e.address
    have hsame : y = x := hassumed.2 x rfl y (hsockets.symm ▸ hy) (heq.trans hdevice.symm)
    exact hx (hsame ▸ hy)
  obtain ⟨hpaired, hflags⟩ := h.paired.add hx hdevice hone hp
  exact h.of_heap rfl rfl hpaired fun y hy => Or.inl (hflags y hy)

/-- A new object has no entry in the registry yet. -/
theorem agreed_newSocket {link : BratislavaLink} {answer : Option SocketPtr} (h : Agreed none s)
    (hexec : (connectionSystem reuse).exec (.newSocket link) e s = some (answer, s')) :
    Agreed none s' ∧ ∀ x, answer = some x → x ∉ s'.1.registry.sockets := by
  obtain ⟨hfresh, b, fds, hs', -, hanswer⟩ := SharedState.exec_newSocket
    (show s.1.exec reuse (.newSocket link) e = some (answer, s'.1) from
      (System.recording_exec hexec).1)
  have hnew : ∀ y ∈ s.1.registry.sockets, y ≠ e.address := by
    rintro y hy rfl
    exact hfresh (h.paired.mem_heap hy)
  have hother : ∀ y, none ≠ some y → (SocketAct.newSocket link).Preserves y ∧
      SocketAct.newSocket link ≠ .adapter y (.setConnected false) := fun _ _ => ⟨trivial, by simp⟩
  refine ⟨h.exec (fun _ _ heq => by cases heq) hother hexec (hs' ▸ rfl) fun y hy => ?_,
    fun x heq hx => ?_⟩
  · rw [hs', SharedState.deviceOf, SharedState.deviceOf, SharedState.allocate,
      Finmap.lookup_insert_of_ne _ (hnew y hy)]
  · rw [hs'] at hx
    exact hnew x hx (hanswer x heq)

theorem wp_bratislavaSocket (link : BratislavaLink) (h : Agreed none s) :
    (connectionContract reuse).Wp (bratislavaSocket link) (fun _ s => Agreed none s) s := by
  refine Contract.wp_locked.mpr (Contract.wp_locked.mpr ?_)
  have hid : ∀ id, (Registry.getConfigId id).ActsIn SocketAct.Reads :=
    fun _ => ⟨trivial, fun _ => trivial⟩
  have hexists : (Registry.existsId link.linkID).ActsIn SocketAct.Reads := by
    refine actsIn_locked ((hid _).bind fun config => ?_)
    cases config <;> trivial
  refine (Contract.wp_actsIn (fun _ _ => trivial) (fun _ ha => keeps_reads _ ha) hexists h).bind
    fun found s₁ h₁ => ?_
  cases found with
  | true =>
    refine (Contract.wp_actsIn (fun _ _ => trivial) (fun _ ha => keeps_reads _ ha) (hid _) h₁).bind
      fun config s₂ h₂ => ?_
    cases config <;> exact h₂
  | false =>
    refine ⟨fun _ heq => (by cases heq), fun e answer s₂ hassumed hexec => ⟨trivial, ?_⟩⟩
    obtain ⟨h₂, hnew⟩ := agreed_newSocket h₁ hexec
    cases answer with
    | none => exact h₂
    | some x => exact (wp_add h₂ (hnew x rfl)).bind fun _ _ hs => hs

theorem wp_ifConnected {body : Program Status}
    (hbody : ∀ s, Agreed none s → (connectionContract reuse).Wp body (fun _ s => Agreed none s) s)
    (h : Agreed none s) :
    (connectionContract reuse).Wp (ifConnected x body) (fun _ s => Agreed none s) s := by
  refine wp_isConnected ?_
  cases s.1.registry.isConnectedSocket x with
  | true => exact hbody s h
  | false => exact h

theorem wp_withAdapter {body : Program Status}
    (hbody : ∀ s, Agreed none s → (connectionContract reuse).Wp body (fun _ s => Agreed none s) s)
    (h : Agreed none s) :
    (connectionContract reuse).Wp (withAdapter x body) (fun _ s => Agreed none s) s := by
  refine (keeps_reads (.hasAdapter x) trivial).wp_act (fun _ _ => trivial) h
    fun found s₁ h₁ => ?_
  cases found with
  | true => exact hbody s₁ h₁
  | false => exact h₁

theorem wp_bratislavaConn (h : Agreed none s) :
    (connectionContract reuse).Wp (bratislavaConn (some x))
      (fun status s => Agreed none s ∧ (status.value = 0 → Backed x s)) s :=
  wp_withPin (wp_connPinned h) ⟨h, fun heq => by cases heq⟩

theorem wp_onLink {link : BratislavaLink} {transfer : SocketPtr → Program Status}
    (htransfer : ∀ x s, Agreed none s →
      (connectionContract reuse).Wp (transfer x) (fun _ s => Agreed none s) s) (h : Agreed none s) :
    (connectionContract reuse).Wp (onLink link transfer) (fun _ s => Agreed none s) s := by
  refine (wp_bratislavaSocket link h).bind fun found s₁ h₁ => ?_
  cases found with
  | none => exact h₁
  | some x =>
    refine (wp_bratislavaConn h₁).bind fun status s₂ h₂ => ?_
    show (connectionContract reuse).Wp (if status.value ≠ 0 then _ else _) _ _
    split
    · exact h₂.1
    · exact wp_withPin (wp_withAdapter (htransfer x) h₂.1) h₂.1

/-- A function that takes a handle leaves a null one alone. -/
theorem wp_notNull {bsock : Option SocketPtr} {body : SocketPtr → Program Status}
    (hbody : ∀ x, (connectionContract reuse).Wp (body x) (fun _ s => Agreed none s) s)
    (h : Agreed none s) :
    (connectionContract reuse).Wp (notNull bsock body) (fun _ s => Agreed none s) s := by
  cases bsock with
  | some x => exact hbody x
  | none => exact h

/-- The calls keep the connections and what the registry takes as connected in agreement. -/
theorem wp_body {f : Call} (hf : f.OnConnections) (h : Agreed none s) :
    (connectionContract reuse).Wp f.body (fun r s => Agreed none s ∧ f.Answered r s) s := by
  have hstatus : ∀ p : Program Status, (∀ x, f ≠ .bratislavaConn (some x)) →
      (connectionContract reuse).Wp p (fun _ s => Agreed none s) s →
      (connectionContract reuse).Wp (p.bind fun status => .pure (.status status))
        (fun r s => Agreed none s ∧ f.Answered r s) s := by
    intro p hnot hp
    exact hp.bind fun _ s hs => ⟨hs, fun x _ heq => absurd heq (hnot x)⟩
  cases f with
  | bratislavaSocket link =>
    exact (wp_bratislavaSocket link h).bind fun _ s hs => ⟨hs, fun _ _ heq => by cases heq⟩
  | bratislavaConn bsock =>
    cases bsock with
    | none => exact ⟨h, fun _ _ heq => by cases heq⟩
    | some x =>
      refine (wp_bratislavaConn h).bind fun status s hs => ⟨hs.1, ?_⟩
      rintro _ _ ⟨⟩ ⟨⟩ hzero
      exact hs.2 hzero
  | bratislavaSend bsock =>
    refine hstatus _ (by simp) (wp_notNull (fun x => wp_withPin ?_ h) h)
    exact wp_ifConnected (fun _ hs => wp_withAdapter (fun _ hs => wp_send hs) hs) h
  | bratislavaLinkSend link => exact hstatus _ (by simp) (wp_onLink (fun _ _ hs => wp_send hs) h)
  | bratislavaRecv bsock =>
    refine hstatus _ (by simp) (wp_notNull (fun x => wp_withPin ?_ h) h)
    exact wp_ifConnected (fun _ hs => wp_withAdapter (fun _ hs => wp_recv hs) hs) h
  | bratislavaLinkRecv link => exact hstatus _ (by simp) (wp_onLink (fun _ _ hs => wp_recv hs) h)
  | bratislavaConnTimeout bsock ms =>
    refine hstatus _ (by simp) (wp_notNull (fun x => wp_withPin ?_ h) h)
    exact (wp_setTimeout (only_setConnTimeout trivial) h).bind fun _ _ hs => hs
  | bratislavaRecvTimeout bsock ms =>
    refine hstatus _ (by simp) (wp_notNull (fun x => wp_withPin ?_ h) h)
    exact (wp_setTimeout (only_setRecvTimeout trivial trivial trivial) h).bind fun _ _ hs => hs
  | bratislavaDestroy bsock =>
    refine hstatus _ (by simp) ?_
    cases bsock with
    | some x => exact wp_bratislavaDestroy h
    | none => exact h
  | bratislavaDisconnect bsock =>
    exact hstatus _ (by simp) (wp_notNull (fun x => wp_withPin (wp_disconnectPinned h) h) h)
  | disconnectId id =>
    obtain ⟨hpaired, hflags⟩ := h.paired.disconnectId id
    refine wp_method (p := Registry.disconnectId id)
      (actsIn_locked (actsIn_modifyConfig actsIn_getConfigId))
      (computes_disconnectId overlooks (below_nil 4) id) ?_
    exact ⟨h.of_heap rfl rfl hpaired fun y hy => Or.inl (hflags y hy), fun _ _ heq => by cases heq⟩
  | _ => exact hf.elim

end Connections

/-! ## Runs -/

/-- No two registered handles are for one device. -/
def SharedState.DistinctDevices (s : SharedState) : Prop :=
  ∀ x ∈ s.registry.sockets, ∀ y ∈ s.registry.sockets, s.deviceOf y = s.deviceOf x → y = x

instance (s : SharedState) : Decidable s.DistinctDevices :=
  inferInstanceAs (Decidable (∀ x ∈ s.registry.sockets, ∀ y ∈ s.registry.sockets,
    s.deviceOf y = s.deviceOf x → y = x))

/-- The step does not close the request socket of a handle. -/
def KeepsRequest (w : World (connectionSystem reuse)) (op : Op (connectionSystem reuse)) : Prop :=
  ∀ x ∈ w.performed op, x.1.KeepsRequest = true

instance (w : World (connectionSystem reuse)) (op : Op (connectionSystem reuse)) :
    Decidable (KeepsRequest w op) :=
  inferInstanceAs (Decidable (∀ x ∈ w.performed op, x.1.KeepsRequest = true))

/-- What the registry and the functions say of connections is true. -/
structure Truthful (w : World (connectionSystem reuse)) : Prop where
  /-- Between the calls. -/
  flags : (∀ t, w.thread t = none) →
    ∀ x, w.state.1.registry.isConnectedSocket x = true → Backed x w.state
  /-- Where `bratislavaConn` returns 0. -/
  answers : ∀ t x status, w.thread t = some (.bratislavaConn (some x), .pure (.status status)) →
    status.value = 0 → Backed x w.state
  /-- Where a message is sent or received. -/
  transfers : ∀ t x, w.nextAct t = some (.adapter x (.startIo .comms)) → Backed x w.state

/-- No socket is made yet, whatever other descriptors are open. -/
def Connections.initial (openFds : List Int) : SharedState × Connections :=
  ({ SharedState.noSockets with openFds }, fun _ => none)

theorem Connections.agreed_initial {fds : List Int} (hfds : ∀ fd ∈ fds, 0 ≤ fd) :
    Agreed none (initial fds) where
  paired :=
    { wellFormed := empty_wellFormed
      devices := fun x c hx => by
        simp [initial, SharedState.noSockets, empty, getConfigSocket] at hx
      claimed := fun id c hid => by
        simp [initial, SharedState.noSockets, empty, getConfigId] at hid }
  backed x hx := by
    simp [initial, SharedState.noSockets, empty, isConnectedSocket, getConfigSocket] at hx
  separate :=
    { nonneg := hfds
      members := ⟨fun o fd ho => (by cases ho), fun o o' fd ho => (by cases ho)⟩ }

/-- A handle is registered where its device has none. -/
theorem pushSocket_distinct {answer : Unit}
    (hexec : (connectionSystem reuse).exec (.pushSocket x) e s = some (answer, s'))
    (hdistinct : s'.1.DistinctDevices) :
    ∀ y ∈ s.1.registry.sockets, s.1.deviceOf y = s.1.deviceOf x → y = x := by
  obtain rfl := Connections.exec_pushSocket hexec
  intro y hy hdevice
  exact hdistinct x (List.mem_append_right _ (List.mem_singleton_self x)) y
    (List.mem_append_left _ hy) hdevice

variable {w : World (connectionSystem reuse)} {ops : List (Op (connectionSystem reuse))}

/-- What the contract asks of the environment is met in a run. -/
theorem each_meets (hlegal : (machine (connectionSystem reuse)).Legal w ops)
    (hdistinct : (machine (connectionSystem reuse)).Always
      (fun w => w.state.1.DistinctDevices) w ops)
    (hkeeps : (machine (connectionSystem reuse)).Each KeepsRequest w ops) :
    (machine (connectionSystem reuse)).Each (connectionContract reuse).Meets w ops := by
  refine Machine.Each.mono ?_ (Machine.Each.and (Machine.Each.and hlegal hdistinct.each_next) hkeeps)
  rintro w op ⟨⟨hop, hnext⟩, hkeeps⟩ ⟨a, e⟩ hperformed
  refine ⟨hkeeps (a, e) hperformed, ?_⟩
  rintro x rfl
  rcases World.state_next hop with ⟨hnone, -⟩ | ⟨a', e', answer, hperformed', hexec⟩
  · cases hnone.symm.trans hperformed
  · cases hperformed'.symm.trans hperformed
    exact pushSocket_distinct hexec hnext

/-- In every run of calls of one thread, in which no request socket is closed and no two handles
are for one device, what is said of connections is true. -/
theorem connections_truthful {fds : List Int} (hfds : ∀ fd ∈ fds, 0 ≤ fd) {t : Tid}
    (hcalls : Calls Call.OnConnections ops) (hone : ∀ op ∈ ops, op.tid = t)
    (hlegal : (machine (connectionSystem reuse)).Legal (World.quiet (Connections.initial fds)) ops)
    (hdistinct : (machine (connectionSystem reuse)).Always (fun w => w.state.1.DistinctDevices)
      (World.quiet (Connections.initial fds)) ops)
    (hkeeps : (machine (connectionSystem reuse)).Each KeepsRequest
      (World.quiet (Connections.initial fds)) ops) :
    (machine (connectionSystem reuse)).Always Truthful (World.quiet (Connections.initial fds))
      ops := by
  have hmeets := each_meets hlegal hdistinct hkeeps
  refine @Contract.attended_always _ _ (connectionContract reuse) _ (Agreed none) Call.Answered
    Call.OnConnections t Truthful (fun _ _ => trivial) (fun _ hf _ hs => Connections.wp_body hf hs)
    ?_ (Connections.agreed_initial hfds) _ hcalls hone hlegal hmeets
  intro w hw
  refine ⟨fun hidle x hx => ?_, fun u x status hthread hzero => ?_, fun u x hact => ?_⟩
  · exact (hw.idle (hidle t)).backed x hx (by simp)
  · by_cases hu : u = t
    · subst hu
      exact (hw.busy _ _ hthread).2 x status rfl rfl hzero
    · rw [hw.others u hu] at hthread
      cases hthread
  · exact hw.owes hact x rfl

/-- A socket is made and connected, sends a message, is disconnected by its device id and
destroyed. -/
def connThenDestroy : List (Op (connectionSystem false)) :=
  .start 0 (.bratislavaSocket (.wifi "aa" "aa")) :: List.replicate 18 (.run 0 threeFds) ++
    .start 0 (.bratislavaConn (some 1)) ::
    List.replicate 56 (.run 0 { attempt := .connected, status := 4, port := 7 }) ++
    .start 0 (.bratislavaSend (some 1)) :: List.replicate 22 (.run 0 { status := 4 }) ++
    .start 0 (.disconnectId "aa") :: List.replicate 9 (.run 0 {}) ++
    .start 0 (.bratislavaDestroy (some 1)) :: List.replicate 49 (.run 0 { sockfd := 3 })

theorem connections_truthful_conn_then_destroy :
    (machine (connectionSystem false)).Always Truthful
      (World.quiet (Connections.initial [0, 1, 2])) connThenDestroy := by
  refine connections_truthful (by decide) (t := 0) ?_ (by decide +kernel) (by decide +kernel)
    (by decide +kernel) (by decide +kernel)
  intro t f hmem
  simp [connThenDestroy] at hmem
  rcases hmem with ⟨_, rfl⟩ | ⟨_, rfl⟩ | ⟨_, rfl⟩ | ⟨_, rfl⟩ | ⟨_, rfl⟩ <;> trivial

/-- Whatever the calls and the outcomes, what is said of connections is true. -/
def AlwaysTruthful : Prop :=
  ∀ (fds : List Int) (ops : List (Op (connectionSystem false))), (∀ fd ∈ fds, 0 ≤ fd) →
    Calls Call.OnConnections ops → (∀ op ∈ ops, op.tid = 0) →
    (machine (connectionSystem false)).Legal (World.quiet (Connections.initial fds)) ops →
    (machine (connectionSystem false)).Always (fun w => w.state.1.DistinctDevices)
      (World.quiet (Connections.initial fds)) ops →
    (machine (connectionSystem false)).Always Truthful (World.quiet (Connections.initial fds)) ops

/-- The request socket of a first handle is closed, and a second handle is given its number and
connects. Then the first one is destroyed. -/
def timeoutThenOther : List (Op (connectionSystem false)) :=
  .start 0 (.bratislavaSocket (.wifi "aa" "aa")) :: List.replicate 18 (.run 0 threeFds) ++
    .start 0 (.bratislavaConn (some 1)) ::
    List.replicate 36 (.run 0 { attempt := .expiredReady }) ++
    .start 0 (.bratislavaSocket (.wifi "bb" "bb")) ::
    List.replicate 18 (.run 0 { threeFds with
      address := 2, sockfd := 4, sockfdRequest := 6, sockfdListen := 7 }) ++
    .start 0 (.bratislavaConn (some 2)) ::
    List.replicate 56 (.run 0 { attempt := .connected, status := 4, port := 7 }) ++
    .start 0 (.bratislavaDestroy (some 1)) :: List.replicate 49 (.run 0 { sockfd := 8 })

/-- The registry has the second handle as connected, and its `sockfd_` is closed. -/
theorem other_connection_closed : ¬ AlwaysTruthful := by
  intro h
  have hcalls : Calls Call.OnConnections timeoutThenOther := by
    intro t f hmem
    simp only [timeoutThenOther, List.mem_append, List.mem_cons, List.mem_replicate, Op.start.injEq,
      reduceCtorEq, and_false, or_false] at hmem
    rcases hmem with (((⟨_, rfl⟩ | ⟨_, rfl⟩) | ⟨_, rfl⟩) | ⟨_, rfl⟩) | ⟨_, rfl⟩ <;> trivial
  have hone : ∀ op ∈ timeoutThenOther, op.tid = 0 := by decide +kernel
  have hlegal : (machine (connectionSystem false)).Legal
      (World.quiet (Connections.initial [0, 1, 2])) timeoutThenOther := by decide +kernel
  have hlast := (h [0, 1, 2] timeoutThenOther (by decide) hcalls hone hlegal
    (by decide +kernel)).last
  have hothers := run_idle (n := 1) hlegal fun op hop => (hone op hop).symm ▸ Nat.one_pos
  have hidle : (((machine (connectionSystem false)).run
      (World.quiet (Connections.initial [0, 1, 2])) timeoutThenOther).thread 0).isNone = true := by
    decide +kernel
  have hflag : ((machine (connectionSystem false)).run
      (World.quiet (Connections.initial [0, 1, 2]))
        timeoutThenOther).state.1.registry.isConnectedSocket 2 = true := by decide +kernel
  have hclosed : (((machine (connectionSystem false)).run
      (World.quiet (Connections.initial [0, 1, 2])) timeoutThenOther).state.1.adapterOf 2).all
        (fun a => decide (a.sockfd ∉ ((machine (connectionSystem false)).run
          (World.quiet (Connections.initial [0, 1, 2])) timeoutThenOther).state.1.openFds)) =
        true := by decide +kernel
  generalize (machine (connectionSystem false)).run (World.quiet (Connections.initial [0, 1, 2]))
    timeoutThenOther = w at hlast hothers hidle hflag hclosed
  have hnone : ∀ t, w.thread t = none := by
    intro t
    cases t with
    | zero => exact Option.isNone_iff_eq_none.mp hidle
    | succ t => exact hothers _ (Nat.succ_pos t)
  obtain ⟨a, hlinked, -⟩ := hlast.flags hnone 2 hflag
  rw [hlinked.adapter] at hclosed
  exact of_decide_eq_true hclosed hlinked.isOpen

end SensorLib
