import SensorLib.Socket.Connections

/-! # What the registry says of connections

The registry keeps a flag for each handle, and its adapter another one. Between
the calls, a handle with the flag of the registry has an adapter that has a
connection. The rules below say which methods and acts keep it so.
-/

namespace SensorLib

open Threads Threads.Prog Runs BratislavaSocketRegistry

/-! ## Handles and configs -/

/-- Between calls: a registered handle has the config of its device, and there is no other
config. -/
structure Paired (s : SharedState) : Prop where
  wellFormed : WellFormed s.registry
  devices : ∀ x c, s.registry.getConfigSocket x = some c → s.deviceOf x = some c.deviceId
  claimed : ∀ id c, s.registry.getConfigId id = some c → ∃ x, c.socket = some x

theorem BratislavaSocketRegistry.acquireLocalPort_eq (r : BratislavaSocketRegistry) :
    ∃ ports, r.acquireLocalPort.2 = { r with availableLocalPorts := ports } := by
  unfold acquireLocalPort
  split
  · exact ⟨_, rfl⟩
  · exact ⟨_, rfl⟩

namespace Paired

variable {s s' : SharedState} (h : Paired s)

include h

theorem getConfigSocket_of_id {id : String} {c : BratislavaSocketConfig}
    (hid : s.registry.getConfigId id = some c) :
    ∃ y, s.registry.getConfigSocket y = some c ∧ c.socket = some y ∧ y ∈ s.registry.sockets ∧
      s.deviceOf y = some id := by
  obtain ⟨y, hy⟩ := h.claimed id c hid
  have heq := h.wellFormed.deviceId_of_getConfigId hid
  subst heq
  have hget := h.wellFormed.getConfigSocket_iff_getConfigId.mpr ⟨hid, hy⟩
  exact ⟨y, hget, hy, h.wellFormed.mem_sockets_iff.mpr ⟨c, hget⟩, h.devices y c hget⟩

/-- A registered handle is an object. -/
theorem mem_heap {x : SocketPtr} (hx : x ∈ s.registry.sockets) : x ∈ s.heap := by
  obtain ⟨c, hc⟩ := h.wellFormed.mem_sockets_iff.mp hx
  obtain ⟨b, hb, -⟩ := Option.map_eq_some_iff.mp (h.devices x c hc)
  exact Finmap.mem_of_lookup_eq_some hb

/-- The registry is the same, and the registered handles are for the devices they were for. -/
theorem of_registry (hregistry : s'.registry = s.registry)
    (hdevices : ∀ x ∈ s.registry.sockets, s'.deviceOf x = s.deviceOf x) : Paired s' where
  wellFormed := hregistry ▸ h.wellFormed
  devices x c hx := by
    rw [hregistry] at hx
    rw [hdevices x (h.wellFormed.mem_sockets_iff.mpr ⟨c, hx⟩)]
    exact h.devices x c hx
  claimed id c hid := by
    rw [hregistry] at hid
    exact h.claimed id c hid

/-- The config of one device is changed to one for a socket of that device. -/
theorem of_files {r : BratislavaSocketRegistry} {d : String} {v : Option BratislavaSocketConfig}
    (hfiles : Files s.registry r d v)
    (hv : ∀ c, v = some c → ∃ y, c.socket = some y ∧ s.deviceOf y = some d) :
    Paired (s.setRegistry r) where
  wellFormed := hfiles.wellFormed
  devices x c hx := by
    rcases hfiles.getConfigSocket h.wellFormed hx with ⟨hc, rfl, hsocket⟩ | hold
    · obtain ⟨y, hy, hdevice⟩ := hv c hc
      cases hsocket.symm.trans hy
      exact hdevice
    · exact h.devices x c hold
  claimed id c hid := by
    have hid' : r.getConfigId id = some c := hid
    rw [hfiles.getConfigId] at hid'
    split at hid'
    · obtain ⟨y, hy, -⟩ := hv c hid'
      exact ⟨y, hy⟩
    · exact h.claimed id c hid'

theorem withPorts (ports : Finset Int) :
    Paired (s.setRegistry { s.registry with availableLocalPorts := ports }) := by
  refine h.of_files ((Files.refl h.wellFormed "").withPorts ports) fun c hc => ?_
  obtain ⟨y, -, hy, -, hdevice⟩ := h.getConfigSocket_of_id hc
  exact ⟨y, hy, hdevice⟩

/-- A config is read, changed and written back. -/
theorem modifyConfig (found : Option BratislavaSocketConfig)
    (change : BratislavaSocketConfig → BratislavaSocketConfig)
    (hfound : ∀ c, found = some c → s.registry.getConfigId c.deviceId = some c)
    (howner : ∀ c, (change c).owner = c.owner) :
    Paired (s.setRegistry (s.registry.modifyConfig found change).2) ∧
      ∀ x, (s.registry.modifyConfig found change).2.isConnectedSocket x = true →
        s.registry.isConnectedSocket x = true ∨
          ∃ c, found = some c ∧ c.socket = some x ∧ (change c).connected = true := by
  cases found with
  | none => exact ⟨h, fun x hx => Or.inl hx⟩
  | some c =>
    have hget := hfound c rfl
    have hsocket : (change c).socket = c.socket := congrArg Prod.fst (howner c)
    have hid : (change c).deviceId = c.deviceId := congrArg Prod.snd (howner c)
    have hfiles := (h.wellFormed.modifyConfig_files hget hsocket hid).2
    refine ⟨h.of_files hfiles ?_, fun x hx => ?_⟩
    · rintro _ ⟨⟩
      obtain ⟨y, -, hy, -, hdevice⟩ := h.getConfigSocket_of_id hget
      exact ⟨y, hsocket.trans hy, hdevice⟩
    · refine (hfiles.isConnectedSocket h.wellFormed hx).imp_right ?_
      rintro ⟨_, ⟨⟩, hx, hconnected⟩
      exact ⟨c, rfl, hsocket.symm.trans hx, hconnected⟩

theorem getConfigId_of_socket {x : SocketPtr} {c : BratislavaSocketConfig}
    (hx : s.registry.getConfigSocket x = some c) :
    s.registry.getConfigId c.deviceId = some c ∧ c.socket = some x :=
  h.wellFormed.getConfigSocket_iff_getConfigId.mp hx

theorem getConfigId_of_id {id : String} {c : BratislavaSocketConfig}
    (hid : s.registry.getConfigId id = some c) :
    s.registry.getConfigId c.deviceId = some c := by
  rwa [h.wellFormed.deviceId_of_getConfigId hid]

/-- A method that takes the flag back. -/
theorem lowers (found : Option BratislavaSocketConfig)
    (hfound : ∀ c, found = some c → s.registry.getConfigId c.deviceId = some c) :
    Paired (s.setRegistry (s.registry.modifyConfig found fun config =>
        { config with connected := false }).2) ∧
      ∀ y, (s.registry.modifyConfig found fun config =>
          { config with connected := false }).2.isConnectedSocket y = true →
        s.registry.isConnectedSocket y = true := by
  obtain ⟨hpaired, hflags⟩ := h.modifyConfig found
    (fun config => { config with connected := false }) hfound fun _ => rfl
  refine ⟨hpaired, fun y hy => (hflags y hy).resolve_right ?_⟩
  rintro ⟨c, -, -, hconnected⟩
  cases hconnected

theorem connect (x : SocketPtr) :
    Paired (s.setRegistry (s.registry.connect x).2) ∧
      ∀ y, (s.registry.connect x).2.isConnectedSocket y = true →
        s.registry.isConnectedSocket y = true ∨ y = x := by
  obtain ⟨hpaired, hflags⟩ := h.modifyConfig (s.registry.getConfigSocket x)
    (fun config => { config with connected := true }) (fun _ hc => (h.getConfigId_of_socket hc).1)
    fun _ => rfl
  refine ⟨hpaired, fun y hy => (hflags y hy).imp_right ?_⟩
  rintro ⟨c, hc, hsocket, -⟩
  exact Option.some.inj (hsocket.symm.trans (h.getConfigId_of_socket hc).2)

theorem disconnectSocket (x : SocketPtr) :
    Paired (s.setRegistry (s.registry.disconnectSocket x).2) ∧
      ∀ y, (s.registry.disconnectSocket x).2.isConnectedSocket y = true →
        s.registry.isConnectedSocket y = true :=
  h.lowers _ fun _ hc => (h.getConfigId_of_socket hc).1

theorem disconnectId (d : String) :
    Paired (s.setRegistry (s.registry.disconnectId d).2) ∧
      ∀ y, (s.registry.disconnectId d).2.isConnectedSocket y = true →
        s.registry.isConnectedSocket y = true :=
  h.lowers _ fun _ hc => h.getConfigId_of_id hc

theorem addLocalPort (d : String) :
    Paired (s.setRegistry (s.registry.addLocalPort d).2) ∧
      ∀ y, (s.registry.addLocalPort d).2.isConnectedSocket y = true →
        s.registry.isConnectedSocket y = true := by
  obtain ⟨ports, hports⟩ := acquireLocalPort_eq s.registry
  have hpaired := h.withPorts ports
  rw [← hports] at hpaired
  have hsame : ∀ y, s.registry.acquireLocalPort.2.isConnectedSocket y =
      s.registry.isConnectedSocket y := by
    intro y
    rw [hports]
    rfl
  simp only [BratislavaSocketRegistry.addLocalPort]
  split
  · obtain ⟨hpaired', hflags⟩ := hpaired.modifyConfig (s.registry.acquireLocalPort.2.getConfigId d)
      (fun config => { config with localPort := s.registry.acquireLocalPort.1 })
      (fun _ hc => hpaired.getConfigId_of_id hc) fun _ => rfl
    refine ⟨hpaired', fun y hy => ?_⟩
    rw [← hsame]
    rcases hflags y hy with hold | ⟨c, hc, hsocket, hconnected⟩
    · exact hold
    · have hget := hpaired.wellFormed.getConfigSocket_iff_getConfigId.mpr
        ⟨hpaired.getConfigId_of_id hc, hsocket⟩
      exact isConnectedSocket_eq_true.mpr ⟨c, hget, hconnected⟩
  · exact ⟨hpaired, fun y hy => (hsame y).symm.trans hy⟩

/-- `Remove` of a registered handle. -/
theorem remove {x : SocketPtr} (hx : x ∈ s.registry.sockets) :
    Paired (s.setRegistry (s.registry.remove x).2) ∧
      (∀ y, (s.registry.remove x).2.isConnectedSocket y = true →
        s.registry.isConnectedSocket y = true) ∧ x ∉ (s.registry.remove x).2.sockets := by
  obtain ⟨c, hc⟩ := h.wellFormed.mem_sockets_iff.mp hx
  have hfiles := remove_files h.wellFormed hc
  have hpaired : Paired (s.setRegistry (s.registry.remove x).2) :=
    h.of_files hfiles fun _ heq => nomatch heq
  refine ⟨hpaired, fun y hy => ?_, fun hmem => ?_⟩
  · refine (hfiles.isConnectedSocket h.wellFormed hy).resolve_right ?_
    rintro ⟨_, heq, -⟩
    cases heq
  · obtain ⟨c', hc'⟩ := hfiles.wellFormed.mem_sockets_iff.mp hmem
    rcases hfiles.getConfigSocket h.wellFormed hc' with ⟨heq, -⟩ | hold
    · cases heq
    · cases hc.symm.trans hold
      have hid := (hfiles.wellFormed.getConfigSocket_iff_getConfigId.mp hc').1
      rw [hfiles.getConfigId, if_pos rfl] at hid
      cases hid

/-- `Add` of a new handle, for a device that has none. -/
theorem add {x : SocketPtr} {link : BratislavaLink} {p : ConfigPtr} (hx : x ∉ s.registry.sockets)
    (hdevice : s.deviceOf x = some (getDeviceID link))
    (hone : ∀ y ∈ s.registry.sockets, s.deviceOf y ≠ some (getDeviceID link))
    (hp : p ∉ s.registry.configs) :
    Paired (s.setRegistry (s.registry.add x link p)) ∧
      ∀ y, (s.registry.add x link p).isConnectedSocket y = true →
        s.registry.isConnectedSocket y = true := by
  have hnone : s.registry.getConfigId (getDeviceID link) = none := by
    cases hget : s.registry.getConfigId (getDeviceID link) with
    | none => rfl
    | some c =>
      obtain ⟨y, -, -, hy, hydevice⟩ := h.getConfigSocket_of_id hget
      exact absurd hydevice (hone y hy)
  have hfiles := add_files h.wellFormed hx (fun c hc => by cases hnone.symm.trans hc) hp
  refine ⟨h.of_files hfiles ?_, fun y hy => ?_⟩
  · rintro _ ⟨⟩
    exact ⟨x, rfl, hdevice⟩
  · refine (hfiles.isConnectedSocket h.wellFormed hy).resolve_right ?_
    rintro ⟨_, ⟨⟩, -, hconnected⟩
    have hfresh : (s.registry.claimed (getDeviceID link) x).connected = false := by
      rw [BratislavaSocketRegistry.claimed, hnone]
      rfl
    cases hfresh.symm.trans hconnected

end Paired

/-! ## Flags and connections -/

/-- The handles that the registry has as connected have a connection, but for one that is
exempt. -/
structure Flagged (exempt : Option SocketPtr) (s : SharedState × Connections) : Prop where
  paired : Paired s.1
  backed : ∀ x, s.1.registry.isConnectedSocket x = true → exempt ≠ some x → Backed x s

/-- The descriptors that adapters hold are apart, too. -/
structure Agreed (exempt : Option SocketPtr) (s : SharedState × Connections) : Prop
    extends Flagged exempt s where
  separate : s.1.Separate

/-- The registry does not have the handle as connected. -/
structure Unflagged (x : SocketPtr) (s : SharedState × Connections) : Prop where
  agreed : Agreed (some x) s
  unflagged : s.1.registry.isConnectedSocket x = false

/-- A connection depends on the objects and the descriptors only. -/
theorem Backed.of_heap {s : SharedState × Connections} {t : SharedState} {x : SocketPtr}
    (h : Backed x s) (hheap : t.heap = s.1.heap) (hfds : t.openFds = s.1.openFds) :
    Backed x (t, s.2) := by
  obtain ⟨a, hlinked, hconnected⟩ := h
  refine ⟨a, ⟨?_, hlinked.connection, hfds ▸ hlinked.isOpen⟩, hconnected⟩
  rw [SharedState.adapterOf, hheap]
  exact hlinked.adapter

/-- An act that leaves the registry, the devices and the connections of the others as they are. -/
theorem Flagged.exec {reuse : Bool} {exempt : Option SocketPtr} {s s' : SharedState × Connections}
    {e : Choice} {act : SocketAct} (h : Flagged exempt s)
    (hclosed : ∀ x, exempt ≠ some x → ∀ a, Linked x a s → a.sockfd ∉ s.1.closedBy act)
    (hact : ∀ x, exempt ≠ some x → act.Preserves x ∧ act ≠ .adapter x (.setConnected false))
    {answer : act.Answer} (hexec : (connectionSystem reuse).exec act e s = some (answer, s'))
    (hregistry : s'.1.registry = s.1.registry)
    (hdevices : ∀ x ∈ s.1.registry.sockets, s'.1.deviceOf x = s.1.deviceOf x) :
    Flagged exempt s' where
  paired := h.paired.of_registry hregistry hdevices
  backed x hx hne := by
    rw [hregistry] at hx
    exact (h.backed x hx hne).exec (hclosed x hne) (hact x hne).1 (hact x hne).2 hexec

namespace Agreed

variable {reuse : Bool} {exempt : Option SocketPtr} {s s' : SharedState × Connections}
  {x : SocketPtr} {e : Choice}

/-- The registry is changed, and takes no handle as connected that has no connection. -/
theorem of_heap {t : SharedState} (h : Agreed exempt s) (hheap : t.heap = s.1.heap)
    (hfds : t.openFds = s.1.openFds) (ht : Paired t)
    (hflags : ∀ x, t.registry.isConnectedSocket x = true →
      s.1.registry.isConnectedSocket x = true ∨ Backed x s) : Agreed exempt (t, s.2) where
  paired := ht
  backed x hx hne := by
    rcases hflags x hx with hold | hbacked
    · exact (h.backed x hold hne).of_heap hheap hfds
    · exact hbacked.of_heap hheap hfds
  separate := h.separate.of_holds hfds fun y m fd hy => by
    rwa [SharedState.holds, SharedState.adapterOf, hheap] at hy

theorem but (h : Agreed none s) (x : SocketPtr) : Agreed (some x) s :=
  ⟨⟨h.paired, fun y hy _ => h.backed y hy (by simp)⟩, h.separate⟩

/-- A handle without the flag needs no exemption. -/
theorem all (h : Agreed (some x) s) (hx : s.1.registry.isConnectedSocket x ≠ true) :
    Agreed none s where
  paired := h.paired
  backed y hy _ := by
    refine h.backed y hy fun heq => ?_
    cases heq
    exact hx hy
  separate := h.separate

/-- A handle that is not registered has no flag. -/
theorem all_of_gone (h : Agreed (some x) s) (hx : x ∉ s.1.registry.sockets) : Agreed none s := by
  refine h.all fun hflag => ?_
  obtain ⟨c, hc, -⟩ := isConnectedSocket_eq_true.mp hflag
  exact hx (h.paired.wellFormed.mem_sockets_iff.mpr ⟨c, hc⟩)

theorem exec {act : SocketAct} (h : Agreed exempt s)
    (hsteady : ∀ y b, act = .adapter y b → b ≠ .closeRequest ∧ b.Preserves)
    (hact : ∀ x, exempt ≠ some x → act.Preserves x ∧ act ≠ .adapter x (.setConnected false))
    {answer : act.Answer} (hexec : (connectionSystem reuse).exec act e s = some (answer, s'))
    (hregistry : s'.1.registry = s.1.registry)
    (hdevices : ∀ x ∈ s.1.registry.sockets, s'.1.deviceOf x = s.1.deviceOf x) :
    Agreed exempt s' where
  toFlagged := h.toFlagged.exec
    (fun x hx _ hlinked => hlinked.not_closed h.separate (hact x hx).1 hsteady) hact hexec hregistry
    hdevices
  separate := h.separate.exec hsteady (System.recording_exec hexec).1

theorem exec_adapter {b : AdapterAct} (h : Agreed exempt s) (hrequest : b ≠ .closeRequest)
    (hpreserves : b.Preserves) (hset : ∀ y, exempt ≠ some y → y = x → b ≠ .setConnected false)
    {answer : b.Answer}
    (hexec : (connectionSystem reuse).exec (.adapter x b) e s = some (answer, s')) :
    Agreed exempt s' ∧ s'.1.registry = s.1.registry := by
  have hexec' : s.1.exec reuse (.adapter x b) e = some (answer, s'.1) :=
    (System.recording_exec hexec).1
  obtain ⟨_, _, hstep, -⟩ := SharedState.exec_adapter hexec'
  refine ⟨h.exec ?_ ?_ hexec hstep.registry fun y _ =>
    (SharedState.sameShape_adapter hexec').deviceOf, hstep.registry⟩
  · rintro _ _ ⟨⟩
    exact ⟨hrequest, hpreserves⟩
  · refine fun y hy => ⟨fun _ => hpreserves, fun heq => ?_⟩
    cases heq
    exact hset x hy rfl rfl

end Agreed

theorem Unflagged.all {s : SharedState × Connections} {x : SocketPtr} (h : Unflagged x s) :
    Agreed none s := h.agreed.all (by simp [h.unflagged])

/-! ## What the acts keep -/

/-- The acts that only look. -/
def SocketAct.Reads : SocketAct → Prop
  | .findSocket _ | .lastSocket | .getConfigSocket _ | .getConfigId _ | .readLink _ | .hasAdapter _
  | .turn => True
  | _ => False

/-- The act does not close the request socket of a handle. -/
def SocketAct.KeepsRequest : SocketAct → Bool
  | .adapter _ .closeRequest => false
  | _ => true

/-- The acts that neither make nor end a connection, and transfer nothing on one. -/
def AdapterAct.Bystands : AdapterAct → Prop
  | .setSockfd _ | .close _ | .socket | .setConnected false | .startIo .comms => False
  | _ => True

theorem AdapterAct.Bystands.preserves {act : AdapterAct} (h : act.Bystands) : act.Preserves := by
  cases act <;> trivial

/-- What the environment does: it lets no request socket be closed, and no second handle be made for
a device. What is owed: messages are sent and received on connections. -/
def connectionContract (reuse : Bool) : Contract (connectionSystem reuse) where
  holds _ := True
  owes act s := ∀ x, act = .adapter x (.startIo .comms) → Backed x s
  assumes act _ s := act.KeepsRequest = true ∧
    ∀ x, act = .pushSocket x →
      ∀ y ∈ s.1.registry.sockets, s.1.deviceOf y = s.1.deviceOf x → y = x

namespace Connections

variable {reuse : Bool} {s s' : SharedState × Connections} {x : SocketPtr} {e : Choice}

theorem overlooks : Overlooks fun act e (s : SharedState) (before : Connections) =>
    s.connections act e before := by
  intro act e s before hoff
  have hnone : s.closedBy act = [] := by
    cases act <;> first | rfl | exact hoff.elim
  funext x
  have hkept : (before x).filter (fun fd => decide (fd ∉ s.closedBy act)) = before x := by
    rw [hnone]
    cases before x <;> simp
  cases act <;> first | exact hkept | exact hoff.elim

theorem exec_reads {act : SocketAct} {answer : act.Answer}
    (hexec : (connectionSystem reuse).exec act e s = some (answer, s')) (hact : act.Reads) :
    s' = s := by
  obtain ⟨hexec', hconnections⟩ := System.recording_exec hexec
  have hoff : act.OffHeap := by
    cases act <;> trivial
  have hsame := hconnections.trans (overlooks act e s.1 s.2 hoff)
  have hs : s'.1 = s.1 := by
    simp only [SharedState.exec] at hexec'
    cases act with
    | readLink | hasAdapter =>
      obtain ⟨b, -, heq⟩ := Option.map_eq_some_iff.mp hexec'
      exact (Prod.mk.inj heq).2.symm
    | findSocket | lastSocket | getConfigSocket | getConfigId | turn =>
      exact (Prod.mk.inj (Option.some.inj hexec')).2.symm
    | _ => exact hact.elim
  exact Prod.ext hs hsame

theorem keeps_reads (act : SocketAct) {I : SharedState × Connections → Prop} (hact : act.Reads) :
    (connectionContract reuse).Keeps I act := by
  refine fun s hs => ⟨fun x heq => ?_, fun e answer s' _ hexec => ?_⟩
  · rw [heq] at hact
    exact hact.elim
  · rwa [exec_reads hexec hact]

variable (act : AdapterAct)

variable {act} in
theorem ne_closeRequest (hkeeps : (SocketAct.adapter x act).KeepsRequest = true) :
    act ≠ .closeRequest := by
  rintro rfl
  cases hkeeps

/-- Whatever is done with the adapter of an exempt handle outside `CloseSocket` and `CreateSocket`,
the others keep their connections and the registry is the same. -/
theorem keeps_exempt (hpreserves : act.Preserves) (hact : act ≠ .startIo .comms)
    (R : BratislavaSocketRegistry → Prop) :
    (connectionContract reuse).Keeps (fun s => Agreed (some x) s ∧ R s.1.registry)
      (.adapter x act) := by
  rintro s ⟨h, hR⟩
  refine ⟨fun y heq => ?_, fun e answer s' hassumed hexec => ?_⟩
  · cases heq
    exact absurd rfl hact
  · obtain ⟨hagreed, hregistry⟩ := h.exec_adapter (ne_closeRequest hassumed.1) hpreserves
      (fun y hy heq => absurd (heq ▸ rfl) hy) hexec
    exact ⟨hagreed, hregistry ▸ hR⟩

theorem keeps_unflagged (hpreserves : act.Preserves) (hact : act ≠ .startIo .comms) :
    (connectionContract reuse).Keeps (Unflagged x) (.adapter x act) := by
  intro s h
  have hkeeps : (connectionContract reuse).Keeps (fun s => Agreed (some x) s ∧
      s.1.registry.isConnectedSocket x = false) (.adapter x act) :=
    keeps_exempt act hpreserves hact fun r => r.isConnectedSocket x = false
  obtain ⟨howes, hnext⟩ := hkeeps s ⟨h.agreed, h.unflagged⟩
  refine ⟨howes, fun e answer s' hassumed hexec => ?_⟩
  obtain ⟨hagreed, hunflagged⟩ := hnext e answer s' hassumed hexec
  exact ⟨hagreed, hunflagged⟩

/-- The acts outside `conn` and `disconn` leave every connection up. -/
theorem keeps_all (hact : act.Bystands) :
    (connectionContract reuse).Keeps (Agreed none) (.adapter x act) := by
  refine fun s h => ⟨fun y heq => ?_, fun e answer s' hassumed hexec => ?_⟩
  · cases heq
    exact hact.elim
  · have hset : act ≠ .setConnected false := by
      rintro rfl
      exact hact
    exact (h.exec_adapter (ne_closeRequest hassumed.1) hact.preserves (fun _ _ _ => hset) hexec).1

/-- On a connection, messages may be sent and received. -/
theorem keeps_backed (hpreserves : act.Preserves) (hset : act ≠ .setConnected false) :
    (connectionContract reuse).Keeps (fun s => Agreed none s ∧ Backed x s) (.adapter x act) := by
  rintro s ⟨h, hbacked⟩
  refine ⟨fun y heq => ?_, fun e answer s' hassumed hexec => ?_⟩
  · cases heq
    exact hbacked
  · have hrequest := ne_closeRequest hassumed.1
    refine ⟨(h.exec_adapter hrequest hpreserves (fun _ _ _ => hset) hexec).1, ?_⟩
    have hsteady : ∀ y b, SocketAct.adapter x act = .adapter y b →
        b ≠ .closeRequest ∧ b.Preserves := by
      rintro _ _ ⟨⟩
      exact ⟨hrequest, hpreserves⟩
    have hown : (SocketAct.adapter x act).Preserves x := fun _ => hpreserves
    refine hbacked.exec (fun a hlinked => hlinked.not_closed h.separate hown hsteady) hown ?_ hexec
    rintro ⟨⟩
    exact hset rfl

end Connections

end SensorLib
