import SensorLib.Socket.PeerSafety
import SensorLib.Socket.Pinned

/-! # The calls keep track of devices -/

namespace SensorLib

open Threads Peers

/-- The calls that make, use and destroy handles, on links of a supported type. -/
def Call.OnPeers : Call → Prop
  | .bratislavaSocket link | .bratislavaLinkSend link | .bratislavaLinkRecv link => link.Supported
  | .bratislavaConn _ | .bratislavaDestroy _ => True
  | _ => False

namespace Peers

variable {reuse : Bool} {f : Call} {h : Locks} {g : Insight} {x : SocketPtr}
  {z : Option (SocketPtr × BratislavaLink)} {α : Type}

/-- Nothing is under way, and no handle is known. -/
structure Quiet (z : Option (SocketPtr × BratislavaLink)) (g : Insight) : Prop where
  stage : g.stage = .idle
  known : g.known = none
  answer : g.answer = z

/-- Nothing is under way, and a handle is known to be registered. -/
structure At (x : SocketPtr) (z : Option (SocketPtr × BratislavaLink)) (g : Insight) : Prop where
  stage : g.stage = .idle
  known : g.known = some x
  answer : g.answer = z

/-! ## Scopes -/

theorem unlocked_eq {l : Mutex} {m : Mode} (hl : l ≠ .bsockCreation)
    (hj : ∀ y, g.known = some y → Justified (h.erase (l, m)) y) : unlocked h g l m = g := by
  have hknown : (g.known.filter fun y => decide (Justified (h.erase (l, m)) y)) = g.known := by
    cases hk : g.known with
    | none => rfl
    | some y => rw [Option.filter_some, if_pos (decide_eq_true (hj y hk))]
  unfold unlocked
  rw [hknown, if_neg hl, if_neg hl]

theorem locked_of_ne {l : Mutex} (hl : l ≠ .bsockCreation) : Peers.locked f g l = g := by
  unfold Peers.locked
  split
  · exact absurd rfl hl
  · rfl

theorem obeys_scope {l : Mutex} {m : Mode} {p : Program α} {Q : α → Locks → Insight → Prop}
    (hl : l ≠ .bsockCreation)
    (hp : (peerDiscipline reuse).Obeys f p ((l, m) :: h) g fun a h' g' =>
      (l, m) ∈ h' ∧ g'.stage.MayUnlock l ∧ Q a (h'.erase (l, m)) (unlocked h' g' l m)) :
    (peerDiscipline reuse).Obeys f (SensorLib.locked l m p) h g Q := by
  refine Discipline.obeys_locked.mpr ⟨fun heq => absurd heq hl, ?_⟩
  show (peerDiscipline reuse).Obeys f p _ (Peers.locked f g l) _
  rw [locked_of_ne hl]
  exact hp

/-- A scope that leaves the locks as they were, and that no knowledge depends on. -/
theorem obeys_inner {l : Mutex} {m : Mode} {p : Program α} {Q : α → Locks → Insight → Prop}
    (hl : l ≠ .bsockCreation)
    (hp : (peerDiscipline reuse).Obeys f p ((l, m) :: h) g fun a h' g' =>
      h' = (l, m) :: h ∧ g'.stage.MayUnlock l ∧ (∀ y, g'.known = some y → Justified h y) ∧
        Q a h g') :
    (peerDiscipline reuse).Obeys f (SensorLib.locked l m p) h g Q := by
  refine obeys_scope hl (hp.mono ?_)
  rintro a _ g' ⟨rfl, hmay, hj, hQ⟩
  refine ⟨List.mem_cons_self, hmay, ?_⟩
  rw [List.erase_cons_head, unlocked_eq hl (by rwa [List.erase_cons_head])]
  exact hQ

theorem mayUnlock_idle {l : Mutex} (hidle : g.stage = .idle) : g.stage.MayUnlock l := by
  rw [hidle]
  trivial

theorem At.justified (hg : At x z g) (hj : Justified h x) :
    ∀ y, g.known = some y → Justified h y := by
  intro y hy
  cases hg.known.symm.trans hy
  exact hj

/-- The handle is forgotten with the last lock that justifies it. -/
theorem At.unlocked (hg : At x z g) {l : Mutex} {m : Mode} (hl : l ≠ .bsockCreation)
    (hj : ¬ Justified (h.erase (l, m)) x) : Quiet z (Peers.unlocked h g l m) where
  stage := (if_neg hl).trans hg.stage
  known := by
    show g.known.filter _ = none
    rw [hg.known, Option.filter_some, if_neg (by simp [hj])]
  answer := (if_neg hl).trans hg.answer

/-- A scope around work on a known handle. -/
theorem remains_locked {l : Mutex} {m : Mode} {p : Program α} (hl : l ≠ .bsockCreation)
    (hj : Justified h x) (hp : (peerDiscipline reuse).Remains f (At x z) p ((l, m) :: h)) :
    (peerDiscipline reuse).Remains f (At x z) (SensorLib.locked l m p) h := by
  refine fun g hg => obeys_inner hl ((hp g hg).mono ?_)
  rintro a h' g' ⟨rfl, hg'⟩
  exact ⟨rfl, mayUnlock_idle hg'.stage, hg'.justified hj, rfl, hg'⟩

/-! ## Methods of the registry on a known handle -/

/-- A config that is found is the one of the handle. -/
def Finds (reuse : Bool) (f : Call) (x : SocketPtr) (z : Option (SocketPtr × BratislavaLink))
    (get : Program (Option BratislavaSocketConfig)) (h : Locks) (g : Insight) : Prop :=
  (peerDiscipline reuse).Obeys f get h g fun found h' g' => h' = h ∧ At x z g' ∧
    ∀ c, found = some c → c.socket = some x ∧ g'.device = some c.deviceId

theorem At.lookedUp (hg : At x z g) (found : Option BratislavaSocketConfig) (id : String) :
    acted g (.getConfigId id) found = g := by
  obtain ⟨stage, known, device, wifi, answer⟩ := g
  obtain ⟨rfl, -, -⟩ := hg
  rfl

theorem finds_getConfigSocket (hj : Justified h x) (hg : At x z g) :
    Finds reuse f x z (Registry.getConfigSocket x) h g := by
  refine obeys_inner (by simp) ⟨trivial, fun found hfound => ?_⟩
  cases found with
  | none => exact ⟨rfl, mayUnlock_idle hg.stage, hg.justified hj, rfl, hg, fun c hc => by cases hc⟩
  | some c =>
    have hacted : (peerDiscipline reuse).acted ((.sharedConfig, .shared) :: h) g
        (.getConfigSocket x) (some c) = { g with device := some c.deviceId } := if_pos hg.known
    rw [hacted]
    have hg' : At x z { g with device := some c.deviceId } := ⟨hg.stage, hg.known, hg.answer⟩
    refine ⟨rfl, mayUnlock_idle hg.stage, hg'.justified hj, rfl, hg', ?_⟩
    rintro c' ⟨⟩
    exact ⟨hfound c rfl, rfl⟩

theorem finds_getConfigId (hj : Justified h x) (hg : At x z g) {id : String}
    (hid : g.device = some id) : Finds reuse f x z (Registry.getConfigId id) h g := by
  refine obeys_inner (by simp) ⟨trivial, fun found hfound => ?_⟩
  have hacted : (peerDiscipline reuse).acted ((.sharedConfig, .shared) :: h) g (.getConfigId id)
      found = g := hg.lookedUp found id
  rw [hacted]
  refine ⟨rfl, mayUnlock_idle hg.stage, hg.justified hj, rfl, hg, fun c hc => ?_⟩
  obtain ⟨hsocket, hdevice⟩ := hfound.1 x hg.known hid c hc
  exact ⟨hsocket, hdevice ▸ hid⟩

theorem remains_getConfigId (hj : Justified h x) (id : String) :
    (peerDiscipline reuse).Remains f (At x z) (Registry.getConfigId id) h := by
  refine remains_locked (by simp) hj fun g hg => ⟨trivial, fun found _ => ⟨rfl, ?_⟩⟩
  show At x z (acted g (.getConfigId id) found)
  rw [hg.lookedUp]
  exact hg

theorem obeys_modifyConfig {get : Program (Option BratislavaSocketConfig)}
    {change : BratislavaSocketConfig → BratislavaSocketConfig} (hj : Justified h x)
    (hget : Finds reuse f x z get h g)
    (hchange : ∀ c, (change c).socket = c.socket ∧ (change c).deviceId = c.deviceId) :
    (peerDiscipline reuse).Obeys f (Registry.modifyConfig get change) h g fun _ h' g' =>
      h' = h ∧ At x z g' := by
  refine Discipline.Obeys.bind hget ?_
  rintro found _ g' ⟨rfl, hg', hfound⟩
  cases found with
  | none => exact ⟨rfl, hg'⟩
  | some c =>
    obtain ⟨hsocket, hdevice⟩ := hfound c rfl
    refine obeys_inner (by simp) ⟨⟨x, hg'.known, ?_, ?_⟩, fun _ _ => ?_⟩
    · rw [(hchange c).1, hsocket]
    · rw [(hchange c).2, hdevice]
    · exact ⟨rfl, mayUnlock_idle hg'.stage, hg'.justified hj, rfl, hg'⟩

theorem remains_setter {change : BratislavaSocketConfig → BratislavaSocketConfig}
    (hj : Justified h x)
    (hchange : ∀ c, (change c).socket = c.socket ∧ (change c).deviceId = c.deviceId) :
    (peerDiscipline reuse).Remains f (At x z) (SensorLib.locked .sharedRegistry .exclusive
      (Registry.modifyConfig (Registry.getConfigSocket x) change)) h :=
  remains_locked (by simp) hj fun _ hg =>
    obeys_modifyConfig hj.cons (finds_getConfigSocket hj.cons hg) hchange

theorem remains_disconnectSocket (hj : Justified h x) :
    (peerDiscipline reuse).Remains f (At x z) (Registry.disconnectSocket x) h :=
  remains_setter hj fun _ => ⟨rfl, rfl⟩

theorem remains_readConfig {get : Program (Option BratislavaSocketConfig)} {default : α}
    {field : BratislavaSocketConfig → α}
    (hget : (peerDiscipline reuse).Remains f (At x z) get h) :
    (peerDiscipline reuse).Remains f (At x z) (Registry.readConfig get default field) h := by
  refine fun g hg => hget.bind hg fun found g' hg' => ?_
  cases found <;> exact ⟨rfl, hg'⟩

theorem remains_isConnectedSocket (hj : Justified h x) :
    (peerDiscipline reuse).Remains f (At x z) (Registry.isConnectedSocket x) h := by
  refine remains_locked (by simp) hj (remains_readConfig fun g hg => ?_)
  exact (finds_getConfigSocket hj.cons hg).mono fun _ _ _ hpost => ⟨hpost.1, hpost.2.1⟩

theorem remains_getPort (hj : Justified h x) (id : String)
    (field : BratislavaSocketConfig → Int) :
    (peerDiscipline reuse).Remains f (At x z) (SensorLib.locked .sharedRegistry .shared
      (Registry.readConfig (Registry.getConfigId id) (-1) field)) h :=
  remains_locked (by simp) hj (remains_readConfig (remains_getConfigId hj.cons id))

theorem obeys_addLocalPort (hj : Justified h x) (hg : At x z g) {id : String}
    (hid : g.device = some id) :
    (peerDiscipline reuse).Obeys f (Registry.addLocalPort id) h g fun _ h' g' =>
      h' = h ∧ At x z g' := by
  refine obeys_inner (by simp) ?_
  have hend (g' : Insight) (hg' : At x z g') : g'.stage.MayUnlock .sharedRegistry ∧
      (∀ y, g'.known = some y → Justified h y) ∧ h = h ∧ At x z g' :=
    ⟨mayUnlock_idle hg'.stage, hg'.justified hj, rfl, hg'⟩
  refine Discipline.obeys_bind.mpr (obeys_inner (by simp) ⟨trivial, fun port _ => ?_⟩)
  refine ⟨rfl, mayUnlock_idle hg.stage, hg.justified hj.cons, ?_⟩
  split
  · have hmodify : (peerDiscipline reuse).Obeys f
        (Registry.modifyConfig (Registry.getConfigId id) fun config =>
          { config with localPort := port }) ((.sharedRegistry, .exclusive) :: h) g
        fun _ h' g' => h' = (.sharedRegistry, .exclusive) :: h ∧ At x z g' :=
      obeys_modifyConfig hj.cons (finds_getConfigId hj.cons hg hid) fun _ => ⟨rfl, rfl⟩
    refine hmodify.mono ?_
    rintro _ _ g' ⟨rfl, hg'⟩
    exact ⟨rfl, hend g' hg'⟩
  · exact ⟨rfl, hend g hg⟩

theorem remains_releaseLocalPortSocket (hj : Justified h x) :
    (peerDiscipline reuse).Remains f (At x z) (Registry.releaseLocalPortSocket x) h := by
  refine remains_locked (by simp) hj fun g hg => ?_
  refine Discipline.Obeys.bind (finds_getConfigSocket hj.cons hg) ?_
  rintro found _ g' ⟨rfl, hg', -⟩
  cases found with
  | none => exact ⟨rfl, hg'⟩
  | some c =>
    show (peerDiscipline reuse).Obeys f (if c.localPort = -1 then _ else _) _ _ _
    split
    · exact ⟨rfl, hg'⟩
    · have hrelease : (peerDiscipline reuse).Remains f (At x z)
          (Registry.releaseLocalPort c.localPort) ((.sharedRegistry, .exclusive) :: h) :=
        remains_locked (by simp) hj.cons fun _ hg => ⟨trivial, fun _ _ => ⟨rfl, hg⟩⟩
      exact hrelease g' hg'

/-! ## Work on a pinned handle -/

theorem remains_only {p : Program α} (hp : p.Only (Handles.Uses h x)) :
    (peerDiscipline reuse).Remains f (At x z) p h := by
  refine Discipline.remains_only (fun a ha g hg => ?_) hp
  cases a with
  | adapter y act =>
    refine ⟨trivial, fun answer _ => ?_⟩
    cases act with
    | kind =>
      cases answer with
      | bluetooth => exact hg
      | wifi d =>
        show At x z (if g.known = some y then _ else g)
        split
        · exact ⟨hg.stage, hg.known, hg.answer⟩
        · exact hg
    | _ => exact hg
  | turn => exact ⟨trivial, fun _ _ => hg⟩
  | _ => exact ha.elim

/-- Everything but the port that a connection adds for its device. -/
theorem remains_built (hj : Justified h x) {p : Program α}
    (hp : p.Built (Handles.PinnedBlock (Handles.MayUse h x) x fun _ => False)) :
    (peerDiscipline reuse).Remains f (At x z) p h := by
  refine Discipline.remains_built (fun β q hq => ?_) hp
  cases hq with
  | only hq => exact remains_only hq
  | readLink =>
    refine fun g hg => ⟨trivial, fun link _ => ⟨rfl, ?_⟩⟩
    show At x z (if g.known = some x then _ else g)
    split
    · exact ⟨hg.stage, hg.known, hg.answer⟩
    · exact hg
  | hasAdapter => exact fun g hg => ⟨trivial, fun _ _ => ⟨rfl, hg⟩⟩
  | connect => exact remains_setter hj fun _ => ⟨rfl, rfl⟩
  | disconnect => exact remains_disconnectSocket hj
  | isConnected => exact remains_isConnectedSocket hj
  | getRemotePort id => exact remains_getPort hj id _
  | getLocalPort id => exact remains_getPort hj id _
  | addLocalPort id hid => exact hid.elim

/-- A Wi-Fi connection adds a port under the device of its handle. -/
theorem remains_conn (hpin : (.sharedBsock x, .exclusive) ∈ h) :
    (peerDiscipline reuse).Remains f (At x z) (BaseAdapter.conn x) h := by
  have hj : Justified h x := Or.inr (Or.inr (mem_lockNames_of_mem hpin))
  have huse : ∀ a : AdapterAct, a.Connects → Handles.MayUse h x a := fun a _ =>
    Handles.mayUse_of_pin hpin a
  refine fun g hg => ⟨trivial, fun kind _ => ?_⟩
  cases kind with
  | bluetooth isListener =>
    exact remains_built hj (Handles.built_bluetoothConn huse isListener) g hg
  | wifi deviceType =>
    have hwifi : (peerDiscipline reuse).acted h g (.adapter x .kind) (.wifi deviceType) =
        { g with wifi := true } := if_pos hg.known
    rw [hwifi]
    refine ⟨trivial, fun _ _ => ⟨trivial, fun link hlink => ?_⟩⟩
    have htype : link.instrumentType = .wifi := hlink.2 hg.known rfl
    have hdevice : getDeviceID link = link.wifiDeviceInfo.macAddress := by
      simp only [getDeviceID, htype]
    have hread : acted { g with wifi := true } (.readLink x) link =
        { g with wifi := true, device := some link.wifiDeviceInfo.macAddress } := by
      show (if g.known = some x then _ else _) = _
      rw [if_pos hg.known, hdevice]
    show (peerDiscipline reuse).Obeys f _ h (acted { g with wifi := true } (.readLink x) link) _
    rw [hread]
    have hg' : At x z { g with wifi := true, device := some link.wifiDeviceInfo.macAddress } :=
      ⟨hg.stage, hg.known, hg.answer⟩
    cases deviceType with
    | router => exact remains_built hj (Handles.built_listening huse _) _ hg'
    | unknown => exact remains_built hj (Handles.built_finishConn huse) _ hg'
    | adapter =>
      refine Discipline.Obeys.bind (p := Registry.addLocalPort link.wifiDeviceInfo.macAddress)
        (obeys_addLocalPort hj hg' rfl) ?_
      rintro _ _ g'' ⟨rfl, hg''⟩
      exact remains_built hj (Handles.built_requesting huse _) g'' hg''

theorem remains_connPinned (hpin : (.sharedBsock x, .exclusive) ∈ h) :
    (peerDiscipline reuse).Remains f (At x z) (connPinned x) h := by
  have hj : Justified h x := Or.inr (Or.inr (mem_lockNames_of_mem hpin))
  refine fun g hg => (remains_isConnectedSocket hj).bind hg fun connected g' hg' => ?_
  cases connected with
  | true => exact ⟨rfl, hg'⟩
  | false => exact (remains_conn hpin).bind hg' fun _ g'' hg'' => ⟨rfl, hg''⟩

/-! ## Pins -/

/-- `Exists(bsock)` under the global deletion lock. -/
theorem obeys_existsSocket {Q : Bool → Locks → Insight → Prop}
    (hdel : .bsockDeletion ∈ lockNames h) (hidle : g.stage = .idle)
    (hfound : Q true h { g with known := some x, device := none, wifi := false })
    (hmissed : Q false h g) :
    (peerDiscipline reuse).Obeys f (Registry.existsSocket x) h g Q := by
  refine obeys_inner (by simp) ⟨⟨List.mem_cons_self, hidle⟩, fun found _ => ?_⟩
  cases found with
  | true => exact ⟨rfl, mayUnlock_idle hidle, fun _ _ => Or.inl hdel, hfound⟩
  | false => exact ⟨rfl, mayUnlock_idle hidle, fun _ _ => Or.inl hdel, hmissed⟩

theorem remains_withPin {m : Mode} {body : Program Status}
    (hbody : (peerDiscipline reuse).Remains f (At x z) body [(.sharedBsock x, m)]) :
    (peerDiscipline reuse).Remains f (Quiet z) (withPin m x body) [] := by
  refine fun g hg => Discipline.obeys_bind.mpr (obeys_scope (by simp) ?_)
  refine Discipline.obeys_bind.mpr (obeys_existsSocket (by simp) hg.stage ?_ ?_)
  · refine ⟨by simp, ?_⟩
    have hg₁ : At x z { g with known := some x, device := none, wifi := false } :=
      ⟨hg.stage, rfl, hg.answer⟩
    refine ⟨by simp, mayUnlock_idle hg.stage, ?_⟩
    have herase : List.erase [(Mutex.sharedBsock x, m), (.bsockDeletion, .shared)]
        (.bsockDeletion, .shared) = [(.sharedBsock x, m)] := by simp
    have hjust : Justified (List.erase [(Mutex.sharedBsock x, m), (.bsockDeletion, .shared)]
        (.bsockDeletion, .shared)) x := by
      rw [herase]
      exact Or.inr (Or.inr (by simp))
    show (peerDiscipline reuse).Obeys f _ _
      (Peers.unlocked _ { g with known := some x, device := none, wifi := false } _ _) _
    rw [unlocked_eq (by simp) (hg₁.justified hjust), herase]
    refine hbody.bind hg₁ fun status g' hg' => ?_
    exact ⟨by simp, mayUnlock_idle hg'.stage, by simp, hg'.unlocked (by simp) (by simp [Justified])⟩
  · refine ⟨by simp, mayUnlock_idle hg.stage, ?_⟩
    rw [unlocked_eq (by simp) (by simp [hg.known])]
    exact ⟨rfl, hg⟩

theorem remains_bratislavaConn (bsock : Option SocketPtr) :
    (peerDiscipline reuse).Remains f (Quiet z) (bratislavaConn bsock) [] := by
  cases bsock with
  | none => exact fun g hg => ⟨rfl, hg⟩
  | some x => exact remains_withPin (remains_connPinned (by simp))

/-! ## `bratislavaSocket` -/

theorem acted_lookedUp {id : String} {found : Option BratislavaSocketConfig} :
    (peerDiscipline reuse).acted h g (.getConfigId id) found =
      { g with stage := lookedUp found id g.stage } := rfl

section Creating

variable {link : BratislavaLink} (hknown : g.known = none)

include hknown

/-- The first lookup settles whether there is a socket. -/
theorem obeys_existsId {Q : Bool → Locks → Insight → Prop}
    (hstage : g.stage = .resolving link)
    (hnamed : ∀ x, Q true h { g with stage := .named x link })
    (hvacant : Q false h { g with stage := .vacant link }) :
    (peerDiscipline reuse).Obeys f (Registry.existsId link.linkID) h g Q := by
  refine obeys_inner (by simp) (Discipline.obeys_bind.mpr (obeys_inner (by simp) ?_))
  refine ⟨trivial, fun found _ => ?_⟩
  rw [acted_lookedUp, hstage]
  cases found with
  | none =>
    have hlooked : lookedUp none link.linkID (.resolving link) = .vacant link := by
      simp [lookedUp]
    rw [hlooked]
    exact ⟨rfl, by simp [Stage.MayUnlock], by simp [hknown], rfl, by simp [Stage.MayUnlock],
      by simp [hknown], hvacant⟩
  | some c =>
    cases hsocket : c.socket with
    | none =>
      have hlooked : lookedUp (some c) link.linkID (.resolving link) = .vacant link := by
        simp [lookedUp, hsocket]
      rw [hlooked]
      refine ⟨rfl, by simp [Stage.MayUnlock], by simp [hknown], rfl, by simp [Stage.MayUnlock],
        by simp [hknown], ?_⟩
      rw [hsocket]
      exact hvacant
    | some x =>
      have hlooked : lookedUp (some c) link.linkID (.resolving link) = .named x link := by
        simp [lookedUp, hsocket]
      rw [hlooked]
      refine ⟨rfl, by simp [Stage.MayUnlock], by simp [hknown], rfl, by simp [Stage.MayUnlock],
        by simp [hknown], ?_⟩
      rw [hsocket]
      exact hnamed x

/-- The second lookup finds the same socket. -/
theorem obeys_getNamed {Q : Option BratislavaSocketConfig → Locks → Insight → Prop}
    (hstage : g.stage = .named x link)
    (hQ : ∀ c, c.socket = some x → Q (some c) h { g with stage := .settled x link }) :
    (peerDiscipline reuse).Obeys f (Registry.getConfigId link.linkID) h g Q := by
  refine obeys_inner (by simp) ⟨trivial, fun found hfound => ?_⟩
  obtain ⟨c, rfl, hsocket⟩ := hfound.2 x link hstage rfl
  have hlooked : lookedUp (some c) link.linkID (.named x link) = .settled x link := if_pos rfl
  rw [acted_lookedUp, hstage, hlooked]
  exact ⟨rfl, trivial, by simp [hknown], hQ c hsocket⟩

theorem obeys_add {Q : Unit → Locks → Insight → Prop} (hstage : g.stage = .made x link)
    (hQ : Q () h { g with stage := .settled x link }) :
    (peerDiscipline reuse).Obeys f (Registry.add x) h g Q := by
  refine obeys_inner (by simp) (Discipline.obeys_bind.mpr ⟨trivial, fun link' hlink => ?_⟩)
  cases hlink.1 link hstage
  have hread : (peerDiscipline reuse).acted ((.recursive, .exclusive) :: h) g (.readLink x) link =
      g := by
    show (if g.known = some x then _ else g) = g
    rw [if_neg (by simp [hknown])]
  rw [hread]
  refine obeys_inner (by simp) ⟨⟨hstage, by simp⟩, fun _ _ => ?_⟩
  refine ⟨rfl, rfl, by simp [acted, hknown], ⟨link, rfl⟩, fun _ _ => ?_⟩
  exact ⟨rfl, trivial, by simp [acted, hknown], hQ⟩

end Creating

theorem obeys_bratislavaSocket {link : BratislavaLink} (hf : f.link = some link)
    (hlink : link.Supported) (hg : Quiet z g) :
    (peerDiscipline reuse).Obeys f (bratislavaSocket link) [] g fun bsock h' g' =>
      h' = [] ∧ ∃ x, bsock = some x ∧ Quiet (some (x, link)) g' := by
  refine obeys_scope (by simp) (Discipline.obeys_locked.mpr ⟨fun _ => ⟨rfl, hg.stage⟩, ?_⟩)
  have hlocked : Peers.locked f g .bsockCreation = { g with stage := .resolving link } := by
    simp only [Peers.locked, hf]
  show (peerDiscipline reuse).Obeys f _ _ (Peers.locked f g .bsockCreation) _
  rw [hlocked]
  -- The socket is settled when the creation lock is released.
  have hend (x : SocketPtr) (bsock : Option SocketPtr) (hbsock : bsock = some x) :
      (Mutex.bsockCreation, Mode.exclusive) ∈
          [(Mutex.bsockCreation, Mode.exclusive), (.bsockDeletion, .shared)] ∧
        (Stage.settled x link).MayUnlock .bsockCreation ∧
        (.bsockDeletion, .shared) ∈ List.erase
          [(Mutex.bsockCreation, Mode.exclusive), (.bsockDeletion, .shared)]
          (.bsockCreation, .exclusive) ∧
        (unlocked [(.bsockCreation, .exclusive), (.bsockDeletion, .shared)]
          { g with stage := .settled x link } .bsockCreation .exclusive).stage.MayUnlock
          .bsockDeletion ∧
        (List.erase (List.erase [(Mutex.bsockCreation, Mode.exclusive), (.bsockDeletion, .shared)]
          (.bsockCreation, .exclusive)) (.bsockDeletion, .shared)) = [] ∧
        ∃ y, bsock = some y ∧ Quiet (some (y, link))
          (unlocked (List.erase [(Mutex.bsockCreation, Mode.exclusive), (.bsockDeletion, .shared)]
              (.bsockCreation, .exclusive))
            (unlocked [(.bsockCreation, .exclusive), (.bsockDeletion, .shared)]
              { g with stage := .settled x link } .bsockCreation .exclusive)
            .bsockDeletion .shared) := by
    refine ⟨by simp, trivial, by simp, trivial, by simp, x, hbsock, ?_⟩
    exact ⟨by simp [unlocked], by simp [unlocked, hg.known], by simp [unlocked, Stage.answer]⟩
  have hknown (stage : Stage) : ({ g with stage } : Insight).known = none := hg.known
  refine Discipline.obeys_bind.mpr (obeys_existsId (hknown _) rfl (fun x => ?_) ?_)
  · refine Discipline.obeys_bind.mpr (obeys_getNamed (hknown _) rfl fun c hc => ?_)
    exact hend x c.socket hc
  · refine ⟨⟨rfl, hlink⟩, fun bsock hbsock => ?_⟩
    obtain ⟨x, rfl⟩ := Option.isSome_iff_exists.mp hbsock
    refine (Discipline.obeys_bind (p := Registry.add x)
      (q := fun _ => Prog.pure (some x))).mpr (obeys_add (hknown _) rfl ?_)
    exact hend x (some x) rfl

theorem obeys_onLink {link : BratislavaLink} {transfer : SocketPtr → Program Status}
    (hf : f.link = some link) (hlink : link.Supported) (hg : Quiet z g)
    (htransfer : ∀ x, (transfer x).Built
      (Handles.PinnedBlock (Handles.MayUse [(.sharedBsock x, .shared)] x) x fun _ => False)) :
    (peerDiscipline reuse).Obeys f (onLink link transfer) [] g fun _ h' _ => h' = [] := by
  refine Discipline.Obeys.bind (obeys_bratislavaSocket hf hlink hg) ?_
  rintro _ _ g' ⟨rfl, x, rfl, hg'⟩
  refine (remains_bratislavaConn (some x)).bind hg' fun status g'' hg'' => ?_
  show (peerDiscipline reuse).Obeys f (if status.value ≠ 0 then _ else _) [] g'' _
  split
  · exact rfl
  · have hwork : (peerDiscipline reuse).Remains f (At x (some (x, link)))
        (withAdapter x (transfer x)) [(.sharedBsock x, .shared)] :=
      remains_built (Or.inr (Or.inr (by simp))) (Handles.built_withAdapter (htransfer x))
    exact (remains_withPin hwork g'' hg'').mono fun _ _ _ hpost => hpost.1

/-! ## `bratislavaDestroy` -/

theorem obeys_interruptIfExists {Q : Bool → Locks → Insight → Prop} (hg : Quiet z g)
    (hQ : ∀ found g', Quiet z g' → Q found [] g') :
    (peerDiscipline reuse).Obeys f (interruptIfExists x) [] g Q := by
  refine obeys_scope (by simp) ?_
  refine Discipline.obeys_bind.mpr (obeys_existsSocket (by simp) hg.stage ?_ ?_)
  · have hg₁ : At x z { g with known := some x, device := none, wifi := false } :=
      ⟨hg.stage, rfl, hg.answer⟩
    refine (remains_only Handles.only_interrupt).bind hg₁ fun _ g' hg' => ?_
    refine ⟨by simp, mayUnlock_idle hg'.stage, ?_⟩
    rw [List.erase_cons_head]
    exact hQ true _ (hg'.unlocked (by simp) (by simp [Justified]))
  · refine ⟨by simp, mayUnlock_idle hg.stage, ?_⟩
    rw [List.erase_cons_head, unlocked_eq (by simp) (by simp [hg.known])]
    exact hQ false g hg

/-- The locks of a destroyer. -/
def destroyer (x : SocketPtr) : Locks :=
  [(.bsockCreation, .exclusive), (.sharedBsock x, .exclusive), (.bsockDeletion, .exclusive)]

theorem obeys_remove {Q : Bool → Locks → Insight → Prop} (hg : At x z g)
    (hfound : ∀ g', g'.stage = .removed x → g'.known = none → Q true (destroyer x) g')
    (hmissed : ∀ g', g'.stage = .idle → Q false (destroyer x) g') :
    (peerDiscipline reuse).Obeys f (Registry.remove x) (destroyer x) g Q := by
  have hj : Justified ((.recursive, .exclusive) :: destroyer x) x :=
    Or.inl (by simp [destroyer])
  have hdel {y : SocketPtr} : Justified (destroyer x) y := Or.inl (by simp [destroyer])
  refine obeys_inner (by simp) ⟨⟨by simp, hg.stage⟩, fun found _ => ?_⟩
  cases found with
  | false => exact ⟨rfl, mayUnlock_idle hg.stage, fun _ _ => hdel, hmissed _ hg.stage⟩
  | true =>
    have hg₁ : At x z { g with known := some x, device := none, wifi := false } :=
      ⟨hg.stage, rfl, hg.answer⟩
    refine (remains_releaseLocalPortSocket hj).bind hg₁ fun _ g₂ hg₂ => ?_
    refine (remains_disconnectSocket hj).bind hg₂ fun _ g₃ hg₃ => ?_
    refine Discipline.obeys_bind.mpr (obeys_inner (by simp) ⟨?_, fun _ _ => ?_⟩)
    · exact ⟨hg₃.stage, hg₃.known, by simp [destroyer], by simp, by simp [destroyer],
        by simp [destroyer]⟩
    · refine ⟨rfl, rfl, fun y hy => (by cases hy), rfl, fun _ _ => ?_⟩
      exact ⟨rfl, by simp [acted, Stage.MayUnlock], fun y hy => (by cases hy),
        hfound _ rfl rfl⟩

theorem obeys_destroyLocked (hg : Quiet z g) :
    (peerDiscipline reuse).Obeys f (destroyLocked x) (destroyer x) g fun _ h' _ => h' = [] := by
  have hleave (g' : Insight) (hidle : g'.stage = .idle) :
      (peerDiscipline reuse).Obeys f (do
        SensorLib.unlock .bsockCreation .exclusive
        SensorLib.unlock (.sharedBsock x) .exclusive
        SensorLib.unlock .bsockDeletion .exclusive
        pure ⟨-1, some .EIDRM⟩ : Program Status) (destroyer x) g' fun _ h' _ => h' = [] := by
    refine ⟨by simp [destroyer], mayUnlock_idle hidle, by simp [destroyer], trivial, ?_⟩
    refine ⟨by simp [destroyer], trivial, ?_⟩
    show List.erase _ _ = []
    simp [destroyer]
  refine Discipline.obeys_bind.mpr (obeys_existsSocket (by simp [destroyer]) hg.stage ?_ ?_)
  · have hg₁ : At x z { g with known := some x, device := none, wifi := false } :=
      ⟨hg.stage, rfl, hg.answer⟩
    refine Discipline.obeys_bind.mpr (obeys_remove hg₁ (fun g' hstage hknown => ?_) fun g' hidle => ?_)
    · refine ⟨hstage, fun _ _ => ⟨by simp [destroyer], ?_, ?_⟩⟩
      · show g'.stage.MayUnlock _
        rw [hstage]
        simp [Stage.MayUnlock]
      · refine ⟨?_, fun _ _ => ⟨by simp [destroyer], trivial, by simp [destroyer], trivial, ?_⟩⟩
        · show (if Mutex.sharedBsock x = .bsockCreation then Stage.idle else g'.stage) = .removed x
          rw [if_neg (by simp), hstage]
        · show List.erase _ _ = []
          simp [destroyer]
    · exact hleave g' hidle
  · exact hleave g hg.stage

theorem obeys_bratislavaDestroy (hf : f.link = none) (bsock : Option SocketPtr) (hg : Quiet z g) :
    (peerDiscipline reuse).Obeys f (bratislavaDestroy bsock) [] g fun _ h' _ => h' = [] := by
  cases bsock with
  | none => exact rfl
  | some x =>
    refine Discipline.obeys_bind.mpr (obeys_interruptIfExists hg fun found g' hg' => ?_)
    cases found with
    | false => exact rfl
    | true =>
      refine ⟨by simp, by simp, fun _ => ⟨rfl, hg'.stage⟩, ?_⟩
      have hlocked : Peers.locked f g' .bsockCreation = g' := by
        simp only [Peers.locked, hf]
      show (peerDiscipline reuse).Obeys f _ _ (Peers.locked f g' .bsockCreation) _
      rw [hlocked]
      exact obeys_destroyLocked hg'

/-! ## All calls -/

theorem peers_cover : (peerDiscipline reuse).Covers Call.OnPeers := by
  intro f s hf
  have hquiet : Quiet none {} := ⟨rfl, rfl, rfl⟩
  -- Only `bratislavaSocket` promises more than that every lock is released.
  have hother {p : Program Status} (hne : ∀ link, f ≠ .bratislavaSocket link)
      (hp : (peerDiscipline reuse).Obeys f p [] {} fun _ h' _ => h' = []) :
      (peerDiscipline reuse).Obeys f (p.bind fun a => .pure (.status a)) [] {}
        fun r h' g' => h' = [] ∧ Finished f r g' :=
    Discipline.Obeys.bind hp fun a h' g' hnil => ⟨hnil, fun link heq => absurd heq (hne link)⟩
  cases f with
  | bratislavaSocket link =>
    refine Discipline.Obeys.bind (obeys_bratislavaSocket rfl hf hquiet) ?_
    rintro _ _ g' ⟨rfl, x, rfl, hg'⟩
    refine ⟨rfl, ?_⟩
    rintro _ ⟨⟩
    exact ⟨x, hg'.answer, rfl⟩
  | bratislavaConn bsock =>
    exact hother (by simp) ((remains_bratislavaConn bsock _ hquiet).mono fun _ _ _ hpost => hpost.1)
  | bratislavaLinkSend link =>
    exact hother (by simp) (obeys_onLink rfl hf hquiet fun _ => Handles.built_send (by simp))
  | bratislavaLinkRecv link =>
    exact hother (by simp) (obeys_onLink rfl hf hquiet fun _ => Handles.built_recv (by simp))
  | bratislavaDestroy bsock => exact hother (by simp) (obeys_bratislavaDestroy rfl bsock hquiet)
  | _ => exact hf.elim

end Peers

end SensorLib
