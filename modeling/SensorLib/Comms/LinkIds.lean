import SensorLib.Comms.Destruction
import SensorLib.Comms.ScanRuns
import SensorLib.Threads.Kinds

/-! # The identities of links

The runtime keeps its links apart by their keys, and its users by `linkID`,
which is an address without its colons.
-/

namespace SensorLib.Comms

open Threads Runs CommsRuntime

/-! ## Addresses -/

def isHexDigit (c : Char) : Bool := c ∈ "0123456789ABCDEFabcdef".toList

/-- As many pairs of digits, with colons between them. -/
inductive DigitPairs : Nat → List Char → Prop
  | last {a b : Char} (ha : isHexDigit a) (hb : isHexDigit b) : DigitPairs 1 [a, b]
  | more {n : Nat} {a b : Char} {rest : List Char} (ha : isHexDigit a) (hb : isHexDigit b)
      (hrest : DigitPairs n rest) : DigitPairs (n + 1) (a :: b :: ':' :: rest)

def IsMacAddress (address : String) : Prop := DigitPairs 6 address.toList

theorem ne_colon {c : Char} (h : isHexDigit c) : c ≠ ':' := by
  rintro rfl
  exact absurd h (by decide)

namespace DigitPairs

variable {n : Nat} {address address' : List Char}

theorem filter_last {a b : Char} (ha : isHexDigit a) (hb : isHexDigit b) (rest : List Char) :
    (a :: b :: rest).filter (· ≠ ':') = a :: b :: rest.filter (· ≠ ':') := by
  rw [List.filter_cons_of_pos (by simpa using ne_colon ha),
    List.filter_cons_of_pos (by simpa using ne_colon hb)]

theorem filter_more {a b : Char} (ha : isHexDigit a) (hb : isHexDigit b) (rest : List Char) :
    (a :: b :: ':' :: rest).filter (· ≠ ':') = a :: b :: rest.filter (· ≠ ':') := by
  rw [filter_last ha hb, List.filter_cons_of_neg (by simp)]

theorem length_filter (h : DigitPairs n address) :
    (address.filter (· ≠ ':')).length = 2 * n := by
  induction h with
  | last ha hb =>
    rw [filter_last ha hb]
    rfl
  | more ha hb hrest ih =>
    rw [filter_more ha hb, List.length_cons, List.length_cons, ih]
    omega

theorem ne_zero (h : DigitPairs n address) : n ≠ 0 := by
  cases h <;> exact Nat.succ_ne_zero _

/-- The colons stand at the same places. -/
theorem filter_injective (h : DigitPairs n address) (h' : DigitPairs n address')
    (heq : address.filter (· ≠ ':') = address'.filter (· ≠ ':')) : address = address' := by
  induction h generalizing address' with
  | last ha hb =>
    cases h' with
    | last ha' hb' => rwa [filter_last ha hb, filter_last ha' hb'] at heq
    | more _ _ hrest' => exact absurd rfl hrest'.ne_zero
  | more ha hb hrest ih =>
    cases h' with
    | last => exact absurd rfl hrest.ne_zero
    | more ha' hb' hrest' =>
      rw [filter_more ha hb, filter_more ha' hb'] at heq
      obtain ⟨hfirst, heq⟩ := List.cons.inj heq
      obtain ⟨hsecond, heq⟩ := List.cons.inj heq
      rw [hfirst, hsecond, ih hrest' heq]

end DigitPairs

/-! ## Peers -/

namespace Peer

def macAddress : Peer → String
  | .bluetooth device => device.macAddress
  | .wifi candidate => candidate.device.macAddress

/-- What the linkID of a link to the peer begins with. -/
def kind : Peer → String
  | .bluetooth _ => "bt"
  | .wifi _ => "wifi"

def link (socketFd : Int) : Peer → ActiveLink
  | .bluetooth device => bluetoothLink device socketFd
  | .wifi candidate => wifiLink candidate socketFd

variable (peer : Peer)

/-- The linkID, if nothing of it is cut off. -/
def wholeId : List Char := peer.kind.toList ++ peer.macAddress.toList.filter (· ≠ ':')

theorem linkID_link (socketFd : Int) :
    (peer.link socketFd).link.linkID = makeLinkId peer.kind peer.macAddress := by
  cases peer <;> rfl

theorem key_link (socketFd : Int) : (peer.link socketFd).key = peer.kind ++ "|" ++ peer.macAddress := by
  cases peer <;> rfl

theorem devID_link (socketFd : Int) : (peer.link socketFd).link.devID = peer.macAddress := by
  cases peer <;> rfl

variable {peer} {peer' : Peer}

theorem length_wholeId (h : IsMacAddress peer.macAddress) : peer.wholeId.length ≤ 16 := by
  have hkind : peer.kind.toList.length ≤ 4 := by
    cases peer with
    | bluetooth => exact (by decide : "bt".toList.length ≤ 4)
    | wifi => exact (by decide : "wifi".toList.length ≤ 4)
  rw [wholeId, List.length_append, h.length_filter]
  omega

/-- Neither the cut to 19 characters nor that of the member of 20 bytes does anything. -/
theorem makeLinkId_eq (h : IsMacAddress peer.macAddress) :
    (makeLinkId peer.kind peer.macAddress).toList = peer.wholeId := by
  have hlength := length_wholeId h
  rw [makeLinkId, String.toList_ofList]
  exact List.take_of_length_le (hlength.trans (by decide))

theorem wholeId_injective (h : IsMacAddress peer.macAddress) (h' : IsMacAddress peer'.macAddress)
    (heq : peer.wholeId = peer'.wholeId) :
    peer.kind = peer'.kind ∧ peer.macAddress = peer'.macAddress := by
  have haddress : peer.macAddress.toList.filter (· ≠ ':') = peer'.macAddress.toList.filter (· ≠ ':') →
      peer.macAddress = peer'.macAddress :=
    fun heq => String.toList_inj.mp (h.filter_injective h' heq)
  have hbluetooth : "bt".toList = ['b', 't'] := by decide
  have hwifi : "wifi".toList = ['w', 'i', 'f', 'i'] := by decide
  simp only [wholeId] at heq
  cases peer with
  | bluetooth device =>
    cases peer' with
    | bluetooth device' => exact ⟨rfl, haddress (List.append_cancel_left heq)⟩
    | wifi candidate =>
      simp only [kind, hbluetooth, hwifi, List.cons_append] at heq
      exact absurd (List.cons.inj heq).1 (by decide)
  | wifi candidate =>
    cases peer' with
    | bluetooth device =>
      simp only [kind, hbluetooth, hwifi, List.cons_append] at heq
      exact absurd (List.cons.inj heq).1 (by decide)
    | wifi candidate' => exact ⟨rfl, haddress (List.append_cancel_left heq)⟩

end Peer

/-! ## The programs -/

namespace LinkIds

/-- The links that are published are those of handshakes. -/
def Fills : CommsAct → Prop
  | .method _ (.publish activeLink) => ∃ (peer : Peer) (socketFd : Int), activeLink = peer.link socketFd
  | _ => True

/-- A program that publishes no other links, with what its results are. -/
abbrev Filling {α : Type} (Q : α → Prop) (p : Program α) : Prop :=
  Prog.Within (S := commsSignature) Fills (fun _ _ => True) (fun _ => True) Q p

variable {this : RuntimePtr}

theorem filling_method {a : RuntimeAct} (ha : Fills (.method this a)) :
    Filling (fun _ => True) (method this a) := ⟨ha, fun _ _ => trivial⟩

theorem filling_attemptHandshake {address : String} (link : Int → ActiveLink) :
    Filling (fun r => ∀ activeLink ∈ r, ∃ socketFd, activeLink = link socketFd)
      (attemptHandshake this address link) := by
  have hgiveUp : ∀ fd, Filling (fun r => ∀ activeLink ∈ r, ∃ socketFd, activeLink = link socketFd)
      (giveUp this fd) := fun fd => ⟨trivial, fun _ _ _ hmem => by cases hmem⟩
  refine ⟨trivial, fun (fd : Int) _ => ?_⟩
  show Filling _ (if fd < 0 then _ else _)
  split
  · exact fun _ hmem => by cases hmem
  · refine ⟨trivial, fun ok _ => ?_⟩
    cases ok with
    | false => exact hgiveUp fd
    | true =>
      refine ⟨trivial, fun ok _ => ?_⟩
      cases ok with
      | false => exact hgiveUp fd
      | true =>
        refine ⟨trivial, fun ok _ => ?_⟩
        cases ok with
        | false => exact hgiveUp fd
        | true =>
          refine ⟨trivial, fun received _ => ?_⟩
          cases received with
          | none => exact hgiveUp fd
          | some buffer =>
            show Filling _ (if startsWithReplyPrefix buffer then _ else _)
            split
            · rintro _ ⟨⟩
              exact ⟨fd, rfl⟩
            · exact hgiveUp fd

theorem filling_tryPeer {shouldAttempt : Bool} {peer : Peer} :
    Filling (fun _ => True) (tryPeer this shouldAttempt peer) := by
  cases shouldAttempt with
  | false => trivial
  | true =>
    have hattempt : Filling (fun r => ∀ activeLink ∈ r, ∃ socketFd, activeLink = peer.link socketFd)
        (attempt this peer) := by
      cases peer with
      | bluetooth device => exact filling_attemptHandshake (bluetoothLink device)
      | wifi candidate => exact filling_attemptHandshake (wifiLink candidate)
    refine hattempt.bind fun r hr => ?_
    cases r with
    | none => trivial
    | some activeLink =>
      refine ⟨⟨peer, hr activeLink rfl⟩, fun callback _ => ?_⟩
      cases callback with
      | none => trivial
      | some callback => exact ⟨trivial, fun _ _ => trivial⟩

theorem filling_scanPeers (peers : List Peer) : Filling (fun _ => True) (scanPeers this peers) := by
  induction peers with
  | nil => trivial
  | cons peer peers ih =>
    refine ⟨trivial, fun x _ => ?_⟩
    have hannounce : Filling (fun _ => True) (announce this x.1 peer) := by
      cases x.1 with
      | none => trivial
      | some callback => exact ⟨trivial, fun _ _ => trivial⟩
    exact hannounce.bind fun _ _ => filling_tryPeer.bind fun _ _ => ih

theorem filling_scanOnce : Filling (fun _ => True) (scanOnce this) := by
  have hbluetooth : Filling (fun _ => True) (scanBluetoothLinks this) := by
    refine ⟨trivial, fun devices _ => ?_⟩
    cases devices with
    | none => trivial
    | some devices => exact filling_scanPeers _
  exact hbluetooth.bind fun _ _ => ⟨trivial, fun candidates _ => filling_scanPeers _⟩

theorem filling_runServer (worker : Worker) : Filling (fun _ => True) (runServer this worker) := by
  have hclose : Filling (fun _ => True) (method this (.closeServer worker)) := filling_method trivial
  have hlisten : Filling (fun _ => True) (listenServer this worker) := by
    cases worker with
    | bluetoothServer => exact ⟨trivial, fun _ _ => trivial⟩
    | udpServer | discovery => trivial
  refine ⟨trivial, fun opened _ => ?_⟩
  cases opened with
  | false => trivial
  | true =>
    refine ⟨trivial, fun bound _ => ?_⟩
    cases bound with
    | false => exact hclose
    | true =>
      refine hlisten.bind fun listening _ => ?_
      cases listening with
      | false => exact hclose
      | true => exact ⟨trivial, fun _ => hclose⟩

theorem filling_stop : Filling (fun _ => True) (stop this) := by
  have hjoin : ∀ workers, Filling (fun _ => True) (joinWorkers this workers) := by
    intro workers
    induction workers with
    | nil => trivial
    | cons worker workers ih =>
      refine ⟨trivial, fun joinable _ => ?_⟩
      cases joinable with
      | false => exact ih
      | true => exact ⟨trivial, fun _ _ => ih⟩
  have hdropped : ∀ (callback : Callback) dropped,
      Filling (fun _ => True) (dropLinks this callback dropped) := by
    intro callback dropped
    induction dropped with
    | nil => trivial
    | cons info dropped ih => exact ⟨trivial, fun _ _ => ih⟩
  refine ⟨trivial, fun _ _ => (hjoin _).bind fun _ _ => ⟨trivial, fun dropped _ => ⟨trivial, fun callback _ => ?_⟩⟩⟩
  cases callback with
  | none => trivial
  | some callback => exact hdropped callback dropped

theorem filling_start : Filling (fun _ => True) (start this) := by
  have hspawn : ∀ workers, Filling (fun _ => True) (spawnWorkers this workers) := by
    intro workers
    induction workers with
    | nil => trivial
    | cons worker workers ih =>
      refine ⟨trivial, fun spawned _ => ?_⟩
      cases spawned with
      | false => trivial
      | true => exact ih
  refine ⟨trivial, fun claimed _ => ?_⟩
  cases claimed with
  | false => trivial
  | true =>
    refine (hspawn _).bind fun spawned _ => ?_
    cases spawned with
    | true => trivial
    | false => exact ⟨trivial, fun _ _ => filling_stop.bind fun _ _ => trivial⟩

theorem filling_getRuntime : Filling (fun _ => True) getRuntime :=
  Prog.within_locked ⟨trivial, fun _ _ => trivial⟩

theorem filling_registerCallback {instrumentType : InstrumentType} {callbackType : CallbackType}
    (inputData : Option (Option Callback)) :
    Filling (fun _ => True) (registerCallback this instrumentType callbackType inputData) := by
  cases inputData with
  | none => trivial
  | some callback => exact filling_method trivial

theorem filling_discoverLinks {instrumentType : InstrumentType} (output : Bool) :
    Filling (fun _ => True) (discoverLinks this instrumentType output) := by
  cases output with
  | false => trivial
  | true => exact filling_scanOnce.bind fun _ _ => filling_method trivial

theorem filling_initialize (config : Bool) :
    Filling (fun _ => True) (commsRuntimeInitialize config) := by
  cases config with
  | false => trivial
  | true =>
    refine Prog.within_locked ⟨trivial, fun runtime _ => ?_⟩
    cases runtime with
    | some runtime => exact ⟨trivial, fun _ _ => trivial⟩
    | none =>
      refine ⟨trivial, fun runtime _ => filling_start.bind fun status _ => ?_⟩
      show Filling _ (if status ≠ .success then _ else _)
      split <;> exact ⟨trivial, fun _ _ => trivial⟩

theorem filling_body (f : Call) : Filling (fun _ => True) f.body := by
  cases f with
  | commsRuntimeInitialize config => exact ( filling_initialize config).bind fun _ _ => trivial
  | commsRuntimeShutdown =>
    refine Prog.Within.bind (P := fun _ => True) ?_ fun _ _ => trivial
    refine Prog.Within.bind (P := fun _ => True) (Prog.within_locked ⟨trivial, fun _ _ => trivial⟩)
      fun runtime _ => ?_
    cases runtime with
    | none => trivial
    | some runtime => exact filling_stop.bind fun _ _ => ⟨trivial, fun _ _ => trivial⟩
  | commsRuntimeRegisterCallback instrumentType callbackType inputData =>
    refine Prog.Within.bind (P := fun _ => True) (filling_getRuntime.bind fun runtime _ => ?_)
      fun _ _ => trivial
    cases runtime with
    | none => trivial
    | some runtime => exact filling_registerCallback inputData
  | commsRuntimeUnregisterCallback =>
    refine Prog.Within.bind (P := fun _ => True) (filling_getRuntime.bind fun runtime _ => ?_)
      fun _ _ => trivial
    cases runtime with
    | none => trivial
    | some runtime => exact filling_method trivial
  | commsRuntimeDiscoverLinks instrumentType output =>
    refine Prog.Within.bind (P := fun _ => True) (filling_getRuntime.bind fun runtime _ => ?_)
      fun _ _ => trivial
    cases runtime with
    | none => trivial
    | some runtime => exact filling_discoverLinks output
  | udpServerLoop | bluetoothServerLoop =>
    exact ⟨trivial, fun _ _ => (filling_runServer _).bind fun _ _ => ⟨trivial, fun _ _ => trivial⟩⟩
  | discoveryLoop => exact ⟨trivial, fun _ _ => ⟨trivial, fun _ => ⟨trivial, fun _ _ => trivial⟩⟩⟩
  | serverRounds =>
    refine ⟨trivial, fun running _ => ?_⟩
    cases running with
    | false => trivial
    | true =>
      refine ⟨trivial, fun served _ => ?_⟩
      cases served with
      | again => exact ⟨trivial, fun _ => trivial⟩
      | failed => trivial
  | discoveryRounds =>
    refine ⟨trivial, fun running _ => ?_⟩
    cases running with
    | false => trivial
    | true =>
      exact filling_scanOnce.bind fun _ _ => ⟨trivial, fun _ _ => ⟨trivial, fun _ => trivial⟩⟩
  | discoverLinks this instrumentType output =>
    exact (filling_discoverLinks output).bind fun _ _ => trivial
  | registerCallback this instrumentType callbackType inputData =>
    exact (filling_registerCallback inputData).bind fun _ _ => trivial
  | unregisterCallback => exact ⟨trivial, fun _ _ => trivial⟩
  | stop => exact filling_stop.bind fun _ _ => trivial

/-! ## The links -/

/-- The keys of the links are told apart, and each link was filled in by a handshake. -/
structure Filled (c : CommsRuntime) : Prop where
  keys : c.activeLinkKeys = (c.activeLinks.map (·.key)).toFinset
  distinct : (c.activeLinks.map (·.key)).Nodup
  filled : ∀ activeLink ∈ c.activeLinks, ∃ (peer : Peer) (socketFd : Int), activeLink = peer.link socketFd

def AllFilled (s : CommsState) : Prop := ∀ r c, s.runtimes.lookup r = some c → Filled c

variable {c c' : CommsRuntime} {s s' : CommsState}

theorem Filled.congr (h : Filled c) (hlinks : c'.activeLinks = c.activeLinks)
    (hkeys : c'.activeLinkKeys = c.activeLinkKeys) : Filled c' where
  keys := by rw [hkeys, hlinks, h.keys]
  distinct := hlinks ▸ h.distinct
  filled := hlinks ▸ h.filled

theorem Filled.pushLink (h : Filled c) {activeLink : ActiveLink}
    (hkey : activeLink.key ∉ c.activeLinkKeys)
    (hfilled : ∃ (peer : Peer) (socketFd : Int), activeLink = peer.link socketFd) :
    Filled (c.pushLink activeLink) := by
  have hnotin : activeLink.key ∉ c.activeLinks.map (·.key) := by
    rwa [h.keys, List.mem_toFinset] at hkey
  refine ⟨?_, ?_, ?_⟩
  · show insert activeLink.key c.activeLinkKeys = ((c.activeLinks ++ [activeLink]).map (·.key)).toFinset
    rw [h.keys, List.map_append, List.toFinset_append]
    ext key
    simp
  · show ((c.activeLinks ++ [activeLink]).map (·.key)).Nodup
    rw [List.map_append]
    exact List.nodup_append'.mpr ⟨h.distinct, List.nodup_singleton _, by simpa using hnotin⟩
  · intro other hother
    rcases List.mem_append.mp hother with hold | hnew
    · exact h.filled other hold
    · exact List.mem_singleton.mp hnew ▸ hfilled

theorem AllFilled.set (h : AllFilled s) {this : RuntimePtr} (hc : Filled c) : AllFilled (s.set this c) := by
  intro r c' hc'
  by_cases hr : r = this
  · rw [hr, CommsState.set, Finmap.lookup_insert] at hc'
    exact Option.some.inj hc' ▸ hc
  · rw [CommsState.set, Finmap.lookup_insert_of_ne _ hr] at hc'
    exact h r c' hc'

theorem filled_execMethod (h : AllFilled s) (hc : s.runtimes.lookup this = some c) {e : Choice}
    {a : RuntimeAct} (ha : Fills (.method this a)) {x : a.Answer}
    (hexec : s.execMethod this c e a = some (x, s')) : AllFilled s' := by
  have hfilled := h this c hc
  have hset : ∀ c' : CommsRuntime, c'.activeLinks = c.activeLinks →
      c'.activeLinkKeys = c.activeLinkKeys → AllFilled (s.set this c') :=
    fun c' hlinks hkeys => h.set (hfilled.congr hlinks hkeys)
  cases a with
  | begin | finish | join | spawn =>
    simp only [CommsState.execMethod] at hexec
    split at hexec <;> cases hexec
    · exact hset _ rfl rfl
    all_goals exact h
  | see peer =>
    cases hexec
    exact hset _ c.activeLinks_insertSeen c.activeLinkKeys_insertSeen
  | publish activeLink =>
    simp only [CommsState.execMethod] at hexec
    split at hexec
    · cases hexec
      exact h
    · rename_i hkey
      cases hexec
      exact h.set (hfilled.pushLink hkey ha)
  | claimRunning | stopRunning =>
    cases hexec
    exact hset _ rfl rfl
  | registerCallback instrumentType callbackType callback =>
    cases hexec
    refine hset _ ?_ ?_ <;> cases instrumentType <;> cases callbackType <;> rfl
  | drain =>
    cases hexec
    exact h.set ⟨rfl, List.nodup_nil, fun _ hmem => absurd hmem List.not_mem_nil⟩
  | socket | bind =>
    simp only [CommsState.execMethod] at hexec
    split at hexec
    · first
        | (cases hexec; exact h)
        | (split at hexec <;> cases hexec; exact h)
    · cases hexec
      all_goals exact h
  | _ =>
    cases hexec
    exact h

theorem filled_exec (a : CommsAct) (e : Choice) (s : CommsState) (x : a.Answer) (s' : CommsState)
    (ha : Fills a) (h : AllFilled s) (hexec : s.exec e a = some (x, s')) : AllFilled s' := by
  have herase : ∀ r r' c', (s.runtimes.erase r).lookup r' = some c' → Filled c' := by
    intro r r' c' hc'
    by_cases hr : r' = r
    · rw [hr, Finmap.lookup_erase] at hc'
      cases hc'
    · rw [Finmap.lookup_erase_ne hr] at hc'
      exact h r' c' hc'
  cases a with
  | method this a =>
    cases hc : s.runtimes.lookup this with
    | none => simp [CommsState.exec, hc] at hexec
    | some c =>
      simp only [CommsState.exec, hc] at hexec
      exact filled_execMethod h hc ha hexec
  | newRuntime =>
    cases hexec
    exact h.set ⟨rfl, List.nodup_nil, fun _ hmem => absurd hmem List.not_mem_nil⟩
  | resetRuntime r | destroy r =>
    simp only [CommsState.exec] at hexec
    split at hexec <;> cases hexec
    exact herase r
  | release =>
    simp only [CommsState.exec] at hexec
    split at hexec
    · cases hexec
      exact h
    · split at hexec <;> cases hexec <;> exact h
  | currentRuntime | retain =>
    cases hexec
    exact h

end LinkIds

/-- The linkIDs of the links are distinct, and whole. -/
structure DistinctIds (c : CommsRuntime) : Prop where
  distinct : (c.activeLinks.map fun activeLink => activeLink.link.linkID).Nodup
  whole : ∀ activeLink ∈ c.activeLinks, ∃ (peer : Peer) (socketFd : Int),
    activeLink = peer.link socketFd ∧ activeLink.link.linkID.toList = peer.wholeId ∧
      peer.wholeId.length < 20

open LinkIds

theorem LinkIds.Filled.distinctIds {c : CommsRuntime} (h : Filled c)
    (haddresses : ∀ activeLink ∈ c.activeLinks, IsMacAddress activeLink.link.devID) : DistinctIds c := by
  have hpeer : ∀ activeLink ∈ c.activeLinks, ∃ (peer : Peer) (socketFd : Int),
      activeLink = peer.link socketFd ∧ IsMacAddress peer.macAddress := by
    intro activeLink hmem
    obtain ⟨peer, socketFd, rfl⟩ := h.filled activeLink hmem
    exact ⟨peer, socketFd, rfl, peer.devID_link socketFd ▸ haddresses _ hmem⟩
  refine ⟨?_, fun activeLink hmem => ?_⟩
  · have hkeys := h.distinct
    rw [List.Nodup, List.pairwise_map] at hkeys ⊢
    refine hkeys.imp_of_mem fun {l l'} hl hl' hne hid => hne ?_
    obtain ⟨peer, socketFd, rfl, haddress⟩ := hpeer l hl
    obtain ⟨peer', socketFd', rfl, haddress'⟩ := hpeer l' hl'
    rw [peer.linkID_link, peer'.linkID_link] at hid
    have hwhole : peer.wholeId = peer'.wholeId := by
      rw [← Peer.makeLinkId_eq haddress, ← Peer.makeLinkId_eq haddress', hid]
    obtain ⟨hkind, hmac⟩ := Peer.wholeId_injective haddress haddress' hwhole
    rw [peer.key_link, peer'.key_link, hkind, hmac]
  · obtain ⟨peer, socketFd, rfl, haddress⟩ := hpeer activeLink hmem
    refine ⟨peer, socketFd, rfl, ?_, (Peer.length_wholeId haddress).trans_lt (by decide)⟩
    rw [peer.linkID_link, Peer.makeLinkId_eq haddress]

/-- In every state of every runtime whose links are to devices with MAC addresses, the linkIDs are
distinct and whole. Two peers with the same linkID are one device. -/
theorem linkIDs_distinct {ops : List (Op commsSystem)}
    (hlegal : (machine commsSystem).Legal (World.quiet .initial) ops) :
    (machine commsSystem).Always (fun w => ∀ r c, w.state.runtimes.lookup r = some c →
        (∀ activeLink ∈ c.activeLinks, IsMacAddress activeLink.link.devID) → DistinctIds c)
      (World.quiet .initial) ops ∧
    ∀ peer peer' : Peer, IsMacAddress peer.macAddress → IsMacAddress peer'.macAddress →
      makeLinkId peer.kind peer.macAddress = makeLinkId peer'.kind peer'.macAddress →
        peer.kind = peer'.kind ∧ peer.macAddress = peer'.macAddress := by
  constructor
  · have hfilled : AllFilled .initial := fun r c hc => by cases hc
    refine (always_of_within (T := Fills) (F := fun _ => True) (I := AllFilled)
      (fun f _ => filling_body f)
      (fun a e s x s' ha hs hexec => ⟨trivial, filled_exec a e s x s' ha hs hexec⟩) hfilled (fun _ _ _ => trivial) hlegal).mono ?_
    exact fun w hw r c hc haddresses => (hw r c hc).distinctIds haddresses
  · intro peer peer' haddress haddress' hid
    refine Peer.wholeId_injective haddress haddress' ?_
    rw [← Peer.makeLinkId_eq haddress, ← Peer.makeLinkId_eq haddress', hid]

/-- Links to one address over Bluetooth and over Wi-Fi. -/
def bothLinks : List (Op commsSystem) :=
  makeRuntime ++ .start 1 (.commsRuntimeDiscoverLinks .comms true) :: List.replicate 3 (.run 1 {}) ++
    .run 1 { devices := some [⟨"AA:BB:CC:DD:EE:0F"⟩] } :: .run 1 {} :: .run 1 { fd := 5 } ::
      List.replicate 5 (.run 1 {}) ++
    .run 1 { candidates := [⟨⟨"AA:BB:CC:DD:EE:0F"⟩, "wlan0", "10.0.0.1"⟩] } :: .run 1 {} ::
      .run 1 { fd := 6 } :: List.replicate 7 (.run 1 {})

theorem linkIDs_distinct_both :
    ((machine commsSystem).Always (fun w => ∀ r c, w.state.runtimes.lookup r = some c →
        (∀ activeLink ∈ c.activeLinks, IsMacAddress activeLink.link.devID) → DistinctIds c)
      (World.quiet .initial) bothLinks ∧
    ∀ peer peer' : Peer, IsMacAddress peer.macAddress → IsMacAddress peer'.macAddress →
      makeLinkId peer.kind peer.macAddress = makeLinkId peer'.kind peer'.macAddress →
        peer.kind = peer'.kind ∧ peer.macAddress = peer'.macAddress) ∧
    (((machine commsSystem).run (World.quiet .initial) bothLinks).state.runtimes.lookup 0).map
        (fun c => c.activeLinks.map fun activeLink => activeLink.link.linkID) =
      some ["btAABBCCDDEE0F", "wifiAABBCCDDEE0F"] :=
  ⟨linkIDs_distinct (by decide +kernel), by decide +kernel⟩

end SensorLib.Comms
