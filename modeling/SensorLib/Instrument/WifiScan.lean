import SensorLib.Instrument.Actions

/-! # A Wi-Fi scan over netlink

The kernel is asked for a scan, and then for what it has heard. Its messages
come in by calls of `nl_recvmsgs`, each of which runs callbacks for some of them.
-/

namespace SensorLib.Instrument

open CString Comms Elements Wifi

/-- The callbacks that a call of `nl_recvmsgs` makes, and what it returns. -/
structure Received (Callback : Type) where
  callbacks : List Callback
  status : Int
  deriving DecidableEq, Repr

inductive TriggerCallback
  | finish
  | ack
  | err (error : Int)
  deriving DecidableEq, Repr

/-- What the calls of the library return. The receives end where `nl_recvmsgs` does not return. -/
structure Netlink where
  triggerMsg : Bool
  triggerSent : Int
  triggerCb : Bool
  triggerReceives : List (Received TriggerCallback)
  fetchMsg : Bool
  fetchCb : Bool
  fetchSent : Int
  fetchReceives : List (Received (Option BssAttributes))
  deriving DecidableEq, Repr

/-- Why a scan has no result: it waits for a message for ever, or reads behind an attribute. -/
inductive Halt
  | waits
  | fault
  deriving DecidableEq, Repr

/-- `EPERM`, `EACCES`, `EOPNOTSUPP`, `ENODEV` and `EINVAL`. -/
def notSupportedErrnos : List Int := [1, 13, 95, 19, 22]

def translateNlError (err : Int) : ApiStatus :=
  if -err ∈ notSupportedErrnos then .notSupported else .error

/-! ## The request for a scan -/

structure TriggerState where
  done : Int := 1
  callbackErr : Int := 0
  deriving DecidableEq, Repr

def finishHandler (s : TriggerState) : TriggerState := { s with done := 0 }

def errorHandler (err : Int) (s : TriggerState) : TriggerState := { s with callbackErr := err }

def TriggerState.handle (s : TriggerState) : TriggerCallback → TriggerState
  | .finish | .ack => finishHandler s
  | .err error => errorHandler error s

def triggerLoop : List (Received TriggerCallback) → TriggerState → Except Halt ApiStatus
  | [], _ => .error .waits
  | r :: receives, s =>
    let s := r.callbacks.foldl TriggerState.handle s
    if r.status < 0 then .ok (translateNlError r.status)
    else if s.callbackErr ≠ 0 then .ok (translateNlError s.callbackErr)
    else if s.done ≠ 0 then triggerLoop receives s
    else .ok .success

def triggerScan (nl : Netlink) : Except Halt ApiStatus :=
  if !nl.triggerMsg then .ok .error
  else if nl.triggerSent < 0 then .ok (translateNlError nl.triggerSent)
  else if !nl.triggerCb then .ok .error
  else triggerLoop nl.triggerReceives {}

/-! ## The request for the results -/

/-- Both actions of the handler let the library go on to the next message. -/
def handleAll : List (Option BssAttributes) → List WifiNetwork → Except Halt (List WifiNetwork)
  | [], networks => .ok networks
  | bss :: callbacks, networks =>
    match scanResultHandler bss networks with
    | none => .error .fault
    | some (_, networks) => handleAll callbacks networks

def fetchLoop : List (Received (Option BssAttributes)) → List WifiNetwork →
    Except Halt (Int × List WifiNetwork)
  | [], _ => .error .waits
  | r :: receives, networks => do
    let networks ← handleAll r.callbacks networks
    if 0 < r.status then fetchLoop receives networks else .ok (r.status, networks)

def fetchScanResults (nl : Netlink) : Except Halt (ApiStatus × List WifiNetwork) :=
  if !nl.fetchMsg then .ok (.error, [])
  else if !nl.fetchCb then .ok (.error, [])
  else if nl.fetchSent < 0 then .ok (translateNlError nl.fetchSent, [])
  else do
    let (recvErr, networks) ← fetchLoop nl.fetchReceives []
    if recvErr < 0 then .ok (translateNlError recvErr, networks) else .ok (.success, networks)

/-- The two requests of a scan, the second of which is not made after some failures of the first. -/
def scanWifi (wifi : WifiCalls) (nl : Netlink) : Except Halt WifiCalls := do
  let trigger ← triggerScan nl
  if trigger ≠ .success ∧ trigger ≠ .notSupported then .ok { wifi with triggerScan := trigger }
  else
    let fetch ← fetchScanResults nl
    .ok { wifi with triggerScan := trigger, fetchScanResults := fetch }

/-! ## Conversations with the kernel -/

/-- After receives that tell nothing, a scan is acknowledged. -/
inductive Acknowledged : List (Received TriggerCallback) → Prop
  | now {r : Received TriggerCallback} {receives : List (Received TriggerCallback)}
      (hstatus : 0 ≤ r.status) (hfine : ∀ e, .err e ∉ r.callbacks) (hdone : r.callbacks ≠ []) :
      Acknowledged (r :: receives)
  | later {r : Received TriggerCallback} {receives : List (Received TriggerCallback)}
      (hstatus : 0 ≤ r.status) (hsilent : r.callbacks = []) (hrest : Acknowledged receives) :
      Acknowledged (r :: receives)

/-- After receives that tell nothing, a scan is refused. -/
inductive Refused (err : Int) : List (Received TriggerCallback) → Prop
  | now {r : Received TriggerCallback} {receives : List (Received TriggerCallback)}
      (hstatus : 0 ≤ r.status) (hrefused : r.callbacks = [.err err]) (hne : err ≠ 0) :
      Refused err (r :: receives)
  | later {r : Received TriggerCallback} {receives : List (Received TriggerCallback)}
      (hstatus : 0 ≤ r.status) (hsilent : r.callbacks = []) (hrest : Refused err receives) :
      Refused err (r :: receives)

/-- The messages of a dump, however they are split over the receives, and how the last one ends. -/
inductive Delivered : List (Received (Option BssAttributes)) → List (Option BssAttributes) → Int → Prop
  | last {r : Received (Option BssAttributes)} {receives : List (Received (Option BssAttributes))}
      (hstatus : r.status ≤ 0) : Delivered (r :: receives) r.callbacks r.status
  | more {r : Received (Option BssAttributes)} {receives : List (Received (Option BssAttributes))}
      {messages : List (Option BssAttributes)} {status : Int} (hstatus : 0 < r.status)
      (hrest : Delivered receives messages status) :
      Delivered (r :: receives) (r.callbacks ++ messages) status

theorem foldl_handle_fine {callbacks : List TriggerCallback} (hfine : ∀ e, .err e ∉ callbacks)
    (s : TriggerState) : callbacks.foldl TriggerState.handle s =
      if callbacks = [] then s else { s with done := 0 } := by
  induction callbacks generalizing s with
  | nil => rfl
  | cons callback callbacks ih =>
    have hrest : ∀ e, .err e ∉ callbacks := fun e he => hfine e (List.mem_cons_of_mem _ he)
    rw [List.foldl_cons, ih hrest, if_neg (List.cons_ne_nil _ _)]
    cases callback with
    | err e => exact absurd List.mem_cons_self (hfine e)
    | finish | ack => split <;> rfl

theorem triggerLoop_acknowledged {receives : List (Received TriggerCallback)}
    (h : Acknowledged receives) : triggerLoop receives {} = .ok .success := by
  induction h with
  | now hstatus hfine hdone =>
    rw [triggerLoop, foldl_handle_fine hfine, if_neg hdone, if_neg (Int.not_lt.mpr hstatus)]
    rfl
  | later hstatus hsilent _ ih =>
    rw [triggerLoop, hsilent, if_neg (Int.not_lt.mpr hstatus)]
    exact ih

theorem triggerLoop_refused {err : Int} {receives : List (Received TriggerCallback)}
    (h : Refused err receives) : triggerLoop receives {} = .ok (translateNlError err) := by
  induction h with
  | now hstatus hrefused hne =>
    rw [triggerLoop, hrefused, if_neg (Int.not_lt.mpr hstatus)]
    exact if_pos hne
  | later hstatus hsilent _ ih =>
    rw [triggerLoop, hsilent, if_neg (Int.not_lt.mpr hstatus)]
    exact ih

theorem handleAll_append (callbacks callbacks' : List (Option BssAttributes))
    (networks : List WifiNetwork) : handleAll (callbacks ++ callbacks') networks =
      (handleAll callbacks networks).bind (handleAll callbacks') := by
  induction callbacks generalizing networks with
  | nil => rfl
  | cons bss callbacks ih =>
    simp only [List.cons_append, handleAll]
    cases scanResultHandler bss networks with
    | none => rfl
    | some handled => exact ih handled.2

/-- How the messages are split does not matter. -/
theorem fetchLoop_delivered {receives : List (Received (Option BssAttributes))}
    {messages : List (Option BssAttributes)} {status : Int} (h : Delivered receives messages status)
    (networks : List WifiNetwork) : fetchLoop receives networks =
      (handleAll messages networks).map fun networks => (status, networks) := by
  induction h generalizing networks with
  | @last r receives hstatus =>
    rw [fetchLoop]
    cases handleAll r.callbacks networks with
    | error => rfl
    | ok networks => exact if_neg (Int.not_lt.mpr hstatus)
  | @more r receives messages status hstatus _ ih =>
    rw [fetchLoop, handleAll_append]
    cases handleAll r.callbacks networks with
    | error => rfl
    | ok networks => exact (if_pos hstatus).trans (ih networks)

/-! ## Stations -/

/-- What a station sends in its frames, with an element that is cut off at the end, and how strong
it is heard, in hundredths of a dBm. -/
structure Station where
  mac : Vector UInt8 6
  elements : List Element
  rest : List UInt8
  cutOff : CutOff rest
  short : (bytesOf elements ++ rest).length ≤ 65535
  signalMbm : Option Int
  fits : ∀ mbm ∈ signalMbm, -3276900 < mbm ∧ mbm < 3276800

/-- A message of the dump: one about a station, or one that names no address. -/
inductive Message
  | station (s : Station)
  | noBss
  | noBssid (informationElements : Option (List UInt8)) (signalMbm : Option Int)

namespace Station

variable (s : Station)

def attributes : BssAttributes where
  bssid := some s.mac.toList
  informationElements := some (bytesOf s.elements ++ s.rest)
  signalMbm := s.signalMbm

/-- The name is the data of the first element with id 0. -/
def name : List UInt8 := ((firstSsid s.elements).map Prod.fst).getD []

def macText : Text := List.intercalate [58] (s.mac.toList.map hexByte)

/-- What the records of a scan say about a station. -/
def record : Wifi.WifiDeviceInfoBase where
  ssid := s.name.takeWhile (· != 0)
  macAddress := s.macText
  type := .wifiRouter
  rssi := ⟨(s.signalMbm.getD 0).tdiv 100, s.signalMbm.isSome⟩

def network : WifiNetwork := ⟨s.name, s.macText, s.signalMbm⟩

theorem macToString_of_length {mac : List UInt8} (hmac : mac.length = 6) :
    macToString mac = some (List.intercalate [58] (mac.map hexByte)) := by
  match mac with
  | [_, _, _, _, _, _] => rfl

theorem macToString_mac : macToString s.mac.toList = some s.macText :=
  macToString_of_length s.mac.length_toList

theorem macText_fits : s.macText.length = 17 ∧ 0 ∉ s.macText := by
  have hmac := s.mac.length_toList
  rw [macText]
  generalize s.mac.toList = mac at hmac
  match mac with
  | [a, b, c, d, e, f] =>
    have hdigit : ∀ n < 16, 0 ≠ hexDigit n := by decide
    have hhigh : ∀ b : UInt8, 0 ≠ hexDigit (b.toNat / 16) := by
      intro b
      have := b.toNat_lt
      exact hdigit _ (by omega)
    have hlow : ∀ b : UInt8, 0 ≠ hexDigit (b.toNat % 16) := fun b => hdigit _ (by omega)
    constructor
    · rfl
    · simp [List.intercalate, hexByte, hhigh, hlow]

theorem name_length : s.name.length ≤ 255 := by
  rw [name, firstSsid]
  cases hfind : s.elements.find? (·.id = 0) with
  | none => exact Nat.zero_le _
  | some e => exact e.short

theorem handler_station (networks : List WifiNetwork) :
    scanResultHandler (some s.attributes) networks = some (.ok, networks ++ [s.network]) := by
  have hmac : 6 ≤ s.mac.toList.length := by simp
  obtain ⟨text, htext, hnormal, hne⟩ := normalizeMacAddress_macToString hmac
  obtain rfl : s.macText = text := Option.some.inj ((macToString_mac s).symm.trans htext)
  simp only [scanResultHandler, attributes, htext, Option.map_some, hnormal, Option.bind_eq_bind,
    Option.bind_some, if_neg hne, reportedSsid_eq s.cutOff s.short]
  rfl

/-- Nothing of a station is cut when its record is written. -/
theorem networkDevice_network : networkDevice s.network = s.record := by
  have hssid : Wifi.copyStdString 256 s.name = s.name.takeWhile (· != 0) := by
    apply List.take_of_length_le
    have hshort := (List.takeWhile_prefix (p := (· != 0)) (l := s.name)).length_le
    have := s.name_length
    omega
  have hmac : Wifi.copyStdString 18 s.macText = s.macText := by
    obtain ⟨hlength, hnul⟩ := s.macText_fits
    have htext : s.macText.takeWhile (· != 0) = s.macText := by
      apply List.takeWhile_eq_self_iff.mpr
      intro b hb
      rw [bne_iff_ne]
      rintro rfl
      exact hnul hb
    rw [Wifi.copyStdString, htext]
    exact List.take_of_length_le hlength.le
  have hsignal : toInt16 ((s.signalMbm.getD 0).tdiv 100) = (s.signalMbm.getD 0).tdiv 100 := by
    have hfits := s.fits
    cases hmbm : s.signalMbm with
    | none => rfl
    | some mbm =>
      obtain ⟨hlow, hhigh⟩ := hfits mbm hmbm
      have hleast : (-3276899 : Int).tdiv 100 ≤ mbm.tdiv 100 := Int.tdiv_le_tdiv (by decide) hlow
      have hmost : mbm.tdiv 100 ≤ (3276799 : Int).tdiv 100 :=
        Int.tdiv_le_tdiv (by decide) (Int.le_of_lt_add_one hhigh)
      rw [Option.getD_some, toInt16]
      exact Int.bmod_eq_of_le hleast (Int.lt_of_le_of_lt hmost (by decide))
  rw [networkDevice, network, hssid, hmac, hsignal]
  rfl

end Station

namespace Message

/-- The attribute for the station, as the handler finds it. -/
def bss : Message → Option BssAttributes
  | .station s => some s.attributes
  | .noBss => none
  | .noBssid informationElements signalMbm => some ⟨none, informationElements, signalMbm⟩

def station? : Message → Option Station
  | .station s => some s
  | _ => none

end Message

theorem handleAll_messages (messages : List Message) (networks : List WifiNetwork) :
    handleAll (messages.map Message.bss) networks =
      .ok (networks ++ (messages.filterMap Message.station?).map Station.network) := by
  induction messages generalizing networks with
  | nil => simp [handleAll]
  | cons message messages ih =>
    cases message with
    | station s =>
      rw [List.map_cons, Message.bss, handleAll, s.handler_station]
      simp [ih, Message.station?]
    | noBss | noBssid =>
      rw [List.map_cons, Message.bss, handleAll]
      simp [scanResultHandler, ih, Message.station?, List.filterMap_cons]

/-! ## The action -/

/-- A scan of an interface gets as far as the kernel. -/
structure Reaches (wifi : WifiCalls) (ifname : Text) : Prop where
  interface : findWirelessInterface wifi = (.success, ifname)
  index : wifi.ifindex ifname ≠ 0
  socket : wifi.nlSocket = true
  connected : wifi.genlConnect = true
  resolved : wifi.resolved = true

/-- The kernel acknowledges the scan, or refuses it to the caller, and sends what it has heard. -/
structure Answers (nl : Netlink) (messages : List Message) (status : Int) : Prop where
  triggerMsg : nl.triggerMsg = true
  triggerCb : nl.triggerCb = true
  triggerSent : 0 ≤ nl.triggerSent
  triggered : Acknowledged nl.triggerReceives ∨
    ∃ errno ∈ notSupportedErrnos, Refused (-errno) nl.triggerReceives
  fetchMsg : nl.fetchMsg = true
  fetchCb : nl.fetchCb = true
  fetchSent : 0 ≤ nl.fetchSent
  fetched : Delivered nl.fetchReceives (messages.map Message.bss) status

/-- The stations that a dump tells about. -/
def stationsOf (messages : List Message) : List Station := messages.filterMap Message.station?

/-- What a scan reports: the first stations, if the dump comes to its end, and otherwise nothing. -/
def scanReport (LongDouble : Type) (messages : List Message) (status : Int) :
    ActionResult LongDouble :=
  if status < 0 then { status := translateNlError status, outputLen := some 0 }
  else
    { status := if stationsOf messages = [] then .notSupported else .success
      outputLen := some (min (stationsOf messages).length wifiMaxDevices)
      written := (((stationsOf messages).take wifiMaxDevices).map fun s =>
        .wifiDevice s.record).zipIdx }

section Scan

variable {nl : Netlink} {messages : List Message} {status : Int} (h : Answers nl messages status)

include h

theorem triggerScan_answers :
    ∃ trigger, triggerScan nl = .ok trigger ∧ (trigger = .success ∨ trigger = .notSupported) := by
  simp only [triggerScan, h.triggerMsg, h.triggerCb, Bool.not_true, Bool.false_eq_true, if_false,
    if_neg (Int.not_lt.mpr h.triggerSent)]
  rcases h.triggered with hacknowledged | ⟨errno, herrno, hrefused⟩
  · exact ⟨.success, triggerLoop_acknowledged hacknowledged, Or.inl rfl⟩
  · apply Exists.intro .notSupported
    constructor
    · rw [triggerLoop_refused hrefused, translateNlError, Int.neg_neg, if_pos herrno]
    · exact Or.inr rfl

theorem fetchScanResults_answers : fetchScanResults nl =
    .ok (if status < 0 then translateNlError status else .success,
      (stationsOf messages).map Station.network) := by
  simp only [fetchScanResults, h.fetchMsg, h.fetchCb, Bool.not_true, Bool.false_eq_true, if_false,
    if_neg (Int.not_lt.mpr h.fetchSent), fetchLoop_delivered h.fetched, handleAll_messages,
    List.nil_append]
  by_cases hstatus : status < 0
  · simp only [Except.map, Except.bind, bind, hstatus, if_true]
    rfl
  · simp only [Except.map, Except.bind, bind, hstatus, if_false]
    rfl

theorem scanWifi_answers (wifi : WifiCalls) :
    ∃ scanned, scanWifi wifi nl = .ok scanned ∧
      (∀ ifname, Reaches wifi ifname → Reaches scanned ifname) ∧
      (scanned.triggerScan = .success ∨ scanned.triggerScan = .notSupported) ∧
      scanned.fetchScanResults = (if status < 0 then translateNlError status else .success,
        (stationsOf messages).map Station.network) := by
  obtain ⟨trigger, htrigger, htriggered⟩ := triggerScan_answers h
  have hgoes : ¬ (trigger ≠ .success ∧ trigger ≠ .notSupported) := by
    rintro ⟨hsuccess, hnot⟩
    exact htriggered.elim hsuccess hnot
  have hscan : scanWifi wifi nl = .ok { wifi with
      triggerScan := trigger
      fetchScanResults := (if status < 0 then translateNlError status else .success,
        (stationsOf messages).map Station.network) } := by
    rw [scanWifi, htrigger, fetchScanResults_answers h]
    exact if_neg hgoes
  refine ⟨_, hscan, fun ifname hreaches => ?_, htriggered, rfl⟩
  exact ⟨hreaches.interface, hreaches.index, hreaches.socket, hreaches.connected, hreaches.resolved⟩

end Scan

theorem translateNlError_ne_success (err : Int) : translateNlError err ≠ .success := by
  unfold translateNlError
  split <;> simp

theorem wifiDiscoverDevices_scanned {LongDouble : Type} {wifi : WifiCalls} {ifname : Text}
    (hreaches : Reaches wifi ifname)
    (htrigger : wifi.triggerScan = .success ∨ wifi.triggerScan = .notSupported)
    {stations : List Station} {status : Int}
    (hfetch : wifi.fetchScanResults = (if status < 0 then translateNlError status else .success,
      stations.map Station.network)) :
    (wifiDiscoverDevices wifi true : ActionResult LongDouble) =
      if status < 0 then { status := translateNlError status }
      else
        { status := if stations = [] then .notSupported else .success
          outputLen := some (min stations.length wifiMaxDevices)
          written := ((stations.take wifiMaxDevices).map fun s => .wifiDevice s.record).zipIdx } := by
  have hgoes : ¬ (wifi.triggerScan ≠ .success ∧ wifi.triggerScan ≠ .notSupported) := by
    rintro ⟨hsuccess, hnot⟩
    exact htrigger.elim hsuccess hnot
  have hrecords : ((stations.map Station.network).take (min stations.length wifiMaxDevices)).map
      (fun net => (Record.wifiDevice (networkDevice net) : Record LongDouble)) =
      (stations.take wifiMaxDevices).map fun s => .wifiDevice s.record := by
    rw [← List.map_take, List.map_map, Nat.min_comm, ← List.take_eq_take_min]
    apply List.map_congr_left
    intro s _
    exact congrArg Record.wifiDevice s.networkDevice_network
  have hfound : (if 0 < min stations.length wifiMaxDevices then ApiStatus.success
      else .notSupported) = if stations = [] then .notSupported else .success := by
    cases stations with
    | nil => rfl
    | cons s stations =>
      rw [if_neg (List.cons_ne_nil _ _), if_pos]
      simp [wifiMaxDevices]
  simp only [wifiDiscoverDevices, wifiDiscoverDevicesNl80211, Bool.not_true, Bool.false_eq_true,
    if_false, hreaches.interface, ne_eq, not_true_eq_false, hreaches.index, hreaches.socket,
    hreaches.connected, hreaches.resolved, hfetch]
  rw [if_neg hgoes]
  by_cases hstatus : status < 0
  · simp only [hstatus, if_true, translateNlError_ne_success, not_false_eq_true]
  · simp only [hstatus, if_false, not_true_eq_false, List.length_map, hrecords, hfound]

/-- A caller that may not trigger a scan, and a router and a hidden one that have been heard. -/
def oldResults : List Message :=
  [.noBss,
    .station
      { mac := #v[0xDC, 0xA6, 0x32, 0x0B, 0x00, 0x4F]
        elements := [⟨1, [2], by decide⟩, ⟨0, ascii "Pi", by decide⟩]
        rest := [3, 5, 1]
        cutOff := ⟨⟨3, [1, 0, 0, 0, 0], by decide⟩, ⟨[0, 0, 0, 0], rfl⟩, by decide⟩
        short := by decide
        signalMbm := some (-4750)
        fits := by decide },
    .station
      { mac := #v[0, 1, 2, 3, 4, 5]
        elements := [⟨0, [], by decide⟩]
        rest := []
        cutOff := ⟨⟨0, [], by decide⟩, ⟨[0, 0], rfl⟩, by decide⟩
        short := by decide
        signalMbm := none
        fits := by decide }]

def refusedScan : Netlink where
  triggerMsg := true
  triggerSent := 28
  triggerCb := true
  triggerReceives := [⟨[], 0⟩, ⟨[.err (-1)], 0⟩]
  fetchMsg := true
  fetchCb := true
  fetchSent := 28
  fetchReceives := [⟨oldResults.map Message.bss, 0⟩]

def wlanCalls : SystemCalls where
  hci := ⟨false, true, none, fun _ => none, fun _ _ => false, false⟩
  wifi := ⟨true, some [⟨ascii "wlan0", true, true, none, none⟩], true, fun _ => none, fun _ _ => false,
    fun _ => 3, true, true, true, .error, (.error, [])⟩
  readCommandOutput _ := none
  runtime := none
  gpsd := { pieces := [] }
  pieces_ne := List.not_mem_nil
  recvBuffer := ⟨List.replicate 4096 255, List.length_replicate⟩

theorem answers_refusedScan : Answers refusedScan oldResults 0 where
  triggerMsg := rfl
  triggerCb := rfl
  triggerSent := by decide
  triggered := Or.inr ⟨1, by decide, .later (by decide) rfl (.now (by decide) rfl (by decide))⟩
  fetchMsg := rfl
  fetchCb := rfl
  fetchSent := by decide
  fetched := .last (by decide)

end SensorLib.Instrument
