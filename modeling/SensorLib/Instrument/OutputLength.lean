import SensorLib.Instrument.Actions

/-! # The number of records

A caller sizes its buffer by the maximum of the action and reads as many records
as `output_len` says.
-/

namespace SensorLib.Instrument

open CString Comms

/-- The records that a caller has to make room for. -/
def maxRecords : InstrumentAction → Nat
  | .bluetoothGetAdapterInfo => bluetoothMaxAdapters
  | .bluetoothDiscoverDevices => Bluez.bluetoothMaxDevices
  | .wifiGetMyDevice | .wifiDiscoverDevices => wifiMaxDevices
  | .bluetoothDiscoverBratislavaLinks | .wifiDiscoverBratislavaLinks
  | .commsDiscoverBratislavaLinks => commsMaxLinks
  | .bluetoothIsUp | .wifiIsUp | .gpsGetPosition => 1
  | .bluetoothTurnOn | .bluetoothTurnOff | .bluetoothScanOn | .bluetoothScanOff
  | .wifiTurnOn | .wifiTurnOff | .wifiScanOn | .wifiScanOff | .other => 0

variable {LongDouble : Type}

/-- Of a success the records are counted, and no record is written behind the maximum. -/
structure Counts (max n : Nat) (r : ActionResult LongDouble) : Prop where
  counted : r.status = .success → r.written.map Prod.snd = List.range n
  bounded : r.status = .success → n ≤ max
  within : ∀ w ∈ r.written, w.2 < max

/-- An action that counts its records, and none on failure. -/
structure Tells (max : Nat) (r : ActionResult LongDouble) : Prop where
  counts : Counts max (r.outputLen.getD 0) r
  failed : r.status ≠ .success → r.outputLen.getD 0 = 0

theorem tells_nothing (max : Nat) (status : ApiStatus) :
    Tells max ({ status } : ActionResult LongDouble) :=
  ⟨⟨fun _ => rfl, fun _ => Nat.zero_le _, fun _ h => absurd h List.not_mem_nil⟩, fun _ => rfl⟩

theorem counts_of_places {max : Nat} {r : ActionResult LongDouble}
    (hplaces : r.written.map Prod.snd = List.range r.written.length) (hmax : r.written.length ≤ max) :
    Counts max r.written.length r := by
  refine ⟨fun _ => hplaces, fun _ => hmax, fun w hw => ?_⟩
  have hplace := List.mem_map_of_mem (f := Prod.snd) hw
  rw [hplaces, List.mem_range] at hplace
  omega

theorem tells_of_places {max : Nat} {r : ActionResult LongDouble}
    (hlen : r.outputLen = some r.written.length)
    (hplaces : r.written.map Prod.snd = List.range r.written.length) (hmax : r.written.length ≤ max)
    (hfailed : r.status ≠ .success → r.written = []) : Tells max r := by
  refine ⟨?_, fun hstatus => ?_⟩
  · rw [hlen, Option.getD_some]
    exact counts_of_places hplaces hmax
  · rw [hlen, Option.getD_some, hfailed hstatus, List.length_nil]

/-- Finding nothing is no success. -/
theorem tells_found {max : Nat} {written : List (Record LongDouble × Nat)}
    (hplaces : written.map Prod.snd = List.range written.length) (hmax : written.length ≤ max) :
    Tells max { status := if 0 < written.length then .success else .notSupported
                outputLen := some written.length
                written } := by
  refine tells_of_places rfl hplaces hmax fun hstatus => ?_
  by_cases hpos : 0 < written.length
  · exact absurd (if_pos hpos) hstatus
  · exact List.length_eq_zero_iff.mp (Nat.eq_zero_of_not_pos hpos)

theorem zipIdx_places {α : Type} (records : List α) :
    records.zipIdx.map Prod.snd = List.range records.zipIdx.length := by
  rw [List.zipIdx_map_snd, List.length_zipIdx, List.range_eq_range']

/-- Records in a row, from the first place on. -/
theorem tells_records {max : Nat} {status : ApiStatus} {records : List (Record LongDouble)}
    (hmax : records.length ≤ max) (hfailed : status ≠ .success → records = []) :
    Tells max { status, outputLen := some records.length, written := records.zipIdx } := by
  refine tells_of_places ?_ (zipIdx_places records) ?_ fun hstatus => ?_
  · rw [List.length_zipIdx]
  · rw [List.length_zipIdx]
    exact hmax
  · rw [hfailed hstatus]
    rfl

theorem tells_up (value : Bool) :
    Tells 1 ({ status := .success, outputLen := some 1, written := [(.up value, 0)] } :
      ActionResult LongDouble) :=
  @tells_records LongDouble 1 .success [.up value] le_rfl fun h => absurd rfl h

/-! ## Loops with room -/

section Fill

variable {α β : Type} {max : Nat} {record : α → Option β}

theorem fill_places (count : Nat) (items : List α) :
    (fill max record count items).map Prod.snd =
      List.range' count (fill max record count items).length := by
  induction items generalizing count with
  | nil => rfl
  | cons item items ih =>
    rw [fill]
    split
    · split
      · exact ih count
      · rw [List.map_cons, ih, List.length_cons, List.range'_succ]
    · rfl

theorem fill_length {count : Nat} (hcount : count ≤ max) (items : List α) :
    count + (fill max record count items).length ≤ max := by
  induction items generalizing count with
  | nil => exact hcount
  | cons item items ih =>
    rw [fill]
    split
    · rename_i hroom
      split
      · exact ih hcount
      · have hrest := ih (Nat.succ_le_of_lt hroom)
        rw [List.length_cons, Nat.add_comm _ 1, ← Nat.add_assoc]
        exact hrest
    · exact hcount

theorem tells_fill (record : α → Option (Record LongDouble)) (items : List α) :
    let written := fill max record 0 items
    Tells max { status := if 0 < written.length then .success else .notSupported
                outputLen := some written.length
                written } := by
  intro written
  have hmax : 0 + written.length ≤ max := fill_length (Nat.zero_le max) items
  refine tells_found ?_ (by simpa using hmax)
  rw [List.range_eq_range']
  exact fill_places 0 items

end Fill

/-! ## Capacity of the scan table and of the list of links -/

theorem findOrAddEntry_length {entries entries' : List Bluez.BluezScanEntry}
    {incoming : Bluez.BluezScanEntry} {slot : Nat} (hlen : entries.length ≤ Bluez.bluetoothMaxDevices)
    (h : Bluez.findOrAddEntry entries incoming = some (entries', slot)) :
    entries'.length ≤ Bluez.bluetoothMaxDevices := by
  simp only [Bluez.findOrAddEntry] at h
  split at h
  · cases h
    exact hlen
  · split at h
    · cases h
    · rename_i hroom
      cases h
      rw [List.length_append, List.length_singleton]
      exact Nat.lt_of_not_le hroom

theorem parseScanOutput_length {entries : List Bluez.BluezScanEntry}
    (hlen : entries.length ≤ Bluez.bluetoothMaxDevices) (output : Option Text) :
    (Bluez.parseScanOutput entries output).length ≤ Bluez.bluetoothMaxDevices := by
  rw [Bluez.parseScanOutput_foldl]
  generalize tokens (output.getD []) = lines
  induction lines generalizing entries with
  | nil => exact hlen
  | cons line lines ih =>
    refine ih ?_
    rw [Bluez.enterLine]
    split
    · exact hlen
    · rw [Bluez.enterParsed]
      split
      · exact hlen
      · rename_i hfound
        rw [List.length_modify]
        exact findOrAddEntry_length hlen hfound

theorem appendKnownDevices_length {readCommandOutput : Text → Option Text}
    {entries : List Bluez.BluezScanEntry} (hlen : entries.length ≤ Bluez.bluetoothMaxDevices) :
    (appendKnownDevices readCommandOutput entries).length ≤ Bluez.bluetoothMaxDevices := by
  rw [appendKnownDevices]
  split
  · exact hlen
  · exact parseScanOutput_length hlen _

theorem outputLinks_length {instrumentType : InstrumentType} {links written : List ActiveLink}
    (h : written.length ≤ commsMaxLinks) :
    (outputLinks instrumentType links written).2.length ≤ commsMaxLinks := by
  induction links generalizing written with
  | nil => exact h
  | cons link links ih =>
    rw [outputLinks]
    split
    · exact ih h
    · split
      · exact ih h
      · split
        · exact h
        · split
          · exact h
          · rename_i hroom
            refine ih ?_
            rw [List.length_append, List.length_singleton]
            exact Nat.lt_of_not_le hroom

/-! ## The actions -/

theorem tells_bluetoothGetAdapterInfo (ba2str : Bluetooth.Bdaddr → Text) (hci : HciCalls)
    (output : Bool) :
    Tells bluetoothMaxAdapters
      (bluetoothGetAdapterInfo ba2str hci output : ActionResult LongDouble) := by
  rw [bluetoothGetAdapterInfo]
  split
  · exact tells_nothing _ _
  · split
    · exact tells_nothing _ _
    · split
      · exact tells_nothing _ _
      · exact tells_fill _ _

theorem tells_bluetoothIsUp (hci : HciCalls) (input : Input) (output : Bool) :
    Tells 1 (bluetoothIsUp hci input output : ActionResult LongDouble) := by
  rw [bluetoothIsUp]
  split
  · exact tells_nothing _ _
  · split
    · exact tells_nothing _ _
    · split
      · exact tells_nothing _ _
      · split
        · exact tells_nothing _ _
        · exact tells_up _

theorem tells_bluetoothSetUp (hci : HciCalls) (input : Input) (up : Bool) :
    Tells 0 (bluetoothSetUp hci input up : ActionResult LongDouble) := by
  rw [bluetoothSetUp]
  split
  · exact tells_nothing _ _
  · split
    · exact tells_nothing _ _
    · split
      · exact tells_nothing _ _
      · split <;> exact tells_nothing _ _

theorem tells_bluetoothDiscoverDevices (readCommandOutput : Text → Option Text) (output : Bool) :
    Tells Bluez.bluetoothMaxDevices
      (bluetoothDiscoverDevicesBackend readCommandOutput output : ActionResult LongDouble) := by
  rw [bluetoothDiscoverDevicesBackend]
  split
  · exact tells_nothing _ _
  · split
    · exact tells_nothing _ _
    · rename_i scanOutput _
      have hlen : (appendKnownDevices readCommandOutput
          (Bluez.parseScanOutput [] (some scanOutput))).length ≤ Bluez.bluetoothMaxDevices :=
        appendKnownDevices_length (parseScanOutput_length (Nat.zero_le _) _)
      generalize appendKnownDevices readCommandOutput _ = discovered at *
      have htells := @tells_records LongDouble _ .success (discovered.mapIdx fun i entry =>
        .bluetoothDevice (.ofNat i)
          (Bluez.enrichDeviceInfo readCommandOutput (Bluez.discoveredDevice entry)))
        (List.length_mapIdx.trans_le hlen) fun h => absurd rfl h
      rwa [List.length_mapIdx] at htells

theorem tells_wifiGetMyDevice (wifi : WifiCalls) (output : Bool) :
    Tells wifiMaxDevices (wifiGetMyDevice wifi output : ActionResult LongDouble) := by
  rw [wifiGetMyDevice]
  split
  · exact tells_nothing _ _
  · split
    · exact tells_nothing _ _
    · split
      · exact tells_nothing _ _
      · exact tells_fill _ _

theorem tells_wifiIsUp (wifi : WifiCalls) (output : Bool) :
    Tells 1 (wifiIsUp wifi output : ActionResult LongDouble) := by
  rw [wifiIsUp]
  split
  · exact tells_nothing _ _
  · rcases findWirelessInterface wifi with ⟨found, ifname⟩
    dsimp only
    split
    · exact tells_nothing _ _
    · split
      · exact tells_nothing _ _
      · split
        · exact tells_nothing _ _
        · exact tells_up _

theorem tells_wifiSetUp (wifi : WifiCalls) (up : Bool) :
    Tells 0 (wifiSetUp wifi up : ActionResult LongDouble) := by
  rw [wifiSetUp]
  rcases findWirelessInterface wifi with ⟨found, ifname⟩
  dsimp only
  split
  · exact tells_nothing _ _
  · split
    · exact tells_nothing _ _
    · split <;> exact tells_nothing _ _

theorem tells_wifiDiscoverDevicesNl80211 (wifi : WifiCalls) (ifname : Text) (output : Bool) :
    Tells wifiMaxDevices
      (wifiDiscoverDevicesNl80211 wifi ifname output : ActionResult LongDouble) := by
  rw [wifiDiscoverDevicesNl80211]
  iterate 6
    split
    · exact tells_nothing _ _
  rcases wifi.fetchScanResults with ⟨fetchStatus, networks⟩
  dsimp only
  split
  · exact tells_nothing _ _
  · have hlen : ((networks.take (min networks.length wifiMaxDevices)).map fun net =>
        (Record.wifiDevice (networkDevice net) : Record LongDouble)).length =
        min networks.length wifiMaxDevices := by
      rw [List.length_map, List.length_take, Nat.min_eq_left (min_le_left _ _)]
    generalize (networks.take _).map _ = devices at *
    have htells := @tells_found LongDouble wifiMaxDevices _ (zipIdx_places devices)
      (by rw [List.length_zipIdx, hlen]; exact min_le_right _ _)
    rwa [List.length_zipIdx, hlen] at htells

theorem tells_wifiDiscoverDevices (wifi : WifiCalls) (output : Bool) :
    Tells wifiMaxDevices (wifiDiscoverDevices wifi output : ActionResult LongDouble) := by
  rw [wifiDiscoverDevices]
  split
  · exact tells_nothing _ _
  · rcases findWirelessInterface wifi with ⟨found, ifname⟩
    dsimp only
    split
    · exact tells_nothing _ _
    · exact tells_wifiDiscoverDevicesNl80211 wifi ifname output

theorem tells_commsRuntimeDiscoverLinks (runtime : Option (List ActiveLink))
    (instrumentType : InstrumentType) (output : Bool) :
    Tells commsMaxLinks
      (commsRuntimeDiscoverLinks runtime instrumentType output : ActionResult LongDouble) := by
  cases runtime with
  | none => exact tells_nothing _ _
  | some activeLinks =>
    simp only [commsRuntimeDiscoverLinks]
    split
    · exact tells_nothing _ _
    · have hlen := @outputLinks_length instrumentType activeLinks [] (Nat.zero_le _)
      generalize outputLinks instrumentType activeLinks [] = result at *
      obtain ⟨status, links⟩ := result
      have htells := @tells_records LongDouble _ .success (links.map Record.link)
        ((List.length_map Record.link).trans_le hlen) fun h => absurd rfl h
      rw [List.length_map] at htells
      by_cases hstatus : status = .success
      · rw [hstatus]
        exact htells
      · simp only [if_neg hstatus]
        exact ⟨⟨fun h => absurd h hstatus, fun h => absurd h hstatus, htells.counts.within⟩,
          fun _ => rfl⟩

/-! ## The reports of gpsd -/

def isTpv (line : Text) : Bool := (strstr (ascii "\"class\":\"TPV\"") line).isSome

def isPoll (line : Text) : Bool := (strstr (ascii "\"class\":\"POLL\"") line).isSome

section Gpsd

variable {C : Gps.Libc LongDouble}

theorem gpsParseTpv_isSome (line : Text) (position : Gps.PositionInfo LongDouble) :
    (Gps.gpsParseTpv C line position).isSome = isTpv line := by
  rw [Gps.gpsParseTpv, isTpv]
  cases strstr (ascii "\"class\":\"TPV\"") line with
  | none => rfl
  | some found => rw [if_neg (Option.some_ne_none found), Option.isSome_some, Option.isSome_some]

theorem poll_sawPoll (reading : Gps.Reading LongDouble) (line : Text) :
    (reading.poll line).sawPoll = (reading.sawPoll || isPoll line) := by
  rw [Gps.Reading.poll, Gps.gpsParsePoll, isPoll]
  cases strstr (ascii "\"class\":\"POLL\"") line with
  | none => simp
  | some found => simp

theorem foldl_poll_sawPoll (reading : Gps.Reading LongDouble) (lines : List Text) :
    (lines.foldl Gps.Reading.poll reading).sawPoll = (reading.sawPoll || lines.any isPoll) := by
  induction lines generalizing reading with
  | nil => rw [List.foldl_nil, List.any_nil, Bool.or_false]
  | cons line lines ih => rw [List.foldl_cons, ih, poll_sawPoll, List.any_cons, Bool.or_assoc]

theorem any_tpv (lines : List Text) (position : Gps.PositionInfo LongDouble) :
    (lines.findSome? fun line => Gps.gpsParseTpv C line position).isSome = lines.any isTpv := by
  induction lines with
  | nil => rfl
  | cons line lines ih =>
    have hline := @gpsParseTpv_isSome _ C line position
    rw [List.findSome?_cons, List.any_cons, ← hline]
    cases Gps.gpsParseTpv C line position with
    | some _ => rfl
    | none => rw [ih, Option.isSome_none, Bool.false_or]

theorem streamResult_status (stream : Text) :
    (Gps.streamResult C stream).status = .success ↔
      ∃ line ∈ Gps.usableLines stream, isTpv line ∨ isPoll line := by
  have htpv := @any_tpv _ C (Gps.usableLines stream) (Gps.startReading C).position
  have hsplit : (∃ line ∈ Gps.usableLines stream, isTpv line ∨ isPoll line) ↔
      (Gps.usableLines stream).any isTpv = true ∨ (Gps.usableLines stream).any isPoll = true := by
    simp only [List.any_eq_true, and_or_left, exists_or]
  rw [hsplit, ← htpv, Gps.streamResult]
  cases (Gps.usableLines stream).findSome? fun line =>
      Gps.gpsParseTpv C line (Gps.startReading C).position with
  | some position => exact iff_of_true rfl (Or.inl rfl)
  | none =>
    have hpoll := foldl_poll_sawPoll (Gps.startReading C) (Gps.usableLines stream)
    rw [Gps.startReading, Bool.false_or] at hpoll
    simp only [Gps.Reading.result, Gps.startReading, hpoll, Option.isSome_none, Bool.false_eq_true,
      false_or]
    cases (Gps.usableLines stream).any isPoll <;> simp

theorem streamResult_written (stream : Text) : (Gps.streamResult C stream).outputLen = some 1 ∧
    ∃ position, (Gps.streamResult C stream).position = some position := by
  rw [Gps.streamResult]
  cases (Gps.usableLines stream).findSome? fun line =>
      Gps.gpsParseTpv C line (Gps.startReading C).position with
  | some position => exact ⟨rfl, position, rfl⟩
  | none => exact ⟨rfl, _, rfl⟩

/-- The calls before the receive loop succeed. -/
structure Asked (gpsd : Gps.Gpsd) : Prop where
  socket : gpsd.socket = true
  inetPton : gpsd.inetPton = true
  connect : gpsd.connect = true
  send : gpsd.send = true

theorem gpsGetPosition_asked {calls : SystemCalls} (h : Asked calls.gpsd) :
    Gps.gpsGetPosition C true calls.gpsd calls.recvBuffer =
      some (Gps.streamResult C calls.gpsd.pieces.flatten) := by
  simp only [Gps.gpsGetPosition, Gps.receive_stream calls.pieces_ne, h.socket, h.inetPton, h.connect,
    h.send, Bool.not_true, Bool.or_self, Bool.false_eq_true, if_false, Option.map_some,
    Gps.streamResult_eq]

theorem gpsGetPosition_not_asked {calls : SystemCalls} {output : Bool}
    (h : ¬ (output = true ∧ Asked calls.gpsd)) :
    ∃ status, Gps.gpsGetPosition C output calls.gpsd calls.recvBuffer = some { status } := by
  rw [Gps.gpsGetPosition]
  split
  · exact ⟨_, rfl⟩
  · rename_i hfirst
    simp only [Bool.or_eq_true, Bool.not_eq_true', not_or, Bool.not_eq_false] at hfirst
    split
    · exact ⟨_, rfl⟩
    · rename_i hconnect
      split
      · exact ⟨_, rfl⟩
      · rename_i hsend
        exact absurd ⟨hfirst.1.1, hfirst.1.2, hfirst.2, by simpa using hconnect, by simpa using hsend⟩ h

end Gpsd

/-! ## Every action -/

/-- gpsd is asked for a position and its stream ends without a report. -/
structure NoReport (calls : SystemCalls) (action : InstrumentAction) (outputData : Bool) : Prop where
  action : action = .gpsGetPosition
  outputData : outputData = true
  asked : Asked calls.gpsd
  silent : ∀ line ∈ Gps.usableLines calls.gpsd.pieces.flatten, isTpv line = false ∧ isPoll line = false

theorem tells_performAction {C : Gps.Libc LongDouble} {ba2str : Bluetooth.Bdaddr → Text}
    {calls : SystemCalls} {action : InstrumentAction} (input : Input) (output : Bool)
    (haction : action ≠ .gpsGetPosition) :
    ∃ r, performAction C ba2str calls action input output = some r ∧ Tells (maxRecords action) r := by
  cases action with
  | bluetoothGetAdapterInfo => exact ⟨_, rfl, tells_bluetoothGetAdapterInfo _ _ _⟩
  | bluetoothDiscoverDevices => exact ⟨_, rfl, tells_bluetoothDiscoverDevices _ _⟩
  | bluetoothIsUp => exact ⟨_, rfl, tells_bluetoothIsUp _ _ _⟩
  | bluetoothTurnOn | bluetoothTurnOff => exact ⟨_, rfl, tells_bluetoothSetUp _ _ _⟩
  | wifiGetMyDevice => exact ⟨_, rfl, tells_wifiGetMyDevice _ _⟩
  | wifiDiscoverDevices => exact ⟨_, rfl, tells_wifiDiscoverDevices _ _⟩
  | wifiIsUp => exact ⟨_, rfl, tells_wifiIsUp _ _⟩
  | wifiTurnOn | wifiTurnOff => exact ⟨_, rfl, tells_wifiSetUp _ _⟩
  | bluetoothDiscoverBratislavaLinks | wifiDiscoverBratislavaLinks | commsDiscoverBratislavaLinks =>
    exact ⟨_, rfl, tells_commsRuntimeDiscoverLinks _ _ _⟩
  | bluetoothScanOn | bluetoothScanOff | wifiScanOn | wifiScanOff | other =>
    exact ⟨_, rfl, tells_nothing _ _⟩
  | gpsGetPosition => exact absurd rfl haction

theorem performAction_gps {C : Gps.Libc LongDouble} {ba2str : Bluetooth.Bdaddr → Text}
    {calls : SystemCalls} (input : Input) (output : Bool) :
    ∃ r, performAction C ba2str calls .gpsGetPosition input output = some r ∧
      Counts 1 (r.outputLen.getD 0) r ∧
      ((r.status ≠ .success → r.outputLen.getD 0 = 0) ↔
        ¬ NoReport calls .gpsGetPosition output) := by
  by_cases hasked : output = true ∧ Asked calls.gpsd
  · obtain ⟨rfl, hasked⟩ := hasked
    obtain ⟨hlen, position, hposition⟩ := @streamResult_written _ C calls.gpsd.pieces.flatten
    have hstatus := @streamResult_status _ C calls.gpsd.pieces.flatten
    refine ⟨positionResult (Gps.streamResult C calls.gpsd.pieces.flatten),
      by rw [performAction, gpsGetPosition, gpsGetPosition_asked hasked, Option.map_some], ?_⟩
    have hwritten : (positionResult (Gps.streamResult C calls.gpsd.pieces.flatten)).written =
        [(.position position, 0)] := by
      rw [positionResult, hposition]
      rfl
    rw [show (positionResult _).outputLen = _ from hlen, Option.getD_some]
    refine ⟨⟨fun _ => by rw [hwritten]; rfl, fun _ => le_rfl, fun w hw => ?_⟩, ?_⟩
    · rw [hwritten, List.mem_singleton] at hw
      rw [hw]
      exact Nat.one_pos
    · constructor
      · intro hzero hnone
        refine one_ne_zero (hzero fun hsuccess => ?_)
        obtain ⟨line, hline, hreport⟩ := hstatus.mp hsuccess
        obtain ⟨htpv, hpoll⟩ := hnone.silent line hline
        rcases hreport with hreport | hreport
        · exact Bool.false_ne_true (htpv.symm.trans hreport)
        · exact Bool.false_ne_true (hpoll.symm.trans hreport)
      · intro hreport hfailed
        refine absurd ⟨rfl, rfl, hasked, fun line hline => ?_⟩ hreport
        have hnot : ¬ (isTpv line = true ∨ isPoll line = true) := fun h =>
          hfailed (hstatus.mpr ⟨line, hline, h⟩)
        rw [not_or, Bool.not_eq_true, Bool.not_eq_true] at hnot
        exact hnot
  · obtain ⟨status, hresult⟩ := @gpsGetPosition_not_asked _ C calls output hasked
    have htells := @tells_nothing LongDouble 1 status
    refine ⟨{ status }, by rw [performAction, gpsGetPosition, hresult]; rfl, htells.counts,
      iff_of_true htells.failed ?_⟩
    exact fun h => hasked ⟨h.outputData, h.asked⟩

/-- Every action counts its records within the maximum, and it leaves no count behind on failure exactly
if gpsd has not been asked in vain. -/
theorem output_len_zero_on_failure_iff (C : Gps.Libc LongDouble) (ba2str : Bluetooth.Bdaddr → Text)
    (calls : SystemCalls) (action : InstrumentAction) (input : Input) (outputData : Bool) :
    ∃ r n, instrumentActionImpl C ba2str calls action input outputData true = some r ∧
      r.outputLen = some n ∧ Counts (maxRecords action) n r ∧
      ((r.status ≠ .success → n = 0) ↔ ¬ NoReport calls action outputData) := by
  have hperform : ∃ r, performAction C ba2str calls action input outputData = some r ∧
      Counts (maxRecords action) (r.outputLen.getD 0) r ∧
      ((r.status ≠ .success → r.outputLen.getD 0 = 0) ↔ ¬ NoReport calls action outputData) := by
    by_cases haction : action = .gpsGetPosition
    · rw [haction]
      exact performAction_gps input outputData
    · obtain ⟨r, hr, htells⟩ := @tells_performAction _ C ba2str calls _ input outputData haction
      exact ⟨r, hr, htells.counts, iff_of_true htells.failed fun h => haction h.action⟩
  obtain ⟨r, hr, hcounts, hfailed⟩ := hperform
  refine ⟨{ r with outputLen := some (r.outputLen.getD 0) }, r.outputLen.getD 0, ?_, rfl,
    ⟨hcounts.counted, hcounts.bounded, hcounts.within⟩, hfailed⟩
  rw [instrumentActionImpl, Bool.and_true, hr]
  rfl

/-- A daemon that introduces itself and closes the connection. -/
def onlyVersion : SystemCalls where
  hci := ⟨false, true, none, fun _ => none, fun _ _ => false, false⟩
  wifi := ⟨false, none, false, fun _ => none, fun _ _ => false, fun _ => 0, false, false, false, .error,
    (.error, [])⟩
  readCommandOutput _ := none
  runtime := none
  gpsd := { pieces := [ascii "\x7b\"class\":\"VERSION\"\x7d\n"] }
  pieces_ne := by decide
  recvBuffer := ⟨List.replicate 4096 0, List.length_replicate⟩

/-- The status is an error, and one record is counted. -/
theorem output_len_one_on_failure :
    (instrumentActionImpl (⟨7, id, []⟩ : Gps.Libc Text) (fun _ => []) onlyVersion .gpsGetPosition
      ⟨none, 0⟩ true true).map (fun r => (r.status, r.outputLen)) = some (.error, some 1) := by
  decide +kernel

end SensorLib.Instrument
