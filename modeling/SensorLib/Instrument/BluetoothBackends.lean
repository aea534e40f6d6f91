import SensorLib.Bluez.DeviceClass
import SensorLib.Instrument.Actions

/-! # The two backends of the Bluetooth discovery

The library is built with one of two scanners. One asks the HCI device for an
inquiry, the other reads what bluetoothctl prints.
-/

namespace SensorLib.Instrument

open Bluez Comms CString

variable {LongDouble : Type}

/-! ## The scanner on the HCI device -/

structure InquiryInfo where
  bdaddr : Bluetooth.Bdaddr
  devClass : UInt8 × UInt8 × UInt8
  deriving DecidableEq, Repr

/-- The calls of the BlueZ library. -/
structure HciLibrary where
  getRoute : Int
  inquiry : Int → Option (List InquiryInfo)
  openDev : Int → Int
  readRemoteName : Bluetooth.Bdaddr → Option Text

def inquiryDevice (input : Input) (hci : HciLibrary) : Int :=
  match input.adapterId with
  | none => hci.getRoute
  | some id => if 0 < input.len then id.toNat else hci.getRoute

def remoteName (hci : HciLibrary) (devFd : Int) (bdaddr : Bluetooth.Bdaddr) : Text :=
  if 0 ≤ devFd then ((hci.readRemoteName bdaddr).map (copyString 256)).getD [] else []

def inquiredDevice (ba2str : Bluetooth.Bdaddr → Text) (hci : HciLibrary) (devFd : Int)
    (result : InquiryInfo) : Bluez.BluetoothDeviceInfoBase where
  macAddress := ba2str result.bdaddr
  name := remoteName hci devFd result.bdaddr
  devClass := result.devClass
  major := bluetoothMajorFromClass result.devClass
  rssi := ⟨0, false⟩

def hciDiscoverDevicesBackend (ba2str : Bluetooth.Bdaddr → Text) (hci : HciLibrary) (input : Input)
    (output : Bool) : ActionResult LongDouble :=
  if !output then { status := .error }
  else
    let devId := inquiryDevice input hci
    if devId < 0 then { status := .notSupported }
    else
      match hci.inquiry devId with
      | none => { status := .error }
      | some results =>
        let devFd := hci.openDev devId
        let found := results.take bluetoothMaxDevices
        { status := .success
          outputLen := some found.length
          written := (found.mapIdx fun i result =>
            .bluetoothDevice (.ofNat i) (inquiredDevice ba2str hci devFd result)).zipIdx }

/-! ## What bluetoothctl prints -/

/-- A device that is named, with a name that can be told from the values of its properties. -/
structure Peer where
  address : Bluetooth.Bdaddr
  name : Text
  devClass : UInt8 × UInt8 × UInt8
  named : name ≠ []
  clean : cleaned name = name
  noMetadata : isMetadata name = false

/-- What a line tells behind the MAC text of a device. -/
structure Mention where
  mac : Text
  rest : Text

/-- The lines mention these devices one after the other. They may have control sequences in them,
and any tag in front of the device; other lines name none. -/
inductive Mentions : List Text → List Mention → Prop
  | nil : Mentions [] []
  | device {line : Text} {lines : List Text} {m : Mention} {ms : List Mention} (tag : Text)
      (htag : 68 ∉ tag) (hmac : looksLikeMac m.mac) (hlength : m.mac.length = 17)
      (hline : stripped line = tag ++ (ascii "Device " ++ (m.mac ++ 32 :: m.rest)))
      (hnul : 0 ∉ line) (hnewline : 10 ∉ line) (hlines : Mentions lines ms) :
      Mentions (line :: lines) (m :: ms)
  | other {line : Text} {lines : List Text} {ms : List Mention}
      (hother : ¬ ascii "Device " <:+: stripped line) (hnul : 0 ∉ line) (hnewline : 10 ∉ line)
      (hlines : Mentions lines ms) : Mentions (line :: lines) ms

def printed (lines : List Text) : Text := lines.flatMap fun line => line ++ [10]

/-- The entry that a mention makes. -/
def Mention.entry (m : Mention) : BluezScanEntry := ⟨m.mac, parseName (32 :: m.rest)⟩

theorem tokens_line {line : Text} (hline : 10 ∉ line) :
    tokens line = if line = [] then [] else [line] := by
  apply wordsBy_of_forall
  intro b hb
  rw [beq_eq_false_iff_ne]
  rintro rfl
  exact hline hb

theorem accepted_printed_cons {line : Text} (hnewline : 10 ∉ line) (hnul : 0 ∉ line)
    (lines : List Text) : accepted (some (printed (line :: lines))) =
      (parseScanLine (stripped line)).toList ++ accepted (some (printed lines)) := by
  have hprinted : printed (line :: lines) = line ++ 10 :: printed lines := by
    simp [printed]
  rw [accepted_eq, accepted_eq, Option.getD_some, Option.getD_some, hprinted, tokens_append,
    List.filterMap_append, tokens_line hnewline]
  congr 1
  split
  · rename_i hnil
    subst hnil
    rfl
  · rw [List.filterMap_cons, acceptLine, stripLine_eq hnul]
    cases parseScanLine (stripped line) <;> rfl

theorem strstr_device {tag : Text} (htag : 68 ∉ tag) (rest : Text) :
    strstr (ascii "Device ") (tag ++ (ascii "Device " ++ rest)) = some (ascii "Device " ++ rest) := by
  induction tag with
  | nil => exact strstr_eq_self (List.prefix_append _ _)
  | cons b tag ih =>
    rw [List.mem_cons, not_or] at htag
    rw [List.cons_append, strstr_cons_eq_tail, ih htag.2]
    intro hprefix
    exact htag.1 (List.cons_prefix_cons.mp hprefix).1

theorem parseScanLine_device {tag : Text} (htag : 68 ∉ tag) {m : Mention} (hmac : looksLikeMac m.mac)
    (hlength : m.mac.length = 17) :
    parseScanLine (tag ++ (ascii "Device " ++ (m.mac ++ 32 :: m.rest))) = some m.entry := by
  have hcopy : copyString 18 m.mac = m.mac := List.take_of_length_le hlength.le
  have htake : copyString 18 (m.mac ++ 32 :: m.rest) = m.mac := List.take_left' hlength
  have hdrop : (m.mac ++ 32 :: m.rest).drop 17 = 32 :: m.rest := List.drop_left' hlength
  simp only [parseScanLine, strstr_device htag, Option.bind_eq_bind, Option.bind_some, List.drop_left,
    htake, hcopy, hdrop, hmac, if_true]
  rfl

theorem parseScanLine_other {line : Text} (h : ¬ ascii "Device " <:+: line) :
    parseScanLine line = none := by
  cases hfound : strstr (ascii "Device ") line with
  | none =>
    rw [parseScanLine, hfound]
    rfl
  | some found =>
    exact absurd ((prefix_of_strstr hfound).isInfix.trans (strstr_suffix hfound).isInfix) h

/-- What is printed is read back. -/
theorem accepted_printed {lines : List Text} {ms : List Mention} (h : Mentions lines ms) :
    accepted (some (printed lines)) = ms.map Mention.entry := by
  induction h with
  | nil => rfl
  | device tag htag hmac hlength hline hnul hnewline _ ih =>
    rw [accepted_printed_cons hnewline hnul, hline, parseScanLine_device htag hmac hlength, ih]
    rfl
  | other hother hnul hnewline _ ih =>
    rw [accepted_printed_cons hnewline hnul, parseScanLine_other hother, ih]
    rfl

/-! ## The devices that both see -/

/-- Each device is first mentioned by its name, and the devices in this order. -/
structure Announces (ba2str : Bluetooth.Bdaddr → Text) (ms : List Mention) (peers : List Peer) :
    Prop where
  order : (ms.map Mention.mac).eraseDups = peers.map fun p => ba2str p.address
  first : ∀ p ∈ peers, (ms.find? (·.mac = ba2str p.address)).map Mention.rest = some p.name

/-- The properties of a device, its class among them. -/
structure Describes (info : Text) (p : Peer) (blanks digits rest : Text) (n : Nat) : Prop where
  line : strstr (ascii "\tClass:") info =
    some (ascii "\tClass:" ++ (blanks ++ (ascii "0x" ++ (digits ++ rest))))
  blank : ∀ b ∈ blanks, isspace b
  digits : HexOf digits n
  small : n < 0x100000000
  ends : ∀ b ∈ rest.head?, isxdigit b = false
  number : classNumber p.devClass = n % 0x1000000

/-- What bluetoothctl prints while the devices are around. The list of known devices may fail. -/
structure Prints (ba2str : Bluetooth.Bdaddr → Text) (readCommandOutput : Text → Option Text)
    (peers : List Peer) : Prop where
  scan : ∃ scanLines scanned known, Mentions scanLines scanned ∧
    readCommandOutput (ascii "bluetoothctl --timeout 6 scan on 2>/dev/null") =
      some (printed scanLines) ∧
    (known = [] ∧ readCommandOutput (ascii "bluetoothctl --timeout 5 devices 2>/dev/null") = none ∨
      ∃ knownLines, Mentions knownLines known ∧
        readCommandOutput (ascii "bluetoothctl --timeout 5 devices 2>/dev/null") =
          some (printed knownLines)) ∧
    Announces ba2str (scanned ++ known) peers
  info : ∀ p ∈ peers, ∃ info blanks digits rest n,
    readCommandOutput (infoCommand (ba2str p.address)) = some info ∧
      Describes info p blanks digits rest n

/-- An inquiry of the HCI device finds the devices, and they tell their names. -/
structure Inquires (hci : HciLibrary) (input : Input) (peers : List Peer) : Prop where
  device : 0 ≤ inquiryDevice input hci
  inquiry : hci.inquiry (inquiryDevice input hci) =
    some (peers.map fun p => ⟨p.address, p.devClass⟩)
  opened : 0 ≤ hci.openDev (inquiryDevice input hci)
  names : ∀ p ∈ peers, hci.readRemoteName p.address = some p.name

def forgetRssi (device : Bluez.BluetoothDeviceInfoBase) : Bluez.BluetoothDeviceInfoBase :=
  { device with rssi := ⟨0, false⟩ }

def Record.withoutRssi : Record LongDouble → Record LongDouble
  | .bluetoothDevice id device => .bluetoothDevice id (forgetRssi device)
  | r => r

def ActionResult.withoutRssi (r : ActionResult LongDouble) : ActionResult LongDouble :=
  { r with written := r.written.map fun w => (w.1.withoutRssi, w.2) }

/-- What both backends report of a device. -/
def Peer.record (ba2str : Bluetooth.Bdaddr → Text) (p : Peer) : Bluez.BluetoothDeviceInfoBase where
  macAddress := ba2str p.address
  name := p.name
  devClass := p.devClass
  major := bluetoothMajorFromClass p.devClass
  rssi := ⟨0, false⟩

theorem Peer.copyString_name (p : Peer) : copyString 256 p.name = p.name := by
  apply List.take_of_length_le
  have hshort : (cleaned p.name).length ≤ 255 := by
    rw [cleaned]
    apply (List.rdropWhile_prefix _ _).length_le.trans
    rw [List.length_take]
    exact Nat.min_le_left _ _
  rwa [p.clean] at hshort

theorem Peer.parseName_name (p : Peer) : parseName (32 :: p.name) = p.name := by
  rw [parseName_space, p.noMetadata, p.clean]
  rfl

/-! ## The backend on the HCI device -/

theorem inquiredDevice_peer {ba2str : Bluetooth.Bdaddr → Text} {hci : HciLibrary} {devFd : Int}
    (hopened : 0 ≤ devFd) {p : Peer} (hname : hci.readRemoteName p.address = some p.name) :
    inquiredDevice ba2str hci devFd ⟨p.address, p.devClass⟩ = p.record ba2str := by
  rw [inquiredDevice, remoteName, if_pos hopened, hname, Option.map_some, Option.getD_some,
    p.copyString_name, Peer.record]

theorem hciDiscoverDevicesBackend_peers {ba2str : Bluetooth.Bdaddr → Text} {hci : HciLibrary}
    {input : Input} {peers : List Peer} (hroom : peers.length ≤ bluetoothMaxDevices)
    (h : Inquires hci input peers) :
    (hciDiscoverDevicesBackend ba2str hci input true : ActionResult LongDouble) =
      { status := .success
        outputLen := some peers.length
        written := (peers.mapIdx fun i p => .bluetoothDevice (.ofNat i) (p.record ba2str)).zipIdx } := by
  have hfound : ∀ f : Peer → InquiryInfo, (peers.map f).take bluetoothMaxDevices = peers.map f := by
    intro f
    apply List.take_of_length_le
    rwa [List.length_map]
  have hrecords : ((peers.map fun p => (⟨p.address, p.devClass⟩ : InquiryInfo)).mapIdx fun i result =>
      (Record.bluetoothDevice (.ofNat i) (inquiredDevice ba2str hci
        (hci.openDev (inquiryDevice input hci)) result) : Record LongDouble)) =
      peers.mapIdx fun i p => .bluetoothDevice (.ofNat i) (p.record ba2str) := by
    apply List.ext_getElem?
    intro i
    rw [List.getElem?_mapIdx, List.getElem?_mapIdx, List.getElem?_map]
    cases hp : peers[i]? with
    | none => rfl
    | some p =>
      have hname := h.names p (List.mem_of_getElem? hp)
      rw [Option.map_some, Option.map_some, Option.map_some, inquiredDevice_peer h.opened hname]
  simp only [hciDiscoverDevicesBackend, Bool.not_true, Bool.false_eq_true, if_false,
    if_neg (Int.not_lt.mpr h.device), h.inquiry, hfound, hrecords, List.length_map]

/-! ## The backend on bluetoothctl -/

theorem enrichFrom_macAddress (info : Text) (device : Bluez.BluetoothDeviceInfoBase) :
    (enrichFrom info device).macAddress = device.macAddress := by
  have hname : (parseNameProperty info device).macAddress = device.macAddress := by
    rw [parseNameProperty]
    split
    · rfl
    · split <;> rfl
  rw [enrichFrom, parseRssiProperty, parseClassProperty]
  split <;> split <;> exact hname

theorem classNumber_injective {devClass devClass' : UInt8 × UInt8 × UInt8}
    (h : classNumber devClass = classNumber devClass') : devClass = devClass' := by
  obtain ⟨low, middle, high⟩ := devClass
  obtain ⟨low', middle', high'⟩ := devClass'
  have := low.toNat_lt
  have := middle.toNat_lt
  have := high.toNat_lt
  have := low'.toNat_lt
  have := middle'.toNat_lt
  have := high'.toNat_lt
  simp only [classNumber] at h
  rw [Prod.mk.injEq, Prod.mk.injEq]
  refine ⟨UInt8.toNat_inj.mp ?_, UInt8.toNat_inj.mp ?_, UInt8.toNat_inj.mp ?_⟩ <;> omega

theorem enrichFrom_peer {ba2str : Bluetooth.Bdaddr → Text} {info blanks digits rest : Text} {n : Nat}
    {p : Peer} (h : Describes info p blanks digits rest n) {device : Bluez.BluetoothDeviceInfoBase}
    (hmac : device.macAddress = ba2str p.address) (hname : device.name = p.name) :
    forgetRssi (enrichFrom info device) = p.record ba2str := by
  have hparsed := parsedClass_tagged h.line h.blank h.digits h.small h.ends
  have hclass := enrichFrom_class info device
  rw [hparsed, Option.map_some, Option.getD_some, Prod.mk.injEq] at hclass
  have hbytes : (classOf n).1 = p.devClass :=
    classNumber_injective ((classNumber_classOf n).trans h.number.symm)
  have hmajor : (classOf n).2 = bluetoothMajorFromClass p.devClass := by
    apply bluetoothMajorFromCod_eq
    rw [h.number, UInt32.toNat_ofNat_of_lt' h.small]
  have hkept : (enrichFrom info device).name = device.name := name_kept (hname ▸ p.named)
  simp only [forgetRssi, Peer.record, enrichFrom_macAddress, hkept, hclass, hbytes, hmajor, hmac, hname]

/-- The first mention of a device gives it its name. -/
theorem nameOf_mentions {ms : List Mention} {mac : Text} {p : Peer}
    (h : (ms.find? (·.mac = mac)).map Mention.rest = some p.name) :
    nameOf (ms.map Mention.entry) mac = p.name := by
  induction ms with
  | nil => cases h
  | cons m ms ih =>
    by_cases hmac : m.mac = mac
    · rw [List.find?_cons_of_pos (by simpa using hmac), Option.map_some, Option.some.injEq] at h
      have hentry : m.entry.macAddress = mac := hmac
      have hname : m.entry.name = p.name := by
        rw [Mention.entry, h, p.parseName_name]
      rw [nameOf, List.map_cons, List.filter_cons_of_pos (by simpa using hentry), List.map_cons,
        List.find?_cons_of_pos (by simpa [hname] using p.named), Option.getD_some, hname]
    · rw [List.find?_cons_of_neg (by simpa using hmac)] at h
      have hentry : m.entry.macAddress ≠ mac := hmac
      rw [nameOf, List.map_cons, List.filter_cons_of_neg (by simpa using hentry), ← nameOf]
      exact ih h

/-- The table has the devices, each with its name. -/
theorem scanTable_announced {ba2str : Bluetooth.Bdaddr → Text} {ms : List Mention}
    {peers : List Peer} (hroom : peers.length ≤ bluetoothMaxDevices) (h : Announces ba2str ms peers) :
    scanTable (ms.map Mention.entry) = peers.map fun p => ⟨ba2str p.address, p.name⟩ := by
  have hlisted : listedMacs (ms.map Mention.entry) = peers.map fun p => ba2str p.address := by
    rw [listedMacs, List.map_map]
    show ((ms.map Mention.mac).eraseDups).take bluetoothMaxDevices = _
    rw [h.order]
    apply List.take_of_length_le
    rwa [List.length_map]
  rw [scanTable, hlisted, List.map_map]
  apply List.map_congr_left
  intro p hp
  rw [Function.comp_apply, nameOf_mentions (h.first p hp)]

theorem Mentions.length_mac {lines : List Text} {ms : List Mention} (h : Mentions lines ms) :
    ∀ m ∈ ms, m.mac.length = 17 := by
  induction h with
  | nil => simp
  | device tag htag hmac hlength hline hnul hnewline _ ih => exact List.forall_mem_cons.mpr ⟨hlength, ih⟩
  | other _ _ _ _ ih => exact ih

theorem bluetoothDiscoverDevicesBackend_peers {ba2str : Bluetooth.Bdaddr → Text}
    {readCommandOutput : Text → Option Text} {peers : List Peer}
    (hroom : peers.length ≤ bluetoothMaxDevices) (h : Prints ba2str readCommandOutput peers) :
    (bluetoothDiscoverDevicesBackend readCommandOutput true : ActionResult LongDouble).withoutRssi =
      { status := .success
        outputLen := some peers.length
        written := (peers.mapIdx fun i p => .bluetoothDevice (.ofNat i) (p.record ba2str)).zipIdx } := by
  obtain ⟨scanLines, scanned, known, hscanned, hscan, hknown, hannounced⟩ := h.scan
  have htable : appendKnownDevices readCommandOutput
      (parseScanOutput [] (some (printed scanLines))) =
        peers.map fun p => ⟨ba2str p.address, p.name⟩ := by
    have hfirst : parseScanOutput [] (some (printed scanLines)) =
        scanTable (scanned.map Mention.entry) := by
      have hempty := parseScanOutput_scanTable [] (some (printed scanLines))
      rwa [List.nil_append, accepted_printed hscanned] at hempty
    rw [← scanTable_announced hroom hannounced, hfirst, appendKnownDevices]
    rcases hknown with ⟨rfl, hfails⟩ | ⟨knownLines, hknown, hlists⟩
    · rw [hfails, List.append_nil]
    · rw [hlists]
      dsimp only
      rw [parseScanOutput_scanTable, accepted_printed hknown, List.map_append]
  have hlength : ∀ m ∈ scanned ++ known, m.mac.length = 17 := by
    intro m hm
    rcases List.mem_append.mp hm with hm | hm
    · exact hscanned.length_mac m hm
    · rcases hknown with ⟨rfl, -⟩ | ⟨knownLines, hknown, -⟩
      · cases hm
      · exact hknown.length_mac m hm
  have hmacs : ∀ p ∈ peers, (ba2str p.address).length = 17 := by
    intro p hp
    have hmem : ba2str p.address ∈ ((scanned ++ known).map Mention.mac).eraseDups := by
      rw [hannounced.order]
      exact List.mem_map_of_mem hp
    obtain ⟨m, hm, heq⟩ := List.mem_map.mp (List.mem_eraseDups.mp hmem)
    exact heq ▸ hlength m hm
  have hdevice : ∀ p ∈ peers, forgetRssi (enrichDeviceInfo readCommandOutput
      (discoveredDevice ⟨ba2str p.address, p.name⟩)) = p.record ba2str := by
    intro p hp
    obtain ⟨info, blanks, digits, rest, n, hinfo, hdescribes⟩ := h.info p hp
    have hmac : copyString 18 (ba2str p.address) = ba2str p.address :=
      List.take_of_length_le (hmacs p hp).le
    have hcommand : infoCommand (discoveredDevice ⟨ba2str p.address, p.name⟩).macAddress =
        infoCommand (ba2str p.address) := congrArg infoCommand hmac
    rw [enrichDeviceInfo, hcommand, hinfo]
    exact enrichFrom_peer hdescribes hmac p.copyString_name
  have hrecords : ((peers.map fun p => (⟨ba2str p.address, p.name⟩ : BluezScanEntry)).mapIdx
      fun i entry => (Record.bluetoothDevice (.ofNat i)
        (enrichDeviceInfo readCommandOutput (discoveredDevice entry)) : Record LongDouble)).map
          Record.withoutRssi =
      peers.mapIdx fun i p => .bluetoothDevice (.ofNat i) (p.record ba2str) := by
    apply List.ext_getElem?
    intro i
    rw [List.getElem?_map, List.getElem?_mapIdx, List.getElem?_mapIdx, List.getElem?_map]
    cases hp : peers[i]? with
    | none => rfl
    | some p =>
      rw [Option.map_some, Option.map_some, Option.map_some, Option.map_some, Record.withoutRssi,
        hdevice p (List.mem_of_getElem? hp)]
  simp only [bluetoothDiscoverDevicesBackend, Bool.not_true, Bool.false_eq_true, if_false, hscan, htable,
    ActionResult.withoutRssi, List.length_map]
  rw [← hrecords, ← List.map_zipIdx]
  rfl

/-- A telephone, which bluetoothctl announces in colours and then hears again. -/
def telephone : Peer where
  address := ⟨#v[1, 0, 0, 0, 0, 0]⟩
  name := ascii "Pi 4"
  devClass := (0x0C, 0x02, 0x5A)
  named := by decide
  clean := by decide
  noMetadata := by decide

/-- A keyboard that does not answer the scan. Only the list of known devices has it. -/
def keyboard : Peer where
  address := ⟨#v[2, 0, 0, 0, 0, 0]⟩
  name := ascii "Keys"
  devClass := (0x40, 0x05, 0x00)
  named := by decide
  clean := by decide
  noMetadata := by decide

def telephoneMac : Text := ascii "00:00:00:00:00:01"

def keyboardMac : Text := ascii "00:00:00:00:00:02"

/-- `ba2str` of the two addresses. -/
def peerMac (bdaddr : Bluetooth.Bdaddr) : Text :=
  if bdaddr = telephone.address then telephoneMac else keyboardMac

def scanLines : List Text :=
  [ascii "Discovery started",
    27 :: ascii "[0;92m[NEW] " ++ 27 :: ascii "[0mDevice 00:00:00:00:00:01 Pi 4",
    ascii "[CHG] Device 00:00:00:00:00:01 RSSI: -60"]

def knownLines : List Text :=
  [ascii "Device 00:00:00:00:00:01 Pi 4", ascii "Device 00:00:00:00:00:02 Keys"]

def scanMentions : List Mention :=
  [⟨telephoneMac, ascii "Pi 4"⟩, ⟨telephoneMac, ascii "RSSI: -60"⟩]

def knownMentions : List Mention :=
  [⟨telephoneMac, ascii "Pi 4"⟩, ⟨keyboardMac, ascii "Keys"⟩]

def bluetoothctlOutput (command : Text) : Option Text :=
  if command = ascii "bluetoothctl --timeout 6 scan on 2>/dev/null" then some (printed scanLines)
  else if command = ascii "bluetoothctl --timeout 5 devices 2>/dev/null" then
    some (printed knownLines)
  else if command = infoCommand telephoneMac then
    some (ascii "\tName: Pi 4\n\tClass: 0x005a020c\n\tRSSI: -60\n")
  else if command = infoCommand keyboardMac then
    some (ascii "\tName: Keys\n\tClass: 0x00000540\n\tPaired: yes\n")
  else none

def inquiryLibrary : HciLibrary where
  getRoute := 0
  inquiry _ := some [⟨telephone.address, telephone.devClass⟩, ⟨keyboard.address, keyboard.devClass⟩]
  openDev _ := 5
  readRemoteName bdaddr :=
    if bdaddr = telephone.address then some (ascii "Pi 4") else some (ascii "Keys")

theorem mentions_scanLines : Mentions scanLines scanMentions := by
  apply Mentions.other
  · decide +kernel
  · decide +kernel
  · decide +kernel
  apply Mentions.device (ascii "[NEW] ")
  iterate 6
    · decide +kernel
  apply Mentions.device (ascii "[CHG] ")
  iterate 6
    · decide +kernel
  exact .nil

theorem mentions_knownLines : Mentions knownLines knownMentions := by
  apply Mentions.device []
  iterate 6
    · decide +kernel
  apply Mentions.device []
  iterate 6
    · decide +kernel
  exact .nil

theorem forall_twoPeers {P : Peer → Prop} (htelephone : P telephone) (hkeyboard : P keyboard) :
    ∀ p ∈ [telephone, keyboard], P p := by
  intro p hp
  rcases List.mem_cons.mp hp with rfl | hp
  · exact htelephone
  · rw [List.mem_singleton.mp hp]
    exact hkeyboard

theorem announces_twoPeers :
    Announces peerMac (scanMentions ++ knownMentions) [telephone, keyboard] where
  order := by decide +kernel
  first := forall_twoPeers (by decide +kernel) (by decide +kernel)

theorem describes_telephone : Describes (ascii "\tName: Pi 4\n\tClass: 0x005a020c\n\tRSSI: -60\n")
    telephone (ascii " ") (ascii "005a020c") (ascii "\n\tRSSI: -60\n") 0x5A020C := by
  constructor
  · decide +kernel
  · decide +kernel
  · exact ⟨by decide +kernel, by decide +kernel, by decide +kernel⟩
  · decide
  · decide +kernel
  · decide +kernel

theorem describes_keyboard : Describes (ascii "\tName: Keys\n\tClass: 0x00000540\n\tPaired: yes\n")
    keyboard (ascii " ") (ascii "00000540") (ascii "\n\tPaired: yes\n") 0x540 := by
  constructor
  · decide +kernel
  · decide +kernel
  · exact ⟨by decide +kernel, by decide +kernel, by decide +kernel⟩
  · decide
  · decide +kernel
  · decide +kernel

theorem prints_twoPeers : Prints peerMac bluetoothctlOutput [telephone, keyboard] where
  scan := ⟨scanLines, scanMentions, knownMentions, mentions_scanLines, by decide +kernel,
    Or.inr ⟨knownLines, mentions_knownLines, by decide +kernel⟩, announces_twoPeers⟩
  info := forall_twoPeers ⟨_, _, _, _, _, by decide +kernel, describes_telephone⟩
    ⟨_, _, _, _, _, by decide +kernel, describes_keyboard⟩

theorem inquires_twoPeers : Inquires inquiryLibrary ⟨none, 0⟩ [telephone, keyboard] where
  device := by decide
  inquiry := rfl
  opened := by decide
  names := forall_twoPeers rfl rfl

end SensorLib.Instrument
