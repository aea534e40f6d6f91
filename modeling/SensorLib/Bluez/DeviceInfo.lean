import SensorLib.Base.Rssi
import SensorLib.Bluez.DeviceNames
import SensorLib.Text.Numbers

/-! # Properties of a device

What is read of a device from the output of `bluetoothctl info`, a text of many
lines. Each property has a line that begins with a tab and its name.
-/

namespace SensorLib.Bluez

open CString

inductive EBluetoothDeviceMajor
  | miscellaneous | computer | phone | lanAccess | audioVideo | peripheral | imaging | wearable | toy
  | uncategorized
  deriving DecidableEq, Repr

structure BluetoothDeviceInfoBase where
  macAddress : Text
  name : Text
  devClass : UInt8 × UInt8 × UInt8
  major : EBluetoothDeviceMajor
  rssi : BratislavaRssi
  deriving DecidableEq, Repr

def bluetoothMajorFromCod (classOfDevice : UInt32) : EBluetoothDeviceMajor :=
  match ((classOfDevice >>> 8) &&& 0x1F).toNat with
  | 0x00 => .miscellaneous
  | 0x01 => .computer
  | 0x02 => .phone
  | 0x03 => .lanAccess
  | 0x04 => .audioVideo
  | 0x05 => .peripheral
  | 0x06 => .imaging
  | 0x07 => .wearable
  | 0x08 => .toy
  | _ => .uncategorized

/-- The number in the output, if there is one. -/
def parsedClass (infoOutput : Text) : Option Nat := do
  let classLine ← strstr (ascii "\tClass:") infoOutput
  let value ← strstr (ascii "0x") classLine
  strtoul value

def parseClassProperty (infoOutput : Text) (device : BluetoothDeviceInfoBase) :
    BluetoothDeviceInfoBase :=
  match parsedClass infoOutput with
  | none => device
  | some parsed =>
    { device with
      devClass := (.ofNat parsed, .ofNat (parsed >>> 8), .ofNat (parsed >>> 16))
      major := bluetoothMajorFromCod (.ofNat parsed) }

def parsedRssi (infoOutput : Text) : Option Int := do
  let rssiLine ← strstr (ascii "\tRSSI:") infoOutput
  strtol (skipSpaces (rssiLine.drop (ascii "\tRSSI:").length))

def parseRssiProperty (infoOutput : Text) (device : BluetoothDeviceInfoBase) :
    BluetoothDeviceInfoBase :=
  match parsedRssi infoOutput with
  | none => device
  | some parsed => { device with rssi := ⟨toInt16 parsed, true⟩ }

def parseNameProperty (infoOutput : Text) (device : BluetoothDeviceInfoBase) :
    BluetoothDeviceInfoBase :=
  match strstr (ascii "\tName:") infoOutput with
  | none => device
  | some nameLine =>
    if device.name = [] then
      let name := skipSpaces (nameLine.drop (ascii "\tName:").length)
      { device with name := trimTrailingWhitespace (copyString 256 name) }
    else device

def infoCommand (macAddress : Text) : Text :=
  copyString 128 (ascii "bluetoothctl info " ++ macAddress ++ ascii " 2>/dev/null")

/-- The three properties, from an output of the command. -/
def enrichFrom (infoOutput : Text) (device : BluetoothDeviceInfoBase) : BluetoothDeviceInfoBase :=
  parseRssiProperty infoOutput (parseClassProperty infoOutput (parseNameProperty infoOutput device))

/-- `readCommandOutput` is what a command writes, if it succeeds. -/
def enrichDeviceInfo (readCommandOutput : Text → Option Text) (device : BluetoothDeviceInfoBase) :
    BluetoothDeviceInfoBase :=
  match readCommandOutput (infoCommand device.macAddress) with
  | none => device
  | some infoOutput => enrichFrom infoOutput device

/-- A device of the table, before its properties are read. -/
def discoveredDevice (entry : BluezScanEntry) : BluetoothDeviceInfoBase where
  macAddress := copyString 18 entry.macAddress
  name := copyString 256 entry.name
  devClass := (0, 0, 0)
  major := .uncategorized
  rssi := ⟨0, false⟩

/-! ## What belongs to a property -/

/-- The first line of a property has `body` behind its tag. -/
def OwnLine (tag infoOutput body : Text) : Prop :=
  10 ∉ body ∧ ∃ rest, strstr tag infoOutput = some (tag ++ (body ++ rest)) ∧ AfterLine rest

/-- A value is the same for every text with the same line of the property. -/
def Determined {α : Type} (tag : Text) (value : Text → α) (infoOutput : Text) : Prop :=
  ∀ body other, OwnLine tag infoOutput body → OwnLine tag other body → 0 ∉ other →
    value other = value infoOutput

/-- Each property is determined by its own line, and the name is one line. -/
structure FromOwnLines (infoOutput : Text) (device : BluetoothDeviceInfoBase) : Prop where
  name : Determined (ascii "\tName:") (fun text => (enrichFrom text device).name) infoOutput
  deviceClass : Determined (ascii "\tClass:")
    (fun text => ((enrichFrom text device).devClass, (enrichFrom text device).major)) infoOutput
  rssi : Determined (ascii "\tRSSI:") (fun text => (enrichFrom text device).rssi) infoOutput
  oneLine : 10 ∉ (enrichFrom infoOutput device).name

/-- The lines of the properties have what is looked for in them. -/
structure OwnLinesSuffice (infoOutput : Text) (device : BluetoothDeviceInfoBase) : Prop where
  name : ∀ body, OwnLine (ascii "\tName:") infoOutput body →
    device.name ≠ [] ∨ 254 ≤ (skipSpaces body).length
  deviceClass : ∀ body, OwnLine (ascii "\tClass:") infoOutput body → ascii "0x" <:+: body
  rssi : ∀ body, OwnLine (ascii "\tRSSI:") infoOutput body → skipSpaces body ≠ []

/-! ## Own lines -/

theorem exists_ownLine {tag infoOutput found : Text} (h : strstr tag infoOutput = some found) :
    ∃ body, OwnLine tag infoOutput body := by
  obtain ⟨behind, rfl⟩ := prefix_of_strstr h
  obtain ⟨body, rest, rfl, hbody, hrest⟩ := exists_afterLine behind
  exact ⟨body, hbody, rest, h, hrest⟩

theorem OwnLine.nul_notMem {tag infoOutput body : Text} (h : OwnLine tag infoOutput body)
    (hnul : 0 ∉ infoOutput) : 0 ∉ tag ∧ 0 ∉ body := by
  obtain ⟨-, rest, hfound, -⟩ := h
  have hsuffix := strstr_suffix hfound
  exact ⟨fun hmem => hnul (hsuffix.subset (by simp [hmem])),
    fun hmem => hnul (hsuffix.subset (by simp [hmem]))⟩

theorem OwnLine.body_eq {tag infoOutput body found : Text} (h : OwnLine tag infoOutput body)
    (hfound : strstr tag infoOutput = some found) :
    body = (found.drop tag.length).takeWhile (· ≠ 10) := by
  obtain ⟨hbody, rest, hstrstr, hrest⟩ := h
  cases hfound.symm.trans hstrstr
  rw [List.drop_left, takeWhile_append_afterLine (by decide) hrest]
  refine (List.takeWhile_eq_self_iff.mpr fun b hb => ?_).symm
  exact decide_eq_true fun heq => hbody (heq ▸ hb)

/-- A text that consists of the line of a property and another line. -/
theorem OwnLine.with_later {tag infoOutput body : Text} (h : OwnLine tag infoOutput body)
    (later : Text) : OwnLine tag (tag ++ (body ++ 10 :: later)) body :=
  ⟨h.1, 10 :: later, strstr_eq_self (List.prefix_append tag _), afterLine_newline later⟩

/-- A value that the line behind the property's line has a say in is not determined. -/
theorem Determined.later_eq {α : Type} {tag infoOutput body : Text} {value : Text → α}
    (hvalue : Determined tag value infoOutput) (h : OwnLine tag infoOutput body)
    (hnul : 0 ∉ infoOutput) (later later' : Text) (hlater : 0 ∉ later) (hlater' : 0 ∉ later') :
    value (tag ++ (body ++ 10 :: later)) = value (tag ++ (body ++ 10 :: later')) := by
  obtain ⟨htag, hbody⟩ := h.nul_notMem hnul
  rw [hvalue body _ h (h.with_later later) (by simp [htag, hbody, hlater]),
    hvalue body _ h (h.with_later later') (by simp [htag, hbody, hlater'])]

/-! ## Names -/

theorem enrichFrom_name (infoOutput : Text) (device : BluetoothDeviceInfoBase) :
    (enrichFrom infoOutput device).name = (parseNameProperty infoOutput device).name := by
  rw [enrichFrom, parseRssiProperty, parseClassProperty]
  split <;> split <;> rfl

theorem name_of_line {infoOutput text : Text} {device : BluetoothDeviceInfoBase}
    (hfound : strstr (ascii "\tName:") infoOutput = some (ascii "\tName:" ++ text))
    (hname : device.name = []) : (enrichFrom infoOutput device).name = cleaned text := by
  rw [enrichFrom_name, parseNameProperty, hfound]
  dsimp only
  rw [if_pos hname, List.drop_left]
  rfl

theorem name_kept {infoOutput : Text} {device : BluetoothDeviceInfoBase} (hname : device.name ≠ []) :
    (enrichFrom infoOutput device).name = device.name := by
  rw [enrichFrom_name, parseNameProperty]
  split
  · rfl
  · rw [if_neg hname]

/-- A line that fills the buffer, up to one byte, is not left. -/
theorem cleaned_line {line rest : Text} (hline : 254 ≤ (skipSpaces line).length)
    (hrest : AfterLine rest) : cleaned (line ++ rest) = cleaned line := by
  have hne : skipSpaces line ≠ [] := by
    intro hnil
    rw [hnil] at hline
    exact absurd hline (by decide)
  rw [cleaned_eq, cleaned_eq, skipSpaces_append_eq, if_neg hne]
  generalize skipSpaces line = name at *
  rw [copyString, copyString]
  rcases Nat.lt_or_eq_of_le hline with hlong | hlength
  · rw [List.take_append_of_le_length (by omega)]
  · cases rest with
    | nil => rw [List.append_nil]
    | cons b rest =>
      -- The newline is the last byte that is copied, and is trimmed.
      rw [hrest b rfl, List.take_append, List.take_of_length_le (by omega), ← hlength]
      exact List.rdropWhile_concat_pos _ _ _ (by decide)

theorem cleaned_subset (text : Text) : cleaned text ⊆ text :=
  ((List.rdropWhile_prefix _ _).sublist.trans
    ((List.take_sublist _ _).trans (List.dropWhile_suffix _).sublist)).subset

/-- The byte in the line behind a short line is in the name. -/
theorem cleaned_short {line : Text} (hline : (skipSpaces line).length < 254) :
    ∃ front, ∀ b, isspace b = false → cleaned (line ++ [10, b]) = front ++ [b] := by
  refine ⟨if skipSpaces line = [] then [] else skipSpaces line ++ [10], fun b hb => ?_⟩
  have hskip : skipSpaces (line ++ [10, b]) =
      (if skipSpaces line = [] then [] else skipSpaces line ++ [10]) ++ [b] := by
    rw [skipSpaces_append_eq]
    split
    · exact skipSpaces_cons hb
    · rw [List.append_assoc]
      rfl
  have hlength : (if skipSpaces line = [] then [] else skipSpaces line ++ [10]).length ≤ 254 := by
    split
    · exact Nat.zero_le _
    · rw [List.length_append]
      exact hline
  rw [cleaned_eq, hskip, copyString, List.take_of_length_le, trimTrailingWhitespace]
  · exact List.rdropWhile_concat_neg _ _ _ (by simp [hb])
  · rw [List.length_append]
    exact Nat.succ_le_succ hlength

/-- The name is that of its own line just if the device has one or the line fills the buffer. -/
theorem name_determined_iff {infoOutput : Text} (hnul : 0 ∉ infoOutput)
    {device : BluetoothDeviceInfoBase} :
    Determined (ascii "\tName:") (fun text => (enrichFrom text device).name) infoOutput ↔
      ∀ body, OwnLine (ascii "\tName:") infoOutput body →
        device.name ≠ [] ∨ 254 ≤ (skipSpaces body).length := by
  constructor
  · intro hdetermined body hown
    by_contra hnone
    rw [not_or, not_not, not_le] at hnone
    obtain ⟨front, hfront⟩ := cleaned_short hnone.2
    have heq := hdetermined.later_eq hown hnul [120] [121] (by decide) (by decide)
    rw [name_of_line (strstr_eq_self (List.prefix_append _ _)) hnone.1,
      name_of_line (strstr_eq_self (List.prefix_append _ _)) hnone.1, hfront 120 (by decide),
      hfront 121 (by decide)] at heq
    exact absurd (List.append_cancel_left heq) (by decide)
  · rintro hcondition body other hown ⟨-, rest', hfound', hrest'⟩ -
    rcases hcondition body hown with hname | hfull
    · exact (name_kept hname).trans (name_kept hname).symm
    · obtain ⟨-, rest, hfound, hrest⟩ := hown
      by_cases hname : device.name = []
      · dsimp only
        rw [name_of_line hfound' hname, name_of_line hfound hname, cleaned_line hfull hrest',
          cleaned_line hfull hrest]
      · exact (name_kept hname).trans (name_kept hname).symm

/-- A name that is of its own line is one line. -/
theorem name_one_line {infoOutput : Text} {device : BluetoothDeviceInfoBase} (hline : 10 ∉ device.name)
    (hname : ∀ body, OwnLine (ascii "\tName:") infoOutput body →
      device.name ≠ [] ∨ 254 ≤ (skipSpaces body).length) :
    10 ∉ (enrichFrom infoOutput device).name := by
  by_cases hempty : device.name = []
  · cases hfound : strstr (ascii "\tName:") infoOutput with
    | none =>
      rw [enrichFrom_name, parseNameProperty, hfound]
      exact hline
    | some found =>
      obtain ⟨body, hown⟩ := exists_ownLine hfound
      have hfull := (hname body hown).resolve_left (not_not.mpr hempty)
      obtain ⟨hbody, rest, hfound', hrest⟩ := hown
      rw [name_of_line hfound' hempty, cleaned_line hfull hrest]
      exact fun hmem => hbody (cleaned_subset body hmem)
  · rw [name_kept hempty]
    exact hline

/-! ## Classes -/

theorem parseNameProperty_other (infoOutput : Text) (device : BluetoothDeviceInfoBase) :
    (parseNameProperty infoOutput device).devClass = device.devClass ∧
      (parseNameProperty infoOutput device).major = device.major ∧
      (parseNameProperty infoOutput device).rssi = device.rssi := by
  rw [parseNameProperty]
  split
  · exact ⟨rfl, rfl, rfl⟩
  · split <;> exact ⟨rfl, rfl, rfl⟩

/-- The bytes of a class and its major device class. -/
def classOf (parsed : Nat) : (UInt8 × UInt8 × UInt8) × EBluetoothDeviceMajor :=
  ((.ofNat parsed, .ofNat (parsed >>> 8), .ofNat (parsed >>> 16)), bluetoothMajorFromCod (.ofNat parsed))

theorem enrichFrom_class (infoOutput : Text) (device : BluetoothDeviceInfoBase) :
    ((enrichFrom infoOutput device).devClass, (enrichFrom infoOutput device).major) =
      ((parsedClass infoOutput).map classOf).getD (device.devClass, device.major) := by
  obtain ⟨hclass, hmajor, -⟩ := parseNameProperty_other infoOutput device
  rw [enrichFrom, parseRssiProperty, parseClassProperty]
  cases parsedClass infoOutput <;> cases parsedRssi infoOutput <;> simp [classOf, hclass, hmajor]

/-- A number in the line of the class is the one that is read. -/
theorem parsedClass_line {infoOutput body number : Text} (hown : OwnLine (ascii "\tClass:") infoOutput body)
    (hnumber : strstr (ascii "0x") body = some number) : parsedClass infoOutput = strtoul number := by
  obtain ⟨-, rest, hfound, hrest⟩ := hown
  have htag : strstr (ascii "0x") (ascii "\tClass:" ++ (body ++ rest)) =
      strstr (ascii "0x") (body ++ rest) := rfl
  have hstart : skipSpaces number ≠ [] := by
    obtain ⟨digits, rfl⟩ := prefix_of_strstr hnumber
    have hskip : skipSpaces (ascii "0x" ++ digits) = ascii "0x" ++ digits := rfl
    rw [hskip]
    exact List.cons_ne_nil _ _
  rw [parsedClass, hfound]
  simp only [Option.bind_eq_bind, Option.bind_some]
  rw [htag, strstr_append hnumber, Option.bind_some, strtoul_line hstart hrest]

/-- Without a number in the line of the class, one in the line behind it is read. -/
theorem parsedClass_later {body : Text} (hbody : ¬ ascii "0x" <:+: body) (later : Text) :
    parsedClass (ascii "\tClass:" ++ (body ++ 10 :: (ascii "0x" ++ later))) =
      strtoul (ascii "0x" ++ later) := by
  have htag : strstr (ascii "0x") (ascii "\tClass:" ++ (body ++ 10 :: (ascii "0x" ++ later))) =
      strstr (ascii "0x") (body ++ 10 :: (ascii "0x" ++ later)) := rfl
  rw [parsedClass, strstr_eq_self (List.prefix_append _ _)]
  simp only [Option.bind_eq_bind, Option.bind_some]
  rw [htag, strstr_newline (by decide) hbody]
  rfl

theorem class_determined_iff {infoOutput : Text} (hnul : 0 ∉ infoOutput)
    {device : BluetoothDeviceInfoBase} :
    Determined (ascii "\tClass:")
        (fun text => ((enrichFrom text device).devClass, (enrichFrom text device).major)) infoOutput ↔
      ∀ body, OwnLine (ascii "\tClass:") infoOutput body → ascii "0x" <:+: body := by
  simp only [enrichFrom_class]
  constructor
  · intro hdetermined body hown
    by_contra hnone
    have heq := hdetermined.later_eq hown hnul (ascii "0x" ++ ascii "1") (ascii "0x" ++ ascii "2")
      (by decide) (by decide)
    have hone : strtoul (ascii "0x" ++ ascii "1") = some 1 := by decide
    have htwo : strtoul (ascii "0x" ++ ascii "2") = some 2 := by decide
    rw [parsedClass_later hnone, parsedClass_later hnone, hone, htwo, Option.map_some, Option.map_some,
      Option.getD_some, Option.getD_some] at heq
    exact absurd heq (by decide)
  · intro hcontains body other hown hown' _
    obtain ⟨number, hnumber⟩ := exists_strstr (hcontains body hown)
    dsimp only
    rw [parsedClass_line hown hnumber, parsedClass_line hown' hnumber]

/-! ## Signal strengths -/

theorem enrichFrom_rssi (infoOutput : Text) (device : BluetoothDeviceInfoBase) :
    (enrichFrom infoOutput device).rssi =
      ((parsedRssi infoOutput).map fun parsed => ⟨toInt16 parsed, true⟩).getD device.rssi := by
  obtain ⟨-, -, hrssi⟩ := parseNameProperty_other infoOutput device
  rw [enrichFrom, parseRssiProperty, parseClassProperty]
  cases parsedClass infoOutput <;> cases parsedRssi infoOutput <;> simp [hrssi]

theorem skipSpaces_skipSpaces (text : Text) : skipSpaces (skipSpaces text) = skipSpaces text := by
  cases h : skipSpaces text with
  | nil => rfl
  | cons b rest => exact skipSpaces_cons (head_skipSpaces h)

theorem parsedRssi_line {infoOutput body : Text} (hown : OwnLine (ascii "\tRSSI:") infoOutput body)
    (hbody : skipSpaces body ≠ []) : parsedRssi infoOutput = strtol (skipSpaces body) := by
  obtain ⟨-, rest, hfound, hrest⟩ := hown
  have hskip : skipSpaces (skipSpaces body) ≠ [] := by rwa [skipSpaces_skipSpaces]
  rw [parsedRssi, hfound]
  simp only [Option.bind_eq_bind, Option.bind_some]
  rw [List.drop_left, skipSpaces_append_eq, if_neg hbody, strtol_line hskip hrest]

theorem parsedRssi_later {body : Text} (hbody : skipSpaces body = []) (later : Text) :
    parsedRssi (ascii "\tRSSI:" ++ (body ++ 10 :: later)) = strtol (skipSpaces later) := by
  rw [parsedRssi, strstr_eq_self (List.prefix_append _ _)]
  simp only [Option.bind_eq_bind, Option.bind_some]
  rw [List.drop_left, skipSpaces_append_eq, if_pos hbody]
  rfl

theorem rssi_determined_iff {infoOutput : Text} (hnul : 0 ∉ infoOutput)
    {device : BluetoothDeviceInfoBase} :
    Determined (ascii "\tRSSI:") (fun text => (enrichFrom text device).rssi) infoOutput ↔
      ∀ body, OwnLine (ascii "\tRSSI:") infoOutput body → skipSpaces body ≠ [] := by
  simp only [enrichFrom_rssi]
  constructor
  · intro hdetermined body hown hblank
    have heq := hdetermined.later_eq hown hnul (ascii "1") (ascii "2") (by decide) (by decide)
    have hone : strtol (skipSpaces (ascii "1")) = some 1 := by decide
    have htwo : strtol (skipSpaces (ascii "2")) = some 2 := by decide
    rw [parsedRssi_later hblank, parsedRssi_later hblank, hone, htwo, Option.map_some, Option.map_some,
      Option.getD_some, Option.getD_some] at heq
    exact absurd heq (by decide)
  · intro hstarts body other hown hown' _
    dsimp only
    rw [parsedRssi_line hown (hstarts body hown), parsedRssi_line hown' (hstarts body hown)]

/-- The properties are those of their own lines just if the lines have what is looked for. -/
theorem properties_from_own_lines_iff {infoOutput : Text} (hnul : 0 ∉ infoOutput)
    {device : BluetoothDeviceInfoBase} (hline : 10 ∉ device.name) :
    FromOwnLines infoOutput device ↔ OwnLinesSuffice infoOutput device := by
  constructor
  · intro hfrom
    exact ⟨(name_determined_iff hnul).mp hfrom.name, (class_determined_iff hnul).mp hfrom.deviceClass,
      (rssi_determined_iff hnul).mp hfrom.rssi⟩
  · intro hsuffice
    exact ⟨(name_determined_iff hnul).mpr hsuffice.name,
      (class_determined_iff hnul).mpr hsuffice.deviceClass, (rssi_determined_iff hnul).mpr hsuffice.rssi,
      name_one_line hline hsuffice.name⟩

/-- A device that has a name, whose properties have their lines, and one without a name whose name is
looked for in the line behind. -/
theorem properties_from_own_lines_iff_class :
    FromOwnLines (ascii "\tName: Pi\n\tClass: 0x5a020c\n\tRSSI: -60\n")
        (discoveredDevice ⟨ascii "AA:BB:CC:DD:EE:FF", ascii "Pi"⟩) ∧
      ¬ FromOwnLines (ascii "\tName: \n\tClass: 0x5a020c\n")
        (discoveredDevice ⟨ascii "AA:BB:CC:DD:EE:FF", []⟩) := by
  constructor
  · refine (properties_from_own_lines_iff (by decide) (by decide)).mpr ⟨?_, ?_, ?_⟩
    · exact fun _ _ => .inl (by decide)
    · intro body h
      have hbody : body = ascii " 0x5a020c" := h.body_eq rfl
      exact hbody ▸ ⟨ascii " ", ascii "5a020c", rfl⟩
    · intro body h
      have hbody : body = ascii " -60" := h.body_eq rfl
      exact hbody ▸ by decide
  · intro h
    have hsuffice := (properties_from_own_lines_iff (by decide) (by decide)).mp h
    have hown : OwnLine (ascii "\tName:") (ascii "\tName: \n\tClass: 0x5a020c\n") (ascii " ") :=
      ⟨by decide, ascii "\n\tClass: 0x5a020c\n", rfl, afterLine_newline _⟩
    rcases hsuffice.name _ hown with hnamed | hlong
    · exact hnamed rfl
    · exact absurd hlong (by decide)

/-- The name of a device goes on in the line behind. -/
theorem name_of_two_lines :
    (enrichFrom (ascii "\tName: Pi\n\tAlias: Pi\n")
        (discoveredDevice ⟨ascii "AA:BB:CC:DD:EE:FF", []⟩)).name = ascii "Pi\n\tAlias: Pi" ∧
      ¬ FromOwnLines (ascii "\tName: Pi\n\tAlias: Pi\n")
        (discoveredDevice ⟨ascii "AA:BB:CC:DD:EE:FF", []⟩) :=
  ⟨by decide, fun hfrom => hfrom.oneLine (by decide)⟩

/-! ## Devices of the table -/

theorem nameOf_mem (entries : List BluezScanEntry) (mac : Text) :
    nameOf entries mac = [] ∨ ∃ e ∈ entries, e.name = nameOf entries mac := by
  rw [nameOf]
  cases hfind : ((entries.filter (·.macAddress = mac)).map BluezScanEntry.name).find? (· ≠ []) with
  | none => exact .inl rfl
  | some name =>
    obtain ⟨e, he, hname⟩ := List.mem_map.mp (List.mem_of_find?_eq_some hfind)
    exact .inr ⟨e, List.mem_of_mem_filter he, hname⟩

theorem parseName_subset (text : Text) : parseName text ⊆ text := by
  rw [parseName]
  split
  · exact List.nil_subset text
  · exact cleaned_subset text

theorem parseScanLine_name_subset {line : Text} {e : BluezScanEntry} (h : parseScanLine line = some e) :
    e.name ⊆ line := by
  obtain ⟨device, hdevice, h⟩ := Option.bind_eq_some_iff.mp h
  dsimp only at h
  split at h
  · cases h
    intro b hb
    exact (strstr_suffix hdevice).subset
      (List.mem_of_mem_drop (List.mem_of_mem_drop (parseName_subset _ hb)))
  · cases h

/-- The names that are recorded from outputs are lines. -/
theorem scanned_name_one_line {outputs : List Text} (hnul : ∀ output ∈ outputs, 0 ∉ output)
    {e : BluezScanEntry} (he : e ∈ (outputs.map some).foldl parseScanOutput []) :
    10 ∉ (discoveredDevice e).name := by
  have htable : (outputs.map some).foldl parseScanOutput [] =
      scanTable ((outputs.map some).flatMap accepted) := foldl_parseScanOutput [] _
  rw [htable] at he
  intro hmem
  have hname := (mem_scanTable he).1
  have hmem' : 10 ∈ e.name := List.mem_of_mem_take hmem
  rcases nameOf_mem ((outputs.map some).flatMap accepted) e.macAddress with hnil | ⟨e', he', hname'⟩
  · rw [hname, hnil] at hmem'
    cases hmem'
  · -- The name is part of a line without control sequences, and so of the line itself.
    obtain ⟨output, houtput, haccepted⟩ := List.mem_flatMap.mp he'
    obtain ⟨text, htext, rfl⟩ := List.mem_map.mp houtput
    rw [accepted_eq] at haccepted
    obtain ⟨line, hline, hparsed⟩ := List.mem_filterMap.mp haccepted
    obtain ⟨hpart, hword⟩ := infix_of_mem_wordsBy hline
    have hnul' : 0 ∉ line := fun h => hnul text htext (hpart.subset h)
    rw [acceptLine, stripLine_eq hnul'] at hparsed
    rw [hname, ← hname'] at hmem'
    exact absurd (hword 10 ((stripped_sublist line).subset (parseScanLine_name_subset hparsed hmem')))
      (by decide)

end SensorLib.Bluez
