import SensorLib.Base.Distinct
import SensorLib.Bluez.Ansi
import SensorLib.Text.Pieces

/-! # The table of scanned devices

The table is the entries in use. The lines of an output of bluetoothctl are
entered one after the other.
-/

namespace SensorLib.Bluez

open CString

def bluetoothMaxDevices : Nat := 150

structure BluezScanEntry where
  macAddress : Text
  name : Text
  deriving DecidableEq, Repr

/-- A text that is too short ends the loop with its NUL. -/
def looksLikeMac (text : Text) : Bool :=
  (List.range 17).all (fun i =>
    let ch := text.getD i 0
    if (i + 1) % 3 = 0 then ch = 58 else isxdigit ch) && text.getD 17 0 = 0

/-- What may stand behind the MAC text that is no name. -/
def metadata : List Text :=
  [ascii "RSSI:", ascii "TxPower:", ascii "ManufacturerData", ascii "ServiceData"]

/-- The name in what stands behind the MAC text. -/
def parseName (text : Text) : Text :=
  let name := skipSpaces text
  let name := if metadata.any fun literal => startsWith literal name then [] else name
  trimTrailingWhitespace (copyString 256 name)

def parseScanLine (line : Text) : Option BluezScanEntry := do
  let device ← strstr (ascii "Device ") line
  let device := device.drop (ascii "Device ").length
  let mac := copyString 18 device
  if looksLikeMac mac then some ⟨copyString 18 mac, parseName (device.drop 17)⟩ else none

/-- The entries, and the place of the one of this MAC text. -/
def findOrAddEntry (entries : List BluezScanEntry) (incoming : BluezScanEntry) :
    Option (List BluezScanEntry × Nat) :=
  let slot := entries.findIdx fun entry => entry.macAddress = incoming.macAddress
  if slot < entries.length then some (entries, slot)
  else if bluetoothMaxDevices ≤ entries.length then none
  else some (entries ++ [incoming], entries.length)

def fillName (parsed slot : BluezScanEntry) : BluezScanEntry :=
  if slot.name = [] ∧ parsed.name ≠ [] then { slot with name := copyString 256 parsed.name } else slot

def enterParsed (entries : List BluezScanEntry) (parsed : BluezScanEntry) : List BluezScanEntry :=
  match findOrAddEntry entries parsed with
  | none => entries
  | some (entries, slot) => entries.modify slot (fillName parsed)

/-- A line without its control sequences. -/
def stripLine (line : Text) : Text :=
  ((stripAnsi (line ++ [0])).bind fun (text, _) => text.text 0).getD []

/-- The entry of a line of the output. -/
def acceptLine (line : Text) : Option BluezScanEntry := parseScanLine (stripLine line)

def enterLine (entries : List BluezScanEntry) (line : Text) : List BluezScanEntry :=
  match acceptLine line with
  | none => entries
  | some parsed => enterParsed entries parsed

def parseScanOutput (entries : List BluezScanEntry) (output : Option Text) : List BluezScanEntry :=
  let buffer := output.getD []
  readLoop strtokR enterLine buffer.length buffer entries

/-- The text of a buffer, up to its first NUL, without control sequences. -/
theorem stripLine_of_holds {line text : Text} (h : Buffer.Holds (line ++ [0]) 0 text)
    (hnul : 0 ∉ text) : stripLine line = stripped text := by
  obtain ⟨m, positions, hstrip, hholds, -⟩ := stripAnsi_eq h hnul
  have hnul' : 0 ∉ stripped text := fun hmem => hnul ((stripped_sublist text).subset hmem)
  rw [stripLine, hstrip]
  simp [hholds.text_eq hnul']

theorem stripLine_eq {line : Text} (hnul : 0 ∉ line) : stripLine line = stripped line :=
  stripLine_of_holds ⟨[], rfl⟩ hnul

/-! ## What the table is for -/

/-- A text as a name has room for it, without spaces around it. -/
def cleaned (text : Text) : Text := ((text.dropWhile isspace).take 255).rdropWhile isspace

def isMetadata (text : Text) : Bool :=
  metadata.any fun literal => startsWith literal (text.dropWhile isspace)

/-- What a line up to its NUL tells, without control sequences: the MAC text behind `Device `, and
the name behind that. -/
def told (line : Text) : Option BluezScanEntry :=
  (strstr (ascii "Device ") (stripped (line.takeWhile (· ≠ 0)))).bind fun found =>
    let mac := (found.drop 7).take 17
    let rest := found.drop 24
    if looksLikeMac mac then some ⟨mac, if isMetadata rest then [] else cleaned rest⟩ else none

/-- The entries of the lines that are accepted. -/
def accepted (output : Option Text) : List BluezScanEntry :=
  (tokens (output.getD [])).filterMap told

/-- The first name of a MAC text that is not empty. -/
def nameOf (entries : List BluezScanEntry) (mac : Text) : Text :=
  (((entries.filter (·.macAddress = mac)).map BluezScanEntry.name).find? (· ≠ [])).getD []

/-- The first distinct MAC texts. -/
def listedMacs (entries : List BluezScanEntry) : List Text :=
  ((entries.map BluezScanEntry.macAddress).eraseDups).take bluetoothMaxDevices

def scanTable (entries : List BluezScanEntry) : List BluezScanEntry :=
  (listedMacs entries).map fun mac => ⟨mac, nameOf entries mac⟩

theorem cleaned_eq (text : Text) :
    cleaned text = trimTrailingWhitespace (copyString 256 (skipSpaces text)) := rfl

theorem parseName_eq (text : Text) : parseName text = if isMetadata text then [] else cleaned text := by
  rw [parseName, isMetadata, skipSpaces]
  split
  · rfl
  · rfl

/-- A line ends at its first NUL, or at the one behind it. -/
theorem holds_line (line : Text) : Buffer.Holds (line ++ [0]) 0 (line.takeWhile (· ≠ 0)) := by
  have hsplit : line ++ [0] = line.takeWhile (· ≠ 0) ++ (line.dropWhile (· ≠ 0) ++ [0]) := by
    rw [← List.append_assoc, List.takeWhile_append_dropWhile]
  cases hrest : line.dropWhile (· ≠ 0) with
  | nil => exact ⟨[], by rw [hrest] at hsplit; exact hsplit⟩
  | cons b rest =>
    have hhead := List.head?_dropWhile_not (fun b : UInt8 => decide (b ≠ 0)) line
    rw [hrest] at hhead hsplit
    obtain rfl : b = 0 := by simpa using hhead
    exact ⟨rest ++ [0], by simpa using hsplit⟩

theorem acceptLine_eq (line : Text) : acceptLine line = told line := by
  have hnul : 0 ∉ line.takeWhile (· ≠ 0) := fun hmem => by simpa using List.mem_takeWhile_imp hmem
  have hlength : (ascii "Device ").length = 7 := rfl
  rw [acceptLine, stripLine_of_holds (holds_line line) hnul, parseScanLine, told, Option.bind_eq_bind]
  congr 1
  funext found
  have hcopy : copyString 18 (copyString 18 (found.drop 7)) = (found.drop 7).take 17 := by
    rw [copyString, copyString, List.take_take, min_self]
  simp only [hlength, hcopy, parseName_eq, List.drop_drop]
  rfl

theorem accepted_eq (output : Option Text) :
    accepted output = (tokens (output.getD [])).filterMap acceptLine :=
  List.filterMap_congr fun line _ => (acceptLine_eq line).symm

theorem scanTable_length (entries : List BluezScanEntry) :
    (scanTable entries).length = (listedMacs entries).length := List.length_map _

theorem scanTable_macs (entries : List BluezScanEntry) :
    (scanTable entries).map BluezScanEntry.macAddress = listedMacs entries := by
  rw [scanTable, List.map_map]
  exact List.map_id _

theorem listedMacs_nodup (entries : List BluezScanEntry) : (listedMacs entries).Nodup :=
  (List.nodup_eraseDups _).sublist (List.take_sublist _ _)

theorem notMem_of_room {entries : List BluezScanEntry} {mac : Text}
    (hroom : (listedMacs entries).length < bluetoothMaxDevices) (h : mac ∉ listedMacs entries) :
    mac ∉ entries.map BluezScanEntry.macAddress := by
  rw [listedMacs, List.length_take] at hroom
  rw [listedMacs, List.take_of_length_le (by omega)] at h
  exact fun hmem => h (List.mem_eraseDups.mpr hmem)

theorem listedMacs_concat (entries : List BluezScanEntry) (e : BluezScanEntry) :
    listedMacs (entries ++ [e]) =
      if e.macAddress ∈ listedMacs entries ∨ bluetoothMaxDevices ≤ (listedMacs entries).length then
        listedMacs entries
      else listedMacs entries ++ [e.macAddress] := by
  have hroom := @notMem_of_room entries e.macAddress
  rw [listedMacs, List.map_append, List.map_singleton, List.eraseDups_concat]
  split
  · rename_i hmem
    rw [if_pos]
    · rfl
    · by_contra hnone
      rw [not_or, not_le] at hnone
      exact hroom hnone.2 hnone.1 hmem
  · rename_i hmem
    rw [listedMacs, List.length_take]
    have hmem' : e.macAddress ∉ (entries.map BluezScanEntry.macAddress).eraseDups.take
        bluetoothMaxDevices := fun h => hmem (List.mem_eraseDups.mp (List.mem_of_mem_take h))
    generalize (entries.map BluezScanEntry.macAddress).eraseDups = macs at *
    split
    · rename_i hor
      have hfull := hor.resolve_left hmem'
      exact List.take_append_of_le_length (by omega)
    · rename_i hor
      rw [not_or] at hor
      rw [List.take_of_length_le (by simp; omega), List.take_of_length_le (by omega)]

theorem nameOf_concat (entries : List BluezScanEntry) (e : BluezScanEntry) (mac : Text) :
    nameOf (entries ++ [e]) mac =
      if e.macAddress = mac ∧ nameOf entries mac = [] then e.name else nameOf entries mac := by
  rw [nameOf, nameOf, List.filter_append, List.map_append, List.find?_append]
  have hfound := @List.find?_some _ (fun name : Text => decide (name ≠ []))
  generalize (entries.filter (·.macAddress = mac)).map BluezScanEntry.name = names at *
  by_cases hmac : e.macAddress = mac
  · cases hfind : names.find? (fun name => decide (name ≠ [])) with
    | none => by_cases hname : e.name = [] <;> simp [hmac, hname]
    | some name =>
      have hne := hfound hfind
      simp_all
  · simp [hmac]

theorem nameOf_of_notMem {entries : List BluezScanEntry} {mac : Text}
    (h : mac ∉ entries.map BluezScanEntry.macAddress) : nameOf entries mac = [] := by
  have hfilter : entries.filter (·.macAddress = mac) = [] := by
    rw [List.filter_eq_nil_iff]
    intro e he hmac
    exact h (List.mem_map.mpr ⟨e, he, of_decide_eq_true hmac⟩)
  rw [nameOf, hfilter]
  rfl

theorem parseName_length (text : Text) : (parseName text).length ≤ 255 := by
  rw [parseName, trimTrailingWhitespace, copyString]
  refine (List.rdropWhile_prefix _ _).length_le.trans ?_
  rw [List.length_take]
  exact min_le_left _ _

theorem parsed_name_length {line : Text} {e : BluezScanEntry} (h : parseScanLine line = some e) :
    e.name.length ≤ 255 := by
  obtain ⟨device, -, h⟩ := Option.bind_eq_some_iff.mp h
  dsimp only at h
  split at h
  · cases h
    exact parseName_length _
  · cases h

/-- A known device gets its name if it has none. -/
theorem fillName_eq {entries : List BluezScanEntry} {e : BluezScanEntry} (he : e.name.length ≤ 255) :
    fillName e ⟨e.macAddress, nameOf entries e.macAddress⟩ =
      ⟨e.macAddress, nameOf (entries ++ [e]) e.macAddress⟩ := by
  have hcopy : copyString 256 e.name = e.name := List.take_of_length_le he
  rw [fillName, nameOf_concat, hcopy]
  by_cases hname : nameOf entries e.macAddress = [] <;> by_cases hparsed : e.name = [] <;>
    simp [hname, hparsed]

theorem findIdx_macAddress (macs : List Text) (f : Text → Text) (mac : Text) :
    (macs.map fun x => (⟨x, f x⟩ : BluezScanEntry)).findIdx (fun entry => entry.macAddress = mac) <
      (macs.map fun x => (⟨x, f x⟩ : BluezScanEntry)).length ↔ mac ∈ macs := by
  rw [List.findIdx_lt_length]
  simp

theorem fillName_self (e : BluezScanEntry) : fillName e e = e := if_neg fun h => h.2 h.1

/-- The other devices keep their names. -/
theorem scanTable_names {entries : List BluezScanEntry} {e : BluezScanEntry}
    (h : e.macAddress ∉ listedMacs entries) :
    ((listedMacs entries).map fun mac => (⟨mac, nameOf (entries ++ [e]) mac⟩ : BluezScanEntry)) =
      scanTable entries := by
  refine List.map_congr_left fun mac hmac => ?_
  rw [nameOf_concat, if_neg]
  rintro ⟨rfl, -⟩
  exact h hmac

/-- A line goes into the table as its entry goes to the entries of the lines before. -/
theorem enterParsed_scanTable (entries : List BluezScanEntry) {e : BluezScanEntry}
    (he : e.name.length ≤ 255) :
    enterParsed (scanTable entries) e = scanTable (entries ++ [e]) := by
  have hfind := findIdx_macAddress (listedMacs entries) (nameOf entries) e.macAddress
  have htable : scanTable (entries ++ [e]) =
      (listedMacs (entries ++ [e])).map fun mac => ⟨mac, nameOf (entries ++ [e]) mac⟩ := rfl
  rw [← scanTable] at hfind
  rw [enterParsed, findOrAddEntry, htable, listedMacs_concat]
  by_cases hknown : e.macAddress ∈ listedMacs entries
  · rw [if_pos (hfind.mpr hknown), if_pos (.inl hknown)]
    dsimp only
    rw [scanTable, List.modify_findIdx_map (listedMacs_nodup entries) hknown _ (fun _ => rfl)]
    refine List.map_congr_left fun mac _ => ?_
    split
    · rename_i heq
      subst heq
      exact fillName_eq he
    · rename_i hne
      rw [nameOf_concat, if_neg fun h => hne h.1.symm]
  · rw [if_neg (hfind.not.mpr hknown), scanTable_length]
    by_cases hfull : bluetoothMaxDevices ≤ (listedMacs entries).length
    · rw [if_pos hfull, if_pos (.inr hfull), scanTable_names hknown]
    · have hname := nameOf_of_notMem (notMem_of_room (not_le.mp hfull) hknown)
      rw [if_neg hfull, if_neg (not_or.mpr ⟨hknown, hfull⟩), List.map_append, scanTable_names hknown,
        List.map_singleton, nameOf_concat, if_pos ⟨rfl, hname⟩, ← scanTable_length]
      dsimp only
      rw [List.modify_eq_take_cons_drop (by simp)]
      simp [fillName_self]

theorem foldl_enterLine (lines : List Text) (entries : List BluezScanEntry) :
    lines.foldl enterLine (scanTable entries) =
      scanTable (entries ++ lines.filterMap acceptLine) := by
  induction lines generalizing entries with
  | nil => rw [List.filterMap_nil, List.append_nil, List.foldl_nil]
  | cons line lines ih =>
    rw [List.foldl_cons, enterLine]
    cases hparsed : acceptLine line with
    | none =>
      rw [List.filterMap_cons_none hparsed]
      exact ih entries
    | some e =>
      rw [List.filterMap_cons_some hparsed]
      dsimp only
      rw [enterParsed_scanTable entries (parsed_name_length hparsed), ih, List.append_assoc,
        List.singleton_append]

theorem parseScanOutput_foldl (entries : List BluezScanEntry) (output : Option Text) :
    parseScanOutput entries output = (tokens (output.getD [])).foldl enterLine entries :=
  reads_strtokR.readLoop_eq enterLine le_rfl entries

theorem parseScanOutput_scanTable (entries : List BluezScanEntry) (output : Option Text) :
    parseScanOutput (scanTable entries) output = scanTable (entries ++ accepted output) := by
  rw [parseScanOutput_foldl, foldl_enterLine, accepted_eq]

theorem parseScanOutput_append (entries : List BluezScanEntry) (text more : Text) :
    parseScanOutput entries (some (text ++ 10 :: more)) =
      parseScanOutput (parseScanOutput entries (some text)) (some more) := by
  simp only [parseScanOutput_foldl, Option.getD_some]
  rw [tokens_append, List.foldl_append]

theorem foldl_parseScanOutput (entries : List BluezScanEntry) (outputs : List (Option Text)) :
    outputs.foldl parseScanOutput (scanTable entries) =
      scanTable (entries ++ outputs.flatMap accepted) := by
  induction outputs generalizing entries with
  | nil => rw [List.flatMap_nil, List.append_nil, List.foldl_nil]
  | cons output outputs ih =>
    rw [List.foldl_cons, parseScanOutput_scanTable, ih, List.flatMap_cons, List.append_assoc]

/-- After any outputs the table holds the first MAC texts of all accepted lines, each once and with
its first name, and two outputs are as good as one. -/
theorem scans_fill_table (outputs : List (Option Text)) :
    outputs.foldl parseScanOutput [] = scanTable (outputs.flatMap accepted) ∧
      ((outputs.foldl parseScanOutput []).map BluezScanEntry.macAddress).Nodup ∧
      ∀ text more : Text,
        parseScanOutput (outputs.foldl parseScanOutput []) (some (text ++ 10 :: more)) =
          parseScanOutput (parseScanOutput (outputs.foldl parseScanOutput []) (some text))
            (some more) := by
  have htable : outputs.foldl parseScanOutput [] = scanTable (outputs.flatMap accepted) :=
    foldl_parseScanOutput [] outputs
  refine ⟨htable, ?_, fun text more => parseScanOutput_append _ text more⟩
  rw [htable, scanTable_macs]
  exact listedMacs_nodup _

end SensorLib.Bluez
