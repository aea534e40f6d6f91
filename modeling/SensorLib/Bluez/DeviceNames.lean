import SensorLib.Bluez.ScanTable

/-! # Names of devices in the output of a scan

bluetoothctl reports a device as new with its name, and then the changes of its
properties.
-/

namespace SensorLib.Bluez

open CString

/-- What a line says about a device, behind its MAC text. -/
inductive DeviceLine
  | new (name : Text)
  | change (property value : Text)
  deriving DecidableEq, Repr

namespace DeviceLine

def tag : DeviceLine → Text
  | new _ => ascii "[NEW] "
  | change .. => ascii "[CHG] "

def rest : DeviceLine → Text
  | new name => name
  | change property value => property ++ ascii ": " ++ value

def text (mac : Text) (l : DeviceLine) : Text :=
  l.tag ++ (ascii "Device " ++ (mac ++ 32 :: l.rest))

end DeviceLine

/-- Whether it is the device of this MAC text that a line speaks of. -/
def isAbout (mac line : Text) : Bool :=
  (strstr (ascii "Device ") line).any (startsWith (ascii "Device " ++ mac))

/-- The lines about a device, without control sequences. -/
def linesAbout (mac output : Text) : List Text :=
  ((tokens output).map stripLine).filter (isAbout mac)

/-- Whether a line is taken to give a name. -/
def DeviceLine.shows (l : DeviceLine) : Bool := skipSpaces l.rest ≠ [] && !isMetadata l.rest

/-- The name is that of a device reported as new, or empty where none is. -/
def NameOfNew (ls : List DeviceLine) (name : Text) : Prop :=
  (∃ new, .new new ∈ ls ∧ name = cleaned new) ∨ (∀ new, .new new ∉ ls) ∧ name = []

/-- The first line that is taken to give a name has that of a device reported as new, and where there
is no such line, no new device has a name. -/
structure FirstShowsNew (ls : List DeviceLine) : Prop where
  first : ∀ l, ls.find? DeviceLine.shows = some l →
    ∃ new, .new new ∈ ls ∧ cleaned l.rest = cleaned new
  blank : ls.find? DeviceLine.shows = none →
    (∀ new, .new new ∉ ls) ∨ ∃ new, .new new ∈ ls ∧ skipSpaces new = []

/-! ## Names -/

theorem cleaned_eq_nil_iff (text : Text) : cleaned text = [] ↔ skipSpaces text = [] := by
  have hhead := List.head?_dropWhile_not isspace text
  rw [cleaned, List.rdropWhile_eq_nil_iff, skipSpaces]
  generalize text.dropWhile isspace = name at *
  cases name with
  | nil => simp
  | cons b name =>
    have hb : isspace b = false := by simpa using hhead
    simp only [reduceCtorEq, iff_false, not_forall]
    exact ⟨b, by simp, by simp [hb]⟩

theorem parseName_space (text : Text) :
    parseName (32 :: text) = if isMetadata text then [] else cleaned text := by
  rw [parseName_eq]
  rfl

theorem parseName_ne_nil_iff (l : DeviceLine) : parseName (32 :: l.rest) ≠ [] ↔ l.shows := by
  rw [parseName_space, DeviceLine.shows]
  split
  · rename_i hmetadata
    simp [hmetadata]
  · rename_i hmetadata
    simp [hmetadata, cleaned_eq_nil_iff]

theorem parseName_of_shows {l : DeviceLine} (h : l.shows) : parseName (32 :: l.rest) = cleaned l.rest := by
  rw [DeviceLine.shows, Bool.and_eq_true, Bool.not_eq_true'] at h
  rw [parseName_space, h.2]
  rfl

/-! ## Lines -/

theorem strstr_text (mac : Text) (l : DeviceLine) :
    strstr (ascii "Device ") (l.text mac) = some (ascii "Device " ++ (mac ++ 32 :: l.rest)) := by
  cases l <;> rfl

theorem looksLikeMac_length {mac : Text} (hmac : looksLikeMac mac) : 17 ≤ mac.length := by
  rw [looksLikeMac, Bool.and_eq_true, List.all_eq_true] at hmac
  have hlast := hmac.1 16 (by simp)
  by_contra hshort
  rw [List.getD_eq_getElem?_getD, List.getElem?_eq_none (by omega)] at hlast
  exact absurd hlast (by decide)

/-- The MAC text of an entry is what the line has behind `Device `. -/
theorem parseScanLine_mac {line : Text} {e : BluezScanEntry} (h : parseScanLine line = some e) :
    looksLikeMac e.macAddress ∧ e.macAddress.length = 17 ∧ isAbout e.macAddress line := by
  obtain ⟨device, hdevice, h⟩ := Option.bind_eq_some_iff.mp h
  dsimp only at h
  split at h
  · rename_i hmac
    obtain ⟨rest, rfl⟩ := prefix_of_strstr hdevice
    rw [List.drop_left] at *
    cases h
    have htake : copyString 18 (copyString 18 rest) = rest.take 17 := by
      rw [copyString, copyString, List.take_take, min_self]
    rw [copyString] at hmac
    have hlength := looksLikeMac_length hmac
    refine ⟨?_, ?_, ?_⟩
    · rw [htake]
      exact hmac
    · rw [htake]
      exact (List.length_take_le 17 rest).antisymm hlength
    · rw [htake, isAbout, hdevice, Option.any_some, startsWith_iff, List.prefix_append_right_inj]
      exact List.take_prefix 17 rest
  · cases h

theorem parseScanLine_text {mac : Text} (hmac : looksLikeMac mac) (hlength : mac.length = 17)
    (l : DeviceLine) :
    parseScanLine (l.text mac) = some ⟨mac, parseName (32 :: l.rest)⟩ := by
  have hcopy : copyString 18 mac = mac := List.take_of_length_le hlength.le
  have htake : copyString 18 (mac ++ 32 :: l.rest) = mac := List.take_left' hlength
  have hdrop : (mac ++ 32 :: l.rest).drop 17 = 32 :: l.rest := List.drop_left' hlength
  simp only [parseScanLine, strstr_text, Option.bind_eq_bind, Option.bind_some, List.drop_left, htake,
    hcopy, hdrop, hmac, if_true]

/-- The names that the lines give a device. -/
theorem names_of_lines {mac : Text} (hmac : looksLikeMac mac) (hlength : mac.length = 17)
    {lines : List Text} {ls : List DeviceLine}
    (h : lines.filter (isAbout mac) = ls.map (DeviceLine.text mac)) :
    ((lines.filterMap parseScanLine).filter (·.macAddress = mac)).map BluezScanEntry.name =
      ls.map fun l => parseName (32 :: l.rest) := by
  induction lines generalizing ls with
  | nil =>
    cases ls with
    | nil => rfl
    | cons l ls => cases h
  | cons line lines ih =>
    by_cases habout : isAbout mac line
    · rw [List.filter_cons_of_pos habout] at h
      cases ls with
      | nil => cases h
      | cons l ls =>
        rw [List.map_cons, List.cons.injEq] at h
        rw [h.1, List.filterMap_cons_some (parseScanLine_text hmac hlength l),
          List.filter_cons_of_pos (by simp), List.map_cons, ih h.2, List.map_cons]
    · rw [List.filter_cons_of_neg habout] at h
      cases hparsed : parseScanLine line with
      | none =>
        rw [List.filterMap_cons_none hparsed]
        exact ih h
      | some e =>
        have hother : e.macAddress ≠ mac := by
          rintro rfl
          exact habout (parseScanLine_mac hparsed).2.2
        rw [List.filterMap_cons_some hparsed, List.filter_cons_of_neg (by simpa using hother)]
        exact ih h

theorem mem_scanTable {entries : List BluezScanEntry} {e : BluezScanEntry}
    (h : e ∈ scanTable entries) :
    e.name = nameOf entries e.macAddress ∧ ∃ e' ∈ entries, e'.macAddress = e.macAddress := by
  obtain ⟨mac, hmac, rfl⟩ := List.mem_map.mp h
  exact ⟨rfl, List.mem_map.mp (List.mem_eraseDups.mp (List.mem_of_mem_take hmac))⟩

/-- The name that is recorded for a device is the first that its lines show. -/
theorem recorded_name {output : Text} {e : BluezScanEntry} {ls : List DeviceLine}
    (he : e ∈ parseScanOutput [] (some output))
    (hlines : linesAbout e.macAddress output = ls.map (DeviceLine.text e.macAddress)) :
    e.name = ((ls.find? DeviceLine.shows).map fun l => cleaned l.rest).getD [] := by
  have htable : parseScanOutput [] (some output) = scanTable (accepted (some output)) :=
    parseScanOutput_scanTable [] (some output)
  rw [htable] at he
  obtain ⟨hname, e', he', hmac⟩ := mem_scanTable he
  rw [accepted_eq] at he'
  obtain ⟨line, -, hparsed⟩ := List.mem_filterMap.mp he'
  obtain ⟨hlooks, hlength, -⟩ := parseScanLine_mac hparsed
  rw [hmac] at hlooks hlength
  have haccepted : accepted (some output) =
      ((tokens output).map stripLine).filterMap parseScanLine :=
    (accepted_eq _).trans (List.filterMap_map ..).symm
  have hshows : (fun name : Text => decide (name ≠ [])) ∘
      (fun l : DeviceLine => parseName (32 :: l.rest)) = DeviceLine.shows := by
    funext l
    rw [Function.comp_apply, Bool.eq_iff_iff, decide_eq_true_iff]
    exact parseName_ne_nil_iff l
  rw [hname, nameOf, haccepted, names_of_lines hlooks hlength hlines, List.find?_map, hshows]
  have hfound := @List.find?_some _ DeviceLine.shows
  cases hfind : ls.find? DeviceLine.shows with
  | none => rfl
  | some l => exact parseName_of_shows (hfound hfind)

/-- Where the lines about a device report it as new or a change of it, the name recorded for it is
that of a new device just if the first line that is taken to give a name has one. -/
theorem recorded_name_of_new_iff {output : Text} {e : BluezScanEntry} {ls : List DeviceLine}
    (he : e ∈ parseScanOutput [] (some output))
    (hlines : linesAbout e.macAddress output = ls.map (DeviceLine.text e.macAddress)) :
    NameOfNew ls e.name ↔ FirstShowsNew ls := by
  rw [recorded_name he hlines]
  cases hfind : ls.find? DeviceLine.shows with
  | none =>
    constructor
    · rintro (⟨new, hnew, hname⟩ | ⟨hnone, -⟩)
      · exact ⟨fun l h => absurd (hfind.symm.trans h) (by simp),
          fun _ => .inr ⟨new, hnew, (cleaned_eq_nil_iff new).mp hname.symm⟩⟩
      · exact ⟨fun l h => absurd (hfind.symm.trans h) (by simp), fun _ => .inl hnone⟩
    · intro hfirst
      rcases hfirst.blank hfind with hnone | ⟨new, hnew, hblank⟩
      · exact .inr ⟨hnone, rfl⟩
      · exact .inl ⟨new, hnew, ((cleaned_eq_nil_iff new).mpr hblank).symm⟩
  | some l =>
    have hshows := List.find?_some hfind
    rw [DeviceLine.shows, Bool.and_eq_true, decide_eq_true_iff] at hshows
    constructor
    · intro hnamed
      refine ⟨fun l' hl' => ?_, fun hnone => absurd (hfind.symm.trans hnone) (by simp)⟩
      cases hfind.symm.trans hl'
      rcases hnamed with hnew | ⟨-, hnil⟩
      · exact hnew
      · exact absurd ((cleaned_eq_nil_iff l.rest).mp hnil) hshows.1
    · exact fun hfirst => .inl (hfirst.first l hfind)

/-- A device that is reported as new and then connects. -/
theorem recorded_name_of_new_iff_connected :
    NameOfNew [.new (ascii "Pi"), .change (ascii "Connected") (ascii "yes")] (ascii "Pi") ↔
      FirstShowsNew [.new (ascii "Pi"), .change (ascii "Connected") (ascii "yes")] :=
  @recorded_name_of_new_iff
    (ascii "[NEW] Device AA:BB:CC:DD:EE:FF Pi\n[CHG] Device AA:BB:CC:DD:EE:FF Connected: yes\n")
    ⟨ascii "AA:BB:CC:DD:EE:FF", ascii "Pi"⟩ _ (by decide +kernel) (by decide +kernel)

/-- A change of a property of a device that has no name makes the property its name. -/
theorem property_recorded_as_name :
    parseScanOutput [] (some (ascii "[CHG] Device AA:BB:CC:DD:EE:FF Connected: yes\n")) =
        [⟨ascii "AA:BB:CC:DD:EE:FF", ascii "Connected: yes"⟩] ∧
      linesAbout (ascii "AA:BB:CC:DD:EE:FF")
          (ascii "[CHG] Device AA:BB:CC:DD:EE:FF Connected: yes\n") =
        [DeviceLine.change (ascii "Connected") (ascii "yes")].map
          (DeviceLine.text (ascii "AA:BB:CC:DD:EE:FF")) ∧
      ¬ NameOfNew [.change (ascii "Connected") (ascii "yes")] (ascii "Connected: yes") := by
  refine ⟨by decide +kernel, by decide +kernel, ?_⟩
  rintro (⟨new, hnew, -⟩ | ⟨-, hname⟩)
  · simp at hnew
  · exact absurd hname (by decide)

end SensorLib.Bluez
