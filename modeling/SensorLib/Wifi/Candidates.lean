import SensorLib.Base.Rssi
import SensorLib.Text.Pieces
import Mathlib.Data.List.Sort

/-! # Candidates from the ARP table

The neighbours of the wireless interfaces, as `/proc/net/arp` lists them. The
first line of the table is a header. Names compare as strings do, by unsigned
bytes.
-/

namespace SensorLib.Wifi

open CString

inductive WifiDeviceType
  | wifiUnknown | wifiAdapter | wifiRouter
  deriving DecidableEq, Repr

structure WifiDeviceInfoBase where
  ssid : Text
  macAddress : Text
  type : WifiDeviceType
  rssi : BratislavaRssi
  deriving DecidableEq, Repr

structure WifiCandidate where
  device : WifiDeviceInfoBase
  interfaceName : Text
  ipAddress : Text
  deriving DecidableEq, Repr

def normalizeMac (value : Text) : Text := value.map toupper

/-- `snprintf` of a string, which ends at its first NUL. -/
def copyStdString (dstSize : Nat) (value : Text) : Text :=
  copyString dstSize (value.takeWhile (· != 0))

/-- What is read of a line of the table. -/
structure ArpLine where
  ipAddress : Text
  macAddress : Text
  interfaceName : Text
  deriving DecidableEq, Repr

def readArpLine (line : Text) : Option ArpLine :=
  match readWords 6 line with
  | some [ipAddress, _, _, macAddress, _, interfaceName] => some ⟨ipAddress, macAddress, interfaceName⟩
  | _ => none

/-- What the loop keeps from line to line. -/
structure Found where
  seen : List Text
  candidates : List WifiCandidate
  deriving DecidableEq, Repr

def zeroMac : Text := ascii "00:00:00:00:00:00"

/-- One round of the loop. -/
def scanLine (wirelessInterfaces : List Text) (found : Found) (line : Text) : Found :=
  match readArpLine line with
  | none => found
  | some read =>
    let macAddress := normalizeMac read.macAddress
    if macAddress = zeroMac ∨ read.interfaceName ∉ wirelessInterfaces then found
    else
      let key := read.interfaceName ++ ascii "|" ++ macAddress
      if key ∈ found.seen then found
      else
        { seen := key :: found.seen
          candidates := found.candidates ++
            [{ interfaceName := read.interfaceName
               ipAddress := read.ipAddress
               device :=
                 { type := .wifiAdapter
                   rssi := ⟨0, false⟩
                   macAddress := copyStdString 18 macAddress
                   ssid := copyStdString 256 read.ipAddress } }] }

/-- The order of `std::sort`. -/
def comesBefore (left right : WifiCandidate) : Bool :=
  if left.interfaceName ≠ right.interfaceName then left.interfaceName < right.interfaceName
  else left.device.macAddress < right.device.macAddress

/-- `arp` is the table, if it can be opened. No two candidates are equal for the order, so that it
does not matter how the sort treats those. -/
def discoverWifiCandidates (wirelessInterfaces : List Text) (arp : Option Text) :
    List WifiCandidate :=
  match wirelessInterfaces, arp with
  | [], _ => []
  | _, none => []
  | _, some input =>
    let rest := ((getline input).map Prod.snd).getD []
    let found := readLoop getline (scanLine wirelessInterfaces) rest.length rest ⟨[], []⟩
    found.candidates.mergeSort fun left right => !comesBefore right left

/-! ## What the candidates are -/

/-- The capital of a small letter, and any other byte as it is. -/
def capital (b : UInt8) : UInt8 :=
  (((ascii "abcdefghijklmnopqrstuvwxyz").zip (ascii "ABCDEFGHIJKLMNOPQRSTUVWXYZ")).lookup b).getD b

/-- The fields of a line, with the MAC text in capitals. -/
def neighbour (line : Text) : Option ArpLine :=
  match words line with
  | ipAddress :: _ :: _ :: macAddress :: _ :: interfaceName :: _ =>
    some ⟨ipAddress, macAddress.map capital, interfaceName⟩
  | _ => none

def isUsable (wirelessInterfaces : List Text) (read : ArpLine) : Bool :=
  read.macAddress ≠ zeroMac ∧ read.interfaceName ∈ wirelessInterfaces

/-- The neighbours on wireless interfaces, in the order of their lines. -/
def neighbours (wirelessInterfaces : List Text) (input : Text) : List ArpLine :=
  (((lines input).drop 1).filterMap neighbour).filter (isUsable wirelessInterfaces)

def ArpLine.pair (read : ArpLine) : Text × Text := (read.interfaceName, read.macAddress)

def WifiCandidate.pair (candidate : WifiCandidate) : Text × Text :=
  (candidate.interfaceName, candidate.device.macAddress)

/-- One candidate for each pair of interface and MAC text, in order, with the address of the first
line of the pair. -/
structure OnePerPair (reads : List ArpLine) (candidates : List WifiCandidate) : Prop where
  pairs : ∀ pair, (∃ c ∈ candidates, c.pair = pair) ↔ ∃ read ∈ reads, read.pair = pair
  first : ∀ c ∈ candidates,
    (reads.find? (·.pair = c.pair)).map ArpLine.ipAddress = some c.ipAddress
  once : (candidates.map WifiCandidate.pair).Nodup
  increasing : candidates.Pairwise fun left right => left.interfaceName < right.interfaceName ∨
    left.interfaceName = right.interfaceName ∧ left.device.macAddress < right.device.macAddress

/-! ## Lines -/

theorem toupper_eq (b : UInt8) : toupper b = capital b := by
  revert b
  refine @forall_byte _ ?_
  decide +kernel

theorem normalizeMac_eq (value : Text) : normalizeMac value = value.map capital :=
  List.map_congr_left fun b _ => toupper_eq b

theorem readArpLine_eq (line : Text) :
    (readArpLine line).map (fun read => { read with macAddress := normalizeMac read.macAddress }) =
      neighbour line := by
  rw [readArpLine, readWords_eq, neighbour]
  match words line with
  | [] | [_] | [_, _] | [_, _, _] | [_, _, _, _] | [_, _, _, _, _] => rfl
  | _ :: _ :: _ :: _ :: _ :: _ :: rest => simp [normalizeMac_eq]

/-- The candidate of a line. -/
def candidateOf (read : ArpLine) : WifiCandidate where
  interfaceName := read.interfaceName
  ipAddress := read.ipAddress
  device :=
    { type := .wifiAdapter
      rssi := ⟨0, false⟩
      macAddress := copyStdString 18 read.macAddress
      ssid := copyStdString 256 read.ipAddress }

def ArpLine.key (read : ArpLine) : Text := read.interfaceName ++ ascii "|" ++ read.macAddress

/-- A line of a neighbour that may be used. -/
def addNeighbour (found : Found) (read : ArpLine) : Found :=
  if read.key ∈ found.seen then found
  else ⟨read.key :: found.seen, found.candidates ++ [candidateOf read]⟩

theorem scanLine_none {wirelessInterfaces : List Text} {found : Found} {line : Text}
    (h : neighbour line = none) : scanLine wirelessInterfaces found line = found := by
  rw [← readArpLine_eq, Option.map_eq_none_iff] at h
  rw [scanLine, h]

theorem scanLine_some {wirelessInterfaces : List Text} {found : Found} {line : Text} {read : ArpLine}
    (h : neighbour line = some read) :
    scanLine wirelessInterfaces found line =
      if isUsable wirelessInterfaces read then addNeighbour found read else found := by
  rw [← readArpLine_eq] at h
  obtain ⟨raw, hraw, rfl⟩ := Option.map_eq_some_iff.mp h
  rw [scanLine, hraw]
  dsimp only
  by_cases hskip : normalizeMac raw.macAddress = zeroMac ∨ raw.interfaceName ∉ wirelessInterfaces
  · have hunusable : isUsable wirelessInterfaces
        { raw with macAddress := normalizeMac raw.macAddress } = false := by
      rw [isUsable, decide_eq_false_iff_not]
      tauto
    rw [if_pos hskip, hunusable]
    rfl
  · have husable : isUsable wirelessInterfaces
        { raw with macAddress := normalizeMac raw.macAddress } = true := by
      rw [isUsable, decide_eq_true_iff]
      tauto
    rw [if_neg hskip, if_pos husable]
    rfl

theorem foldl_scanLine (wirelessInterfaces : List Text) (ls : List Text) (found : Found) :
    ls.foldl (scanLine wirelessInterfaces) found =
      ((ls.filterMap neighbour).filter (isUsable wirelessInterfaces)).foldl addNeighbour found := by
  induction ls generalizing found with
  | nil => rfl
  | cons line ls ih =>
    rw [List.foldl_cons]
    cases hread : neighbour line with
    | none => rw [scanLine_none hread, List.filterMap_cons_none hread, ih]
    | some read =>
      rw [scanLine_some hread, List.filterMap_cons_some hread, List.filter_cons]
      split
      · rw [List.foldl_cons, ih]
      · exact ih found

/-! ## The first line of each pair -/

theorem key_injective {read read' : ArpLine} (hread : read.macAddress.length = 17)
    (hread' : read'.macAddress.length = 17) (h : read.key = read'.key) : read.pair = read'.pair := by
  have hlength : read.interfaceName.length = read'.interfaceName.length := by
    have htotal := congrArg List.length h
    simp only [ArpLine.key, List.length_append, hread, hread'] at htotal
    omega
  rw [ArpLine.key, ArpLine.key, List.append_assoc, List.append_assoc] at h
  obtain ⟨hinterface, hmac⟩ := List.append_inj h hlength
  rw [ArpLine.pair, ArpLine.pair, hinterface, List.append_cancel_left hmac]

theorem key_of_pair {read read' : ArpLine} (h : read.pair = read'.pair) : read.key = read'.key := by
  rw [ArpLine.pair, ArpLine.pair, Prod.mk.injEq] at h
  rw [ArpLine.key, ArpLine.key, h.1, h.2]

theorem candidateOf_pair {read : ArpLine} (hlength : read.macAddress.length = 17)
    (hnul : 0 ∉ read.macAddress) : (candidateOf read).pair = read.pair := by
  have hcopy : copyStdString 18 read.macAddress = read.macAddress := by
    have htext : read.macAddress.takeWhile (· != 0) = read.macAddress :=
      List.takeWhile_eq_self_iff.mpr fun b hb => by
        rw [bne_iff_ne]
        exact fun hzero => hnul (hzero ▸ hb)
    rw [copyStdString, htext]
    exact List.take_of_length_le hlength.le
  rw [WifiCandidate.pair, ArpLine.pair, candidateOf, hcopy]

/-- A MAC text that is copied in full. -/
def WellFormed (read : ArpLine) : Prop := read.macAddress.length = 17 ∧ 0 ∉ read.macAddress

/-- What the loop has found in some lines. -/
structure FirstOfEach (reads : List ArpLine) (found : Found) : Prop where
  seen : ∀ key, key ∈ found.seen ↔ ∃ read ∈ reads, read.key = key
  once : (found.candidates.map WifiCandidate.pair).Nodup
  first : ∀ c, c ∈ found.candidates ↔
    ∃ read, reads.find? (·.pair = read.pair) = some read ∧ c = candidateOf read

theorem find?_pair_concat {reads : List ArpLine} {read other : ArpLine} :
    (reads ++ [read]).find? (·.pair = other.pair) = some other ↔
      reads.find? (·.pair = other.pair) = some other ∨
        other = read ∧ ∀ earlier ∈ reads, earlier.pair ≠ read.pair := by
  rw [List.find?_append]
  cases hfind : reads.find? (·.pair = other.pair) with
  | none =>
    rw [List.find?_eq_none] at hfind
    simp only [decide_eq_true_eq] at hfind
    rw [Option.none_or, List.find?_singleton]
    constructor
    · intro hread
      split at hread
      · cases hread
        exact .inr ⟨rfl, hfind⟩
      · cases hread
    · rintro (hnone | ⟨rfl, -⟩)
      · cases hnone
      · rw [if_pos (decide_eq_true rfl)]
  | some earlier =>
    have hpair : earlier.pair = other.pair := by simpa using List.find?_some hfind
    have hmem := List.mem_of_find?_eq_some hfind
    rw [Option.some_or]
    constructor
    · exact .inl
    · rintro (hsome | ⟨rfl, hfresh⟩)
      · exact hsome
      · exact absurd hpair (hfresh earlier hmem)

theorem FirstOfEach.addNeighbour {reads : List ArpLine} {found : Found} (h : FirstOfEach reads found)
    {read : ArpLine} (hreads : ∀ earlier ∈ reads, WellFormed earlier) (hread : WellFormed read) :
    FirstOfEach (reads ++ [read]) (addNeighbour found read) := by
  rw [Wifi.addNeighbour]
  split
  · rename_i hseen
    obtain ⟨earlier, hmem, hkey⟩ := (h.seen _).mp hseen
    have hpair := key_injective (hreads earlier hmem).1 hread.1 hkey
    refine ⟨fun key => ?_, h.once, fun c => ?_⟩
    · rw [h.seen]
      constructor
      · rintro ⟨r, hr, rfl⟩
        exact ⟨r, List.mem_append_left _ hr, rfl⟩
      · rintro ⟨r, hr, rfl⟩
        rcases List.mem_append.mp hr with hr | hr
        · exact ⟨r, hr, rfl⟩
        · cases List.mem_singleton.mp hr
          exact ⟨earlier, hmem, hkey⟩
    · rw [h.first]
      refine exists_congr fun r => and_congr_left fun _ => ?_
      rw [find?_pair_concat]
      exact ⟨.inl, fun hor => hor.resolve_right fun hfresh => hfresh.2 earlier hmem hpair⟩
  · rename_i hnew
    have hfresh : ∀ earlier ∈ reads, earlier.pair ≠ read.pair := fun earlier hmem hpair =>
      hnew ((h.seen _).mpr ⟨earlier, hmem, key_of_pair hpair⟩)
    refine ⟨fun key => ?_, ?_, fun c => ?_⟩
    · rw [List.mem_cons, h.seen]
      constructor
      · rintro (rfl | ⟨r, hr, rfl⟩)
        · exact ⟨read, by simp, rfl⟩
        · exact ⟨r, List.mem_append_left _ hr, rfl⟩
      · rintro ⟨r, hr, rfl⟩
        rcases List.mem_append.mp hr with hr | hr
        · exact .inr ⟨r, hr, rfl⟩
        · cases List.mem_singleton.mp hr
          exact .inl rfl
    · rw [List.map_append, List.map_singleton, candidateOf_pair hread.1 hread.2, ← List.concat_eq_append]
      refine h.once.concat fun hmem => ?_
      obtain ⟨c, hc, hpair⟩ := List.mem_map.mp hmem
      obtain ⟨r, hfind, rfl⟩ := (h.first c).mp hc
      have hr := List.mem_of_find?_eq_some hfind
      rw [candidateOf_pair (hreads r hr).1 (hreads r hr).2] at hpair
      exact hfresh r hr hpair
    · rw [List.mem_append, List.mem_singleton, h.first]
      constructor
      · rintro (⟨r, hfind, rfl⟩ | rfl)
        · exact ⟨r, find?_pair_concat.mpr (.inl hfind), rfl⟩
        · exact ⟨read, find?_pair_concat.mpr (.inr ⟨rfl, hfresh⟩), rfl⟩
      · rintro ⟨r, hfind, rfl⟩
        rcases find?_pair_concat.mp hfind with hearlier | ⟨rfl, -⟩
        · exact .inl ⟨r, hearlier, rfl⟩
        · exact .inr rfl

theorem firstOfEach {reads : List ArpLine} (hreads : ∀ read ∈ reads, WellFormed read) :
    FirstOfEach reads (reads.foldl addNeighbour ⟨[], []⟩) := by
  induction reads using List.reverseRecOn with
  | nil => exact ⟨by simp, List.nodup_nil, by simp⟩
  | append_singleton reads read ih =>
    rw [List.foldl_append, List.foldl_cons, List.foldl_nil]
    have hearlier : ∀ r ∈ reads, WellFormed r := fun r hr => hreads r (List.mem_append_left _ hr)
    exact (ih hearlier).addNeighbour hearlier (hreads read (by simp))

/-! ## The order -/

theorem comesBefore_iff {left right : WifiCandidate} :
    comesBefore left right ↔
      left.interfaceName < right.interfaceName ∨
        left.interfaceName = right.interfaceName ∧ left.device.macAddress < right.device.macAddress := by
  rw [comesBefore]
  split
  · rename_i hne
    simp [hne]
  · rename_i heq
    rw [not_not] at heq
    simp [heq, List.lt_irrefl]

theorem lt_of_le_of_ne {a b : Text} (hle : a ≤ b) (hne : a ≠ b) : a < b :=
  List.not_le.mp fun hge => hne (List.le_antisymm hle hge)

/-- The order in which no candidate comes before an earlier one. -/
theorem not_comesBefore_iff {left right : WifiCandidate} :
    (!comesBefore right left) = true ↔
      left.interfaceName < right.interfaceName ∨
        left.interfaceName = right.interfaceName ∧ left.device.macAddress ≤ right.device.macAddress := by
  rw [Bool.not_eq_true', ← Bool.not_eq_true, comesBefore_iff, not_or, not_and, List.not_lt, List.not_lt]
  constructor
  · rintro ⟨hle, hmac⟩
    by_cases heq : left.interfaceName = right.interfaceName
    · exact .inr ⟨heq, hmac heq.symm⟩
    · exact .inl (lt_of_le_of_ne hle heq)
  · rintro (hlt | ⟨heq, hmac⟩)
    · exact ⟨List.le_of_lt hlt, fun heq => absurd (heq ▸ hlt) (List.lt_irrefl _)⟩
    · exact ⟨heq ▸ List.le_refl _, fun _ => hmac⟩

theorem not_comesBefore_trans (a b c : WifiCandidate) (h : (!comesBefore b a) = true)
    (h' : (!comesBefore c b) = true) : (!comesBefore c a) = true := by
  rw [not_comesBefore_iff] at *
  rcases h with hlt | ⟨heq, hle⟩
  · rcases h' with hlt' | ⟨heq', -⟩
    · exact .inl (List.lt_trans hlt hlt')
    · exact .inl (heq' ▸ hlt)
  · rcases h' with hlt' | ⟨heq', hle'⟩
    · exact .inl (heq ▸ hlt')
    · exact .inr ⟨heq.trans heq', List.le_trans hle hle'⟩

theorem not_comesBefore_total (a b : WifiCandidate) :
    ((!comesBefore b a) || !comesBefore a b) = true := by
  rw [Bool.or_eq_true, not_comesBefore_iff, not_comesBefore_iff]
  by_cases heq : a.interfaceName = b.interfaceName
  · rcases List.le_total a.device.macAddress b.device.macAddress with hmac | hmac
    · exact .inl (.inr ⟨heq, hmac⟩)
    · exact .inr (.inr ⟨heq.symm, hmac⟩)
  · rcases List.le_total a.interfaceName b.interfaceName with hle | hle
    · exact .inl (.inl (lt_of_le_of_ne hle heq))
    · exact .inr (.inl (lt_of_le_of_ne hle (Ne.symm heq)))

/-- Candidates of different pairs that are in order are strictly so. -/
theorem comesBefore_of_ne {left right : WifiCandidate} (h : (!comesBefore right left) = true)
    (hne : left.pair ≠ right.pair) : comesBefore left right := by
  rw [not_comesBefore_iff] at h
  rw [comesBefore_iff]
  refine h.imp_right fun ⟨heq, hle⟩ => ⟨heq, List.not_le.mp fun hge => hne ?_⟩
  rw [WifiCandidate.pair, WifiCandidate.pair, heq, List.le_antisymm hle hge]

/-- The sort of candidates of different pairs is strictly increasing. -/
theorem pairwise_sorted {candidates : List WifiCandidate}
    (honce : (candidates.map WifiCandidate.pair).Nodup) :
    (candidates.mergeSort fun left right => !comesBefore right left).Pairwise
      fun left right => comesBefore left right := by
  have hsorted := List.pairwise_mergeSort not_comesBefore_trans not_comesBefore_total candidates
  have hperm := List.mergeSort_perm candidates fun left right => !comesBefore right left
  have honce' := (hperm.map WifiCandidate.pair).nodup_iff.mpr honce
  rw [List.Nodup, List.pairwise_map] at honce'
  exact (hsorted.and honce').imp fun h => comesBefore_of_ne h.1 h.2

/-! ## The result -/

theorem neighbours_nil (input : Text) : neighbours [] input = [] := by
  rw [neighbours, List.filter_eq_nil_iff]
  simp [isUsable]

theorem discoverWifiCandidates_eq (wirelessInterfaces : List Text) (input : Text) :
    discoverWifiCandidates wirelessInterfaces (some input) =
      ((neighbours wirelessInterfaces input).foldl addNeighbour ⟨[], []⟩).candidates.mergeSort
        fun left right => !comesBefore right left := by
  cases wirelessInterfaces with
  | nil =>
    rw [neighbours_nil, List.foldl_nil, List.mergeSort_nil, discoverWifiCandidates]
  | cons interfaceName others =>
    rw [discoverWifiCandidates, reads_getline.readLoop_eq _ le_rfl, ← lines_drop, foldl_scanLine,
      neighbours]
    nofun

/-- The MAC text of a neighbour is a word of a line, in capitals. -/
theorem neighbour_macAddress {line : Text} {read : ArpLine} (h : neighbour line = some read) :
    ∃ word ∈ words line, read.macAddress = word.map capital := by
  rw [neighbour] at h
  split at h
  · rename_i hwords
    cases h
    exact ⟨_, by rw [hwords]; simp, rfl⟩
  · cases h

theorem wellFormed_neighbours {wirelessInterfaces : List Text} {input : Text} (hnul : 0 ∉ input)
    (hmac : ∀ line ∈ (lines input).drop 1, ∀ read, neighbour line = some read →
      read.macAddress.length = 17) :
    ∀ read ∈ neighbours wirelessInterfaces input, WellFormed read := by
  intro read hread
  obtain ⟨line, hline, hneighbour⟩ := List.mem_filterMap.mp (List.mem_of_mem_filter hread)
  refine ⟨hmac line hline read hneighbour, fun hzero => ?_⟩
  obtain ⟨word, hword, hcapitals⟩ := neighbour_macAddress hneighbour
  rw [hcapitals] at hzero
  obtain ⟨b, hb, hcapital⟩ := List.mem_map.mp hzero
  have hinput := (infix_of_mem_lines (List.mem_of_mem_drop hline)).subset
    ((infix_of_mem_wordsBy hword).1.subset hb)
  rw [toupper_eq_zero ((toupper_eq b).trans hcapital)] at hinput
  exact hnul hinput

/-- The candidates are one for each pair of a usable interface and a MAC text in the lines. -/
theorem discoverWifiCandidates_onePerPair {wirelessInterfaces : List Text} {input : Text}
    (hnul : 0 ∉ input)
    (hmac : ∀ line ∈ (lines input).drop 1, ∀ read, neighbour line = some read →
      read.macAddress.length = 17) :
    OnePerPair (neighbours wirelessInterfaces input)
      (discoverWifiCandidates wirelessInterfaces (some input)) := by
  have hreads := @wellFormed_neighbours wirelessInterfaces _ hnul hmac
  have hfound := firstOfEach hreads
  have hperm := List.mergeSort_perm
    ((neighbours wirelessInterfaces input).foldl addNeighbour ⟨[], []⟩).candidates
    fun left right => !comesBefore right left
  rw [discoverWifiCandidates_eq]
  generalize neighbours wirelessInterfaces input = reads at *
  have hpair : ∀ read ∈ reads, (candidateOf read).pair = read.pair := fun read hread =>
    candidateOf_pair (hreads read hread).1 (hreads read hread).2
  refine ⟨fun pair => ?_, fun c hc => ?_, ?_,
    (pairwise_sorted hfound.once).imp fun hbefore => comesBefore_iff.mp hbefore⟩
  · constructor
    · rintro ⟨c, hc, rfl⟩
      obtain ⟨read, hfind, rfl⟩ := (hfound.first c).mp (hperm.mem_iff.mp hc)
      have hread := List.mem_of_find?_eq_some hfind
      exact ⟨read, hread, (hpair read hread).symm⟩
    · rintro ⟨read, hread, rfl⟩
      -- The first line of the pair is the one that is kept.
      cases hfind : reads.find? (·.pair = read.pair) with
      | none => simpa using List.find?_eq_none.mp hfind read hread
      | some first =>
        have hfirst : first.pair = read.pair := by simpa using List.find?_some hfind
        rw [← hfirst] at hfind
        refine ⟨candidateOf first, hperm.mem_iff.mpr ((hfound.first _).mpr ⟨first, hfind, rfl⟩), ?_⟩
        rw [hpair first (List.mem_of_find?_eq_some hfind), hfirst]
  · obtain ⟨read, hfind, rfl⟩ := (hfound.first c).mp (hperm.mem_iff.mp hc)
    rw [hpair read (List.mem_of_find?_eq_some hfind), hfind]
    rfl
  · exact (hperm.map WifiCandidate.pair).nodup_iff.mpr hfound.once

/-- A neighbour that is listed twice. -/
theorem discoverWifiCandidates_onePerPair_listed_twice :
    OnePerPair
      (neighbours [ascii "wlan0"]
        (ascii "IP\n10.0.0.2 1 2 b8:27:eb:00:00:02 * wlan0\n10.0.0.3 1 2 B8:27:EB:00:00:02 * wlan0"))
      (discoverWifiCandidates [ascii "wlan0"] (some
        (ascii "IP\n10.0.0.2 1 2 b8:27:eb:00:00:02 * wlan0\n10.0.0.3 1 2 B8:27:EB:00:00:02 * wlan0"))) :=
  discoverWifiCandidates_onePerPair (by decide +kernel) (by decide +kernel)

end SensorLib.Wifi
