import SensorLib.Text.Elements
import SensorLib.Text.Numbers

/-! # Results of a Wi-Fi scan

The information elements come from the radio frames of other stations. A read
behind the end of the elements or of an attribute, and an overflow of an `int`,
are faults, for which there is no result.
-/

namespace SensorLib.Wifi

open CString Elements

def addInt (a b : Nat) : Option Nat := if a + b ≤ 0x7FFFFFFF then some (a + b) else none

def readByte (ies : List UInt8) (len i : Nat) : Option UInt8 := if i < len then ies[i]? else none

/-- The loop, with a bound on the number of rounds. The result is where the data begins and the
length, or `none` for a null pointer. -/
def findLoop (ies : List UInt8) (len : Nat) : Nat → Nat → Option (Option (Nat × Nat))
  | 0, _ => none
  | bound + 1, pos => do
    let data ← addInt pos 2
    if data ≤ len then
      let id ← readByte ies len pos
      let ieLen ← readByte ies len (pos + 1)
      let behind ← addInt data ieLen.toNat
      if len < behind then some none
      else if id = 0 then some (some (data, ieLen.toNat))
      else
        let pos ← addInt pos (2 + ieLen.toNat)
        findLoop ies len bound pos
    else some none

def findSsidIe (ies : List UInt8) (len : Nat) : Option (Option (Nat × Nat)) :=
  findLoop ies len (len + 1) 0

/-- Six bytes are read of the address. -/
def macToString : List UInt8 → Option Text
  | a :: b :: c :: d :: e :: f :: _ => some (List.intercalate [58] ([a, b, c, d, e, f].map hexByte))
  | _ => none

/-- Two digits at a time, with colons between them. -/
def joinPairs : Text → Text
  | [a, b] => [a, b]
  | a :: b :: hex => a :: b :: 58 :: joinPairs hex
  | hex => hex

def normalizeMacAddress (input : Text) : Text :=
  let hex := ((input.filter isxdigit).take 12).map toupper
  if hex.length < 12 then [] else joinPairs hex

/-- The signal is the one of the attribute, in hundredths of a dBm. -/
structure WifiNetwork where
  ssid : List UInt8
  bssid : Text
  signalMbm : Option Int
  deriving DecidableEq, Repr

/-- The payloads of the nested attributes that are read. -/
structure BssAttributes where
  bssid : Option (List UInt8)
  informationElements : Option (List UInt8)
  signalMbm : Option Int
  deriving DecidableEq, Repr

inductive NlAction
  | skip | ok
  deriving DecidableEq, Repr

/-- The name in the information elements, which is assigned if it is not empty. -/
def reportedSsid (ies : List UInt8) : Option (List UInt8) := do
  match ← findSsidIe ies ies.length with
  | none => some []
  | some (ssid, ssidLen) =>
    if 0 < ssidLen then
      if ssid + ssidLen ≤ ies.length then some ((ies.drop ssid).take ssidLen) else none
    else some []

/-- `bss` is the attribute for the station, if the message has one. -/
def scanResultHandler (bss : Option BssAttributes) (networks : List WifiNetwork) :
    Option (NlAction × List WifiNetwork) :=
  match bss with
  | none => some (.skip, networks)
  | some bss => do
    let bssid ←
      match bss.bssid with
      | none => some []
      | some mac => (macToString mac).map normalizeMacAddress
    if bssid = [] then some (.skip, networks)
    else
      let ssid ←
        match bss.informationElements with
        | none => some []
        | some ies => reportedSsid ies
      some (.ok, networks ++ [⟨ssid, bssid, bss.signalMbm⟩])

/-! ## The first name -/

/-- The data that a result points to, and the length that is returned with it. -/
def dataAt (ies : List UInt8) (out : Option (Nat × Nat)) : Option (List UInt8 × Nat) :=
  out.map fun (ssid, outLen) => ((ies.drop ssid).take outLen, outLen)

/-- The data of the first element with id 0. -/
def firstSsid (es : List Element) : Option (List UInt8 × Nat) :=
  (es.find? (·.id = 0)).map fun e => (e.data, e.data.length)

theorem readByte_eq (ies : List UInt8) (len i : Nat) : readByte ies len i = (ies.take len)[i]? := by
  rw [readByte, List.getElem?_take]

theorem readByte_of_drop {ies rest : List UInt8} {len pos : Nat} {id ieLen : UInt8}
    (h : (ies.take len).drop pos = id :: ieLen :: rest) :
    readByte ies len pos = some id ∧ readByte ies len (pos + 1) = some ieLen := by
  rw [readByte_eq, readByte_eq]
  constructor
  · rw [← Nat.add_zero pos, ← List.getElem?_drop, h]
    rfl
  · rw [← List.getElem?_drop, h]
    rfl

theorem length_of_drop {ies rest : List UInt8} {len pos : Nat} (hies : len ≤ ies.length)
    (h : (ies.take len).drop pos = rest) : rest.length = len - pos := by
  rw [← h, List.length_drop, List.length_take, Nat.min_eq_left hies]

theorem addInt_eq {a b : Nat} (h : a + b ≤ 0x7FFFFFFF) : addInt a b = some (a + b) := if_pos h

/-- The header of an element is read, and the loop goes on to the data. -/
theorem findLoop_header {ies rest : List UInt8} {id ieLen : UInt8} {len bound pos : Nat}
    (hlen : len ≤ 65535) (hpos : pos + 2 ≤ len)
    (hdrop : (ies.take len).drop pos = id :: ieLen :: rest) :
    findLoop ies len (bound + 1) pos =
      if len < pos + 2 + ieLen.toNat then some none
      else if id = 0 then some (some (pos + 2, ieLen.toNat))
      else findLoop ies len bound (pos + (2 + ieLen.toNat)) := by
  obtain ⟨hid, hieLen⟩ := readByte_of_drop hdrop
  have hbyte := ieLen.toNat_lt
  rw [findLoop, addInt_eq (by omega)]
  simp only [Option.bind_eq_bind, Option.bind_some, hid, hieLen, if_pos hpos,
    addInt_eq (show pos + 2 + ieLen.toNat ≤ 0x7FFFFFFF by omega),
    addInt_eq (show pos + (2 + ieLen.toNat) ≤ 0x7FFFFFFF by omega)]

/-- From the front of some elements and a stuck rest on, the loop finds the first name. -/
theorem findLoop_eq {ies rest : List UInt8} {es : List Element} {len bound pos : Nat}
    (hlen : len ≤ 65535) (hies : len ≤ ies.length) (hpos : pos ≤ len) (hbound : len < pos + bound)
    (hdrop : (ies.take len).drop pos = bytesOf es ++ rest) (hstuck : Stuck rest) :
    ∃ out, findLoop ies len bound pos = some out ∧ dataAt ies out = firstSsid es := by
  induction es generalizing bound pos with
  | nil =>
    refine ⟨none, ?_, rfl⟩
    have hlength := length_of_drop hies hdrop
    cases bound with
    | zero => omega
    | succ bound =>
      match rest with
      | [] | [_] =>
        simp only [bytesOf_nil, List.nil_append, List.length_cons, List.length_nil] at hlength
        rw [findLoop, addInt_eq (by omega), Option.bind_eq_bind, Option.bind_some, if_neg (by omega)]
      | id :: ieLen :: rest =>
        have hcut := stuck_header_iff.mp hstuck
        simp only [bytesOf_nil, List.nil_append, List.length_cons] at hlength
        rw [findLoop_header hlen (by omega) hdrop, if_pos (by omega)]
  | cons e es ih =>
    have hlength := length_of_drop hies hdrop
    rw [bytesOf_cons, Element.bytes, List.append_assoc, List.cons_append, List.cons_append] at hdrop
    rw [bytesOf_cons, List.append_assoc, List.length_append, length_bytes] at hlength
    have hieLen := toNat_length e
    -- What is left behind the header, and behind the data.
    have hdata : (ies.take len).drop (pos + 2) = e.data ++ (bytesOf es ++ rest) := by
      rw [← List.drop_drop, hdrop]
      rfl
    have hrest : (ies.take len).drop (pos + (2 + e.data.length)) = bytesOf es ++ rest := by
      rw [← Nat.add_assoc, ← List.drop_drop, hdata, List.drop_left]
    cases bound with
    | zero => omega
    | succ bound =>
      rw [findLoop_header hlen (by omega) hdrop, hieLen, if_neg (by omega)]
      by_cases hid : e.id = 0
      · refine ⟨some (pos + 2, e.data.length), by rw [if_pos hid], ?_⟩
        rw [List.drop_take] at hdata
        have htake := congrArg (List.take e.data.length) hdata
        rw [List.take_take, Nat.min_eq_left (by omega), List.take_left] at htake
        rw [firstSsid, List.find?_cons_of_pos (by simpa using hid), dataAt, Option.map_some,
          Option.map_some]
        dsimp only
        rw [htake]
      · rw [if_neg hid, firstSsid, List.find?_cons_of_neg (by simpa using hid)]
        exact ih (by omega) (by omega) hrest

/-- In bytes of which a part is given, the first name of the longest sequence of elements is found. -/
theorem findSsidIe_longest {ies : List UInt8} {len : Nat} (hlen : len ≤ 65535)
    (hies : len ≤ ies.length) {es : List Element} (hes : IsLongest (ies.take len) es) :
    ∃ out, findSsidIe ies len = some out ∧ dataAt ies out = firstSsid es := by
  obtain ⟨rest, hbytes, hstuck⟩ := hes.exists_stuck
  exact findLoop_eq hlen hies (Nat.zero_le len) (by omega) (by rw [List.drop_zero, hbytes]) hstuck

theorem findSsidIe_cutOff {es : List Element} {rest : List UInt8} (hrest : CutOff rest)
    (after : List UInt8) (hlen : (bytesOf es ++ rest).length ≤ 65535) :
    ∃ out, findSsidIe (bytesOf es ++ rest ++ after) (bytesOf es ++ rest).length = some out ∧
      dataAt (bytesOf es ++ rest ++ after) out = firstSsid es := by
  refine findSsidIe_longest hlen (by simp) ?_
  rw [List.take_left]
  exact isLongest_of_stuck es hrest.stuck

/-! ## What is reported -/

/-- The data that is found lies in the elements. -/
theorem reportedSsid_eq {es : List Element} {rest : List UInt8} (hrest : CutOff rest)
    (hlen : (bytesOf es ++ rest).length ≤ 65535) :
    reportedSsid (bytesOf es ++ rest) = some (((firstSsid es).map Prod.fst).getD []) := by
  obtain ⟨out, hfind, hdata⟩ := findSsidIe_cutOff hrest [] hlen
  rw [List.append_nil] at hfind hdata
  rw [reportedSsid, hfind, Option.bind_eq_bind, Option.bind_some, ← hdata]
  cases out with
  | none => rfl
  | some found =>
    obtain ⟨ssid, ssidLen⟩ := found
    rw [dataAt, Option.map_some, firstSsid, eq_comm, Option.map_eq_some_iff] at hdata
    obtain ⟨e, -, he⟩ := hdata
    have hdata' : e.data = ((bytesOf es ++ rest).drop ssid).take ssidLen := congrArg Prod.fst he
    have hlength : e.data.length = ssidLen := congrArg Prod.snd he
    rw [hdata', List.length_take, List.length_drop] at hlength
    rw [dataAt, Option.map_some, Option.map_some, Option.getD_some]
    dsimp only
    split
    · rw [if_pos (by omega)]
    · rename_i hzero
      rw [Nat.eq_zero_of_not_pos hzero, List.take_zero]

/-- The address is printed as it is normalised. -/
theorem normalizeMacAddress_macToString {mac : List UInt8} (hmac : 6 ≤ mac.length) :
    ∃ text, macToString mac = some text ∧ normalizeMacAddress text = text ∧ text ≠ [] := by
  match mac with
  | a :: b :: c :: d :: e :: f :: rest =>
    have hdigits := fun b : UInt8 => isxdigit_hexDigit (n := b.toNat / 16) (by have := b.toNat_lt; omega)
    have hdigits' := fun b : UInt8 => isxdigit_hexDigit (n := b.toNat % 16) (by omega)
    refine ⟨_, rfl, ?_, ?_⟩
    · simp [normalizeMacAddress, hexByte, List.intercalate, hdigits, hdigits', joinPairs,
        show isxdigit 58 = false from rfl]
    · simp [hexByte, List.intercalate]

/-- The name that is reported is the data of the first element with id 0. -/
theorem scanResultHandler_reports {mac : List UInt8} (hmac : 6 ≤ mac.length) {es : List Element}
    {rest : List UInt8} (hrest : CutOff rest) (hlen : (bytesOf es ++ rest).length ≤ 65535)
    (signal : Option Int) (networks : List WifiNetwork) :
    ∃ net, scanResultHandler (some ⟨some mac, some (bytesOf es ++ rest), signal⟩) networks =
        some (.ok, networks ++ [net]) ∧
      net.ssid = ((firstSsid es).map Prod.fst).getD [] := by
  obtain ⟨text, htext, hnormal, hne⟩ := normalizeMacAddress_macToString hmac
  refine ⟨⟨((firstSsid es).map Prod.fst).getD [], text, signal⟩, ?_, rfl⟩
  simp only [scanResultHandler, htext, Option.map_some, hnormal, Option.bind_eq_bind,
    Option.bind_some, if_neg hne, reportedSsid_eq hrest hlen]

/-- In any bytes the search ends without a fault, and what it finds is the data of the first element
with id 0 in the longest sequence of complete elements; so it does behind every list of elements, and
the handler reports that data. -/
theorem findSsidIe_first_element :
    (∀ (ies : List UInt8) (len : Nat), len ≤ 65535 → len ≤ ies.length →
      (∃ es, IsLongest (ies.take len) es) ∧
        ∃ out, findSsidIe ies len = some out ∧
          ∀ es, IsLongest (ies.take len) es → dataAt ies out = firstSsid es) ∧
    ∀ (es : List Element) (rest : List UInt8), CutOff rest → (bytesOf es ++ rest).length ≤ 65535 →
      (∀ after, ∃ out, findSsidIe (bytesOf es ++ rest ++ after) (bytesOf es ++ rest).length = some out ∧
        dataAt (bytesOf es ++ rest ++ after) out = firstSsid es) ∧
      ∀ (mac : List UInt8) (signal : Option Int) (networks : List WifiNetwork), 6 ≤ mac.length →
        ∃ net, scanResultHandler (some ⟨some mac, some (bytesOf es ++ rest), signal⟩) networks =
            some (.ok, networks ++ [net]) ∧
          net.ssid = ((firstSsid es).map Prod.fst).getD [] := by
  refine ⟨fun ies len hlen hies => ?_, fun es rest hrest hlen => ?_⟩
  · obtain ⟨longest, hlongest⟩ := exists_isLongest (ies.take len)
    obtain ⟨out, hfind, -⟩ := findSsidIe_longest hlen hies hlongest
    refine ⟨⟨longest, hlongest⟩, out, hfind, fun es hes => ?_⟩
    obtain ⟨out', hfind', hdata⟩ := findSsidIe_longest hlen hies hes
    cases hfind.symm.trans hfind'
    exact hdata
  · exact ⟨fun after => findSsidIe_cutOff hrest after hlen, fun mac signal networks hmac =>
      scanResultHandler_reports hmac hrest hlen signal networks⟩

/-- A name behind another element, and an element that is cut off. -/
theorem findSsidIe_first_element_cut_off :
    (∃ out, findSsidIe [1, 1, 2, 0, 2, 80, 105, 3, 5, 1, 255] 10 = some out ∧
      dataAt [1, 1, 2, 0, 2, 80, 105, 3, 5, 1, 255] out = some (ascii "Pi", 2)) ∧
      ∃ net, scanResultHandler
          (some ⟨some [0, 1, 2, 3, 4, 5], some [1, 1, 2, 0, 2, 80, 105, 3, 5, 1], none⟩) [] =
            some (.ok, [net]) ∧
        net.ssid = ascii "Pi" := by
  have hcut : CutOff [3, 5, 1] := ⟨⟨3, [1, 0, 0, 0, 0], by decide⟩, ⟨[0, 0, 0, 0], rfl⟩, by decide⟩
  have hall := findSsidIe_first_element.2 [⟨1, [2], by decide⟩, ⟨0, ascii "Pi", by decide⟩] [3, 5, 1] hcut
    (by decide)
  exact ⟨hall.1 [255], hall.2 [0, 1, 2, 3, 4, 5] none [] (by decide)⟩

end SensorLib.Wifi
