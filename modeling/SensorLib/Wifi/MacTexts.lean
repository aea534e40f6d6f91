import SensorLib.Bluez.ScanTable
import SensorLib.Wifi.Candidates
import SensorLib.Wifi.ScanResults

/-! # The texts of a MAC address

Addresses are printed for the networks of a scan, and read from other programs
for the candidates. What is compared are the texts.
-/

namespace SensorLib.Wifi

open CString

/-- Two digits in any case. -/
structure ByteText (byte high low : UInt8) : Prop where
  high_digit : isxdigit high
  low_digit : isxdigit low
  value : digitValue high * 16 + digitValue low = byte.toNat

/-- The bytes with colons between them. -/
inductive MacText : List UInt8 → Text → Prop
  | last {byte high low} (h : ByteText byte high low) : MacText [byte] [high, low]
  | more {byte high low mac text} (h : ByteText byte high low) (rest : MacText mac text) :
      MacText (byte :: mac) (high :: low :: 58 :: text)

/-! ## Digits -/

theorem toupper_toupper (b : UInt8) : toupper (toupper b) = toupper b := by
  revert b
  refine @forall_byte _ ?_
  decide +kernel

theorem toupper_of_isxdigit {b : UInt8} :
    isxdigit b → digitValue b < 16 ∧ toupper b = hexDigit (digitValue b) := by
  revert b
  refine @forall_byte _ ?_
  decide +kernel

theorem isxdigit_toupper {b : UInt8} (h : isxdigit b) : isxdigit (toupper b) := by
  obtain ⟨hvalue, htoupper⟩ := toupper_of_isxdigit h
  rw [htoupper]
  exact (isxdigit_hexDigit hvalue).1

theorem hexByte_eq {byte high low : UInt8} (h : ByteText byte high low) :
    hexByte byte = [toupper high, toupper low] := by
  obtain ⟨hhigh, htophigh⟩ := toupper_of_isxdigit h.high_digit
  obtain ⟨hlow, htoplow⟩ := toupper_of_isxdigit h.low_digit
  have hdiv : byte.toNat / 16 = digitValue high := by rw [← h.value]; omega
  have hmod : byte.toNat % 16 = digitValue low := by rw [← h.value]; omega
  rw [hexByte, hdiv, hmod, htophigh, htoplow]

theorem exists_byteText {high low : UInt8} (hhigh : isxdigit high) (hlow : isxdigit low) :
    ∃ byte, ByteText byte high low := by
  have hhigh_lt := (toupper_of_isxdigit hhigh).1
  have hlow_lt := (toupper_of_isxdigit hlow).1
  refine ⟨.ofNat (digitValue high * 16 + digitValue low), hhigh, hlow, ?_⟩
  rw [UInt8.toNat_ofNat']
  omega

/-! ## Joined pairs -/

theorem map_joinPairs (hex : Text) : (joinPairs hex).map toupper = joinPairs (hex.map toupper) := by
  induction hex using joinPairs.induct with
  | case1 a b => rfl
  | case2 a b hex hne ih =>
    have hcolon : toupper 58 = 58 := rfl
    cases hex with
    | nil => exact absurd rfl hne
    | cons c hex => simp only [joinPairs, List.map_cons, ih, hcolon]
  | case3 hex hpair hmore =>
    rcases hex with _ | ⟨a, _ | ⟨b, _ | ⟨c, hex⟩⟩⟩
    · rfl
    · rfl
    · exact absurd rfl (hpair a b)
    · exact absurd rfl (hmore a b (c :: hex))

/-- Twice as many digits as bytes, and no others. -/
theorem exists_macText (n : Nat) {hex : Text} (hlength : hex.length = 2 * (n + 1))
    (hdigits : ∀ b ∈ hex, isxdigit b) : ∃ mac, mac.length = n + 1 ∧ MacText mac (joinPairs hex) := by
  induction n generalizing hex with
  | zero =>
    match hex, hlength with
    | [high, low], _ =>
      obtain ⟨byte, hbyte⟩ := exists_byteText (hdigits high (by simp)) (hdigits low (by simp))
      exact ⟨[byte], rfl, .last hbyte⟩
  | succ n ih =>
    match hex, hlength with
    | high :: low :: c :: hex, hlength =>
      obtain ⟨byte, hbyte⟩ := exists_byteText (hdigits high (by simp)) (hdigits low (by simp))
      obtain ⟨mac, hmac, htext⟩ := @ih (c :: hex) (by simp only [List.length_cons] at hlength ⊢; omega)
        fun b hb => hdigits b (by simp_all)
      exact ⟨byte :: mac, by rw [List.length_cons, hmac], .more hbyte htext⟩

namespace MacText

variable {mac : List UInt8} {text : Text}

theorem ne_nil (h : MacText mac text) : mac ≠ [] := by
  cases h <;> exact List.cons_ne_nil _ _

/-- The letters' case is all that is free. -/
theorem map_toupper (h : MacText mac text) : text.map toupper = [58].intercalate (mac.map hexByte) := by
  induction h with
  | last h =>
    simp only [List.map_cons, List.map_nil, hexByte_eq h]
    rfl
  | more h rest ih =>
    have hcolon : toupper 58 = 58 := rfl
    obtain ⟨byte, mac, rfl⟩ := List.exists_cons_of_ne_nil rest.ne_nil
    simp only [List.map_cons, hcolon, ih, hexByte_eq h, List.intercalate_cons_cons]
    rfl

theorem filter_isxdigit (h : MacText mac text) :
    ((text.filter isxdigit).map toupper).length = 2 * mac.length ∧
      joinPairs ((text.filter isxdigit).map toupper) = text.map toupper := by
  induction h with
  | last h =>
    rw [List.filter_cons_of_pos h.high_digit, List.filter_cons_of_pos h.low_digit]
    exact ⟨rfl, rfl⟩
  | @more byte high low mac text h rest ih =>
    have hcolon : ¬ isxdigit 58 = true := by decide
    rw [List.filter_cons_of_pos h.high_digit, List.filter_cons_of_pos h.low_digit,
      List.filter_cons_of_neg hcolon]
    obtain ⟨hlength, hjoin⟩ := ih
    simp only [List.map_cons, List.length_cons, hlength]
    refine ⟨by omega, ?_⟩
    have hpos := List.length_pos_iff.mpr rest.ne_nil
    obtain ⟨c, hex, hhex⟩ := List.exists_cons_of_length_pos
      (show 0 < ((text.filter isxdigit).map toupper).length by omega)
    rw [hhex] at hjoin ⊢
    rw [joinPairs, hjoin]
    · rfl
    · exact List.cons_ne_nil _ _

theorem normalizeMacAddress_eq (h : MacText mac text) (hmac : mac.length = 6) :
    normalizeMacAddress text = normalizeMac text := by
  obtain ⟨hlength, hjoin⟩ := h.filter_isxdigit
  rw [hmac, List.length_map] at hlength
  have htake : (text.filter isxdigit).take 12 = text.filter isxdigit :=
    List.take_of_length_le (by omega)
  rw [normalizeMacAddress, htake]
  simp only [List.length_map, hlength, hjoin]
  rfl

theorem exists_six (hmac : mac.length = 6) : ∃ a b c d e f, mac = [a, b, c, d, e, f] := by
  rcases mac with _ | ⟨a, _ | ⟨b, _ | ⟨c, _ | ⟨d, _ | ⟨e, _ | ⟨f, _ | ⟨g, mac⟩⟩⟩⟩⟩⟩⟩
  any_goals cases hmac
  exact ⟨a, b, c, d, e, f, rfl⟩

theorem macToString_eq (h : MacText mac text) (hmac : mac.length = 6) :
    macToString mac = some (normalizeMac text) := by
  rw [normalizeMac, h.map_toupper]
  obtain ⟨a, b, c, d, e, f, rfl⟩ := exists_six hmac
  rfl

theorem looksLikeMac (h : MacText mac text) (hmac : mac.length = 6) : Bluez.looksLikeMac text := by
  obtain ⟨a, b, c, d, e, f, rfl⟩ := exists_six hmac
  obtain _ | ⟨h₁, _ | ⟨h₂, _ | ⟨h₃, _ | ⟨h₄, _ | ⟨h₅, h₆ | ⟨_, ⟨⟩⟩⟩⟩⟩⟩⟩ := h
  have hrange : List.range 17 = [0, 1, 2, 3, 4, 5, 6, 7, 8, 9, 10, 11, 12, 13, 14, 15, 16] := rfl
  simp [Bluez.looksLikeMac, hrange, h₁.high_digit, h₁.low_digit, h₂.high_digit, h₂.low_digit,
    h₃.high_digit, h₃.low_digit, h₄.high_digit, h₄.low_digit, h₅.high_digit, h₅.low_digit,
    h₆.high_digit, h₆.low_digit]

end MacText

/-! ## The normalisers -/

/-- A text of six bytes is the result where there are enough digits. -/
theorem normalizeMacAddress_cases (input : Text) :
    (input.countP isxdigit < 12 ∧ normalizeMacAddress input = []) ∨
      12 ≤ input.countP isxdigit ∧ ∃ mac, mac.length = 6 ∧ MacText mac (normalizeMacAddress input) ∧
        normalizeMac (normalizeMacAddress input) = normalizeMacAddress input := by
  by_cases hcount : input.countP isxdigit < 12
  · refine Or.inl ⟨hcount, ?_⟩
    rw [normalizeMacAddress]
    refine if_pos ?_
    rw [List.length_map, List.length_take, ← List.countP_eq_length_filter]
    omega
  · refine Or.inr ⟨by omega, ?_⟩
    have hlength : (((input.filter isxdigit).take 12).map toupper).length = 2 * (5 + 1) := by
      rw [List.length_map, List.length_take, ← List.countP_eq_length_filter]
      omega
    have hdigits : ∀ b ∈ ((input.filter isxdigit).take 12).map toupper, isxdigit b := by
      intro b hb
      obtain ⟨c, hc, rfl⟩ := List.mem_map.mp hb
      exact isxdigit_toupper (List.mem_filter.mp (List.mem_of_mem_take hc)).2
    have heq : normalizeMacAddress input = joinPairs (((input.filter isxdigit).take 12).map toupper) := by
      rw [normalizeMacAddress]
      exact if_neg (by omega)
    obtain ⟨mac, hmac, htext⟩ := exists_macText 5 hlength hdigits
    refine ⟨mac, hmac, heq ▸ htext, ?_⟩
    rw [heq, normalizeMac, map_joinPairs, List.map_map]
    congr 1
    exact List.map_congr_left fun b _ => toupper_toupper b

theorem normalizeMac_idem (input : Text) : normalizeMac (normalizeMac input) = normalizeMac input := by
  rw [normalizeMac, normalizeMac, List.map_map]
  exact List.map_congr_left fun b _ => toupper_toupper b

theorem normalizeMacAddress_idem (input : Text) :
    normalizeMacAddress (normalizeMacAddress input) = normalizeMacAddress input := by
  obtain ⟨-, hnil⟩ | ⟨-, mac, hmac, htext, hupper⟩ := normalizeMacAddress_cases input
  · rw [hnil]
    rfl
  · rw [htext.normalizeMacAddress_eq hmac, hupper]

/-- The texts of one address are rendered alike, and what is rendered stays as it is. -/
theorem mac_texts_agree {mac : List UInt8} {text : Text} (htext : MacText mac text)
    (hmac : mac.length = 6) (input : Text) :
    (normalizeMacAddress text = normalizeMac text ∧ macToString mac = some (normalizeMac text)) ∧
      (normalizeMacAddress (normalizeMacAddress input) = normalizeMacAddress input ∧
        normalizeMac (normalizeMac input) = normalizeMac input) ∧
      (normalizeMacAddress input = [] ↔ input.countP isxdigit < 12) ∧
        (¬ input.countP isxdigit < 12 → Bluez.looksLikeMac (normalizeMacAddress input)) := by
  refine ⟨⟨htext.normalizeMacAddress_eq hmac, htext.macToString_eq hmac⟩,
    ⟨normalizeMacAddress_idem input, normalizeMac_idem input⟩, ?_⟩
  obtain ⟨hcount, hnil⟩ | ⟨hcount, mac', hmac', htext', -⟩ := normalizeMacAddress_cases input
  · exact ⟨iff_of_true hnil hcount, fun h => absurd hcount h⟩
  · have hne : normalizeMacAddress input ≠ [] := by
      intro hnil
      rw [hnil] at htext'
      cases htext'
    exact ⟨iff_of_false hne (by omega), fun _ => htext'.looksLikeMac hmac'⟩

theorem mac_texts_agree_mixed :
    (normalizeMacAddress (ascii "dC:a6:32:0B:00:4f") = normalizeMac (ascii "dC:a6:32:0B:00:4f") ∧
        macToString [0xDC, 0xA6, 0x32, 0x0B, 0, 0x4F] = some (normalizeMac (ascii "dC:a6:32:0B:00:4f"))) ∧
      (normalizeMacAddress (normalizeMacAddress (ascii "dca6-320b")) =
          normalizeMacAddress (ascii "dca6-320b") ∧
        normalizeMac (normalizeMac (ascii "dca6-320b")) = normalizeMac (ascii "dca6-320b")) ∧
      (normalizeMacAddress (ascii "dca6-320b") = [] ↔ (ascii "dca6-320b").countP isxdigit < 12) ∧
        (¬ (ascii "dca6-320b").countP isxdigit < 12 →
          Bluez.looksLikeMac (normalizeMacAddress (ascii "dca6-320b"))) :=
  mac_texts_agree
    (.more ⟨by decide, by decide, by decide⟩ <| .more ⟨by decide, by decide, by decide⟩ <|
      .more ⟨by decide, by decide, by decide⟩ <| .more ⟨by decide, by decide, by decide⟩ <|
      .more ⟨by decide, by decide, by decide⟩ <| .last ⟨by decide, by decide, by decide⟩)
    rfl (ascii "dca6-320b")

end SensorLib.Wifi
