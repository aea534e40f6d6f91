import SensorLib.Bluez.DeviceInfo

/-! # Device classes in the two backends

`bluetoothctl` prints a class as a number, and an inquiry of the HCI device
gives its three bytes.
-/

namespace SensorLib.Bluez

open CString

def bluetoothMajorFromClass (devClass : UInt8 × UInt8 × UInt8) : EBluetoothDeviceMajor :=
  let classOfDevice :=
    devClass.2.2.toUInt32 <<< 16 ||| devClass.2.1.toUInt32 <<< 8 ||| devClass.1.toUInt32
  match ((classOfDevice >>> 8) &&& 0x1F).toNat with
  | 0x00 => .miscellaneous
  | 0x01 => .computer
  | 0x02 => .phone
  | 0x03 => .lanAccess
  | 0x04 => .audioVideo
  | 0x05 => .peripheral
  | 0x06 => .imaging
  | 0x07 => .wearable
  | 0x08 => .toy
  | _ => .uncategorized

/-- The number that the three bytes make. -/
def classNumber (devClass : UInt8 × UInt8 × UInt8) : Nat :=
  devClass.1.toNat + 256 * devClass.2.1.toNat + 65536 * devClass.2.2.toNat

theorem classOfDevice_toNat (low middle high : UInt8) :
    (high.toUInt32 <<< 16 ||| middle.toUInt32 <<< 8 ||| low.toUInt32).toNat =
      classNumber (low, middle, high) := by
  have hlow := low.toNat_lt
  have hmiddle := middle.toNat_lt
  have hhigh := high.toNat_lt
  have hshift16 : (high.toUInt32 <<< 16).toNat = high.toNat <<< 16 := by
    rw [UInt32.toNat_shiftLeft, UInt8.toNat_toUInt32]
    refine Nat.mod_eq_of_lt ?_
    show high.toNat <<< 16 < 2 ^ 32
    rw [Nat.shiftLeft_eq]
    omega
  have hshift8 : (middle.toUInt32 <<< 8).toNat = middle.toNat <<< 8 := by
    rw [UInt32.toNat_shiftLeft, UInt8.toNat_toUInt32]
    refine Nat.mod_eq_of_lt ?_
    show middle.toNat <<< 8 < 2 ^ 32
    rw [Nat.shiftLeft_eq]
    omega
  have hfront : high.toNat <<< 16 ||| middle.toNat <<< 8 = (high.toNat <<< 8 + middle.toNat) <<< 8 := by
    rw [← Nat.shiftLeft_add_eq_or_of_lt]
    · simp only [Nat.shiftLeft_eq]
      omega
    · rw [Nat.shiftLeft_eq]
      omega
  rw [UInt32.toNat_or, UInt32.toNat_or, hshift16, hshift8, UInt8.toNat_toUInt32, hfront,
    ← Nat.shiftLeft_add_eq_or_of_lt hlow, classNumber]
  simp only [Nat.shiftLeft_eq]
  omega

/-- The five bits that tell the major device class. -/
theorem major_bits (classOfDevice : UInt32) :
    ((classOfDevice >>> 8) &&& 0x1F).toNat = classOfDevice.toNat / 256 % 32 := by
  rw [UInt32.toNat_and, UInt32.toNat_shiftRight]
  show classOfDevice.toNat >>> 8 &&& (2 ^ 5 - 1) = _
  rw [Nat.and_two_pow_sub_one_eq_mod, Nat.shiftRight_eq_div_pow]

/-- The backends agree on numbers whose lowest three bytes are these. -/
theorem bluetoothMajorFromCod_eq {classOfDevice : UInt32} {devClass : UInt8 × UInt8 × UInt8}
    (h : classNumber devClass = classOfDevice.toNat % 0x1000000) :
    bluetoothMajorFromCod classOfDevice = bluetoothMajorFromClass devClass := by
  obtain ⟨low, middle, high⟩ := devClass
  have hbits : ((classOfDevice >>> 8) &&& 0x1F).toNat =
      (((high.toUInt32 <<< 16 ||| middle.toUInt32 <<< 8 ||| low.toUInt32) >>> 8) &&& 0x1F).toNat := by
    rw [major_bits, major_bits, classOfDevice_toNat, h]
    omega
  unfold bluetoothMajorFromCod bluetoothMajorFromClass
  generalize ((classOfDevice >>> 8) &&& 0x1F).toNat = major at hbits ⊢
  subst hbits
  rfl

/-- The three bytes that `parse_class_property` stores of a number. -/
theorem classNumber_classOf (parsed : Nat) : classNumber (classOf parsed).1 = parsed % 0x1000000 := by
  simp only [classOf, classNumber, UInt8.toNat_ofNat', Nat.shiftRight_eq_div_pow]
  omega

/-! ## Texts with a class -/

/-- The digits of a number, in any case and with any zeros before them. -/
structure HexOf (digits : Text) (n : Nat) : Prop where
  ne_nil : digits ≠ []
  digit : ∀ b ∈ digits, isxdigit b
  value : CString.value 16 digits = n

theorem strtoul_hex {digits rest : Text} {n : Nat} (hdigits : HexOf digits n) (hn : n < 0x100000000)
    (hrest : ∀ b ∈ rest.head?, isxdigit b = false) :
    strtoul (ascii "0x" ++ (digits ++ rest)) = some n := by
  obtain ⟨b, digits', rfl⟩ := List.exists_cons_of_ne_nil hdigits.ne_nil
  have hb : isxdigit b := hdigits.digit b List.mem_cons_self
  have htake : (b :: digits' ++ rest).takeWhile isxdigit = b :: digits' := by
    rw [List.takeWhile_append_of_pos hdigits.digit, List.takeWhile_eq_nil_iff.mpr, List.append_nil]
    intro hpos hhead
    rw [hrest _ (by simp [List.head?_eq_getElem?, List.getElem?_eq_getElem hpos])] at hhead
    cases hhead
  have hread : readInteger 16 isxdigit skipHexPrefix (ascii "0x" ++ (b :: digits' ++ rest)) =
      some (false, n) := by
    have hskip : skipHexPrefix (ascii "0x" ++ (b :: digits' ++ rest)) = b :: digits' ++ rest :=
      if_pos ⟨Or.inl rfl, hb⟩
    have hsign : readSign (skipSpaces (ascii "0x" ++ (b :: digits' ++ rest))) =
        (false, ascii "0x" ++ (b :: digits' ++ rest)) := rfl
    rw [readInteger, hsign]
    simp only [hskip, htake]
    rw [if_neg (List.cons_ne_nil _ _), hdigits.value]
  rw [strtoul, hread]
  simp only [Option.map_some]
  rw [if_neg (by omega), if_neg Bool.false_ne_true]

/-- Between the tag and the prefix of the number there is nothing that could be taken for either. -/
theorem parsedClass_tagged {infoOutput blanks digits rest : Text} {n : Nat}
    (hfirst : strstr (ascii "\tClass:") infoOutput =
      some (ascii "\tClass:" ++ (blanks ++ (ascii "0x" ++ (digits ++ rest)))))
    (hblanks : ∀ b ∈ blanks, isspace b) (hdigits : HexOf digits n) (hn : n < 0x100000000)
    (hrest : ∀ b ∈ rest.head?, isxdigit b = false) : parsedClass infoOutput = some n := by
  have hskip : ∀ pre : Text, 48 ∉ pre → strstr (ascii "0x") (pre ++ (ascii "0x" ++ (digits ++ rest))) =
      some (ascii "0x" ++ (digits ++ rest)) := by
    intro pre hpre
    induction pre with
    | nil => exact strstr_eq_self (List.prefix_append _ _)
    | cons b pre ih =>
      rw [List.mem_cons, not_or] at hpre
      rw [List.cons_append, strstr_cons_eq_tail, ih hpre.2]
      intro hprefix
      exact hpre.1 (List.cons_prefix_cons.mp hprefix).1
  have hzero : (48 : UInt8) ∉ ascii "\tClass:" ++ blanks := by
    rw [List.mem_append, not_or]
    refine ⟨by decide, fun hmem => ?_⟩
    exact absurd (hblanks 48 hmem) (by decide)
  rw [parsedClass, hfirst]
  simp only [Option.bind_eq_bind, Option.bind_some]
  rw [← List.append_assoc, hskip _ hzero, Option.bind_some, strtoul_hex hdigits hn hrest]

/-- A printed class gives the bytes of its number, and the major class that the other backend
computes from these bytes. -/
theorem class_of_both_backends (v : UInt32) {infoOutput blanks digits rest : Text}
    (hfirst : strstr (ascii "\tClass:") infoOutput =
      some (ascii "\tClass:" ++ (blanks ++ (ascii "0x" ++ (digits ++ rest)))))
    (hblanks : ∀ b ∈ blanks, isspace b) (hdigits : HexOf digits v.toNat)
    (hrest : ∀ b ∈ rest.head?, isxdigit b = false) (device : BluetoothDeviceInfoBase) :
    let d := parseClassProperty infoOutput device
    d.devClass.1.toNat + 256 * d.devClass.2.1.toNat + 65536 * d.devClass.2.2.toNat =
        v.toNat % 0x1000000 ∧
      d.major = bluetoothMajorFromClass d.devClass := by
  have hparsed := parsedClass_tagged hfirst hblanks hdigits v.toNat_lt hrest
  have hnumber : classNumber (classOf v.toNat).1 = v.toNat % 0x1000000 := classNumber_classOf v.toNat
  rw [parseClassProperty, hparsed]
  refine ⟨hnumber, ?_⟩
  show bluetoothMajorFromCod (.ofNat v.toNat) = _
  rw [UInt32.ofNat_toNat]
  exact bluetoothMajorFromCod_eq hnumber

/-- A telephone, with a name before its class and an icon behind it. -/
theorem class_of_both_backends_phone :
    let d := parseClassProperty (ascii "\tName: Pi\n\tClass: 0x005A020c\n\tIcon: phone\n")
      (discoveredDevice ⟨ascii "AA:BB:CC:DD:EE:FF", []⟩)
    d.devClass.1.toNat + 256 * d.devClass.2.1.toNat + 65536 * d.devClass.2.2.toNat =
        (0x5A020C : UInt32).toNat % 0x1000000 ∧
      d.major = bluetoothMajorFromClass d.devClass :=
  @class_of_both_backends 0x5A020C _ (ascii " ") (ascii "005A020c") (ascii "\n\tIcon: phone\n")
    (by decide +kernel) (by decide +kernel)
    ⟨by decide +kernel, by decide +kernel, by decide +kernel⟩ (by decide +kernel) _

end SensorLib.Bluez
