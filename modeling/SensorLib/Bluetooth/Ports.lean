import SensorLib.Bluetooth.Roles

/-! # The PSMs that are derived from addresses

The hash of a MAC text picks one of the ports of a range. Only its last seven
bits matter.
-/

namespace SensorLib.Bluetooth

open CString

/-- The PSM of connection requests. -/
def bratislavaPort : UInt16 := 0x1001

/-- What the other end can bind: an L2CAP PSM is odd and has bit 8 clear. -/
structure Bindable (psm : UInt16) : Prop where
  odd : psm % 2 = 1
  low : portRangeStart ≤ psm
  high : psm ≤ portRangeEnd
  other : psm ≠ bratislavaPort
  bit8 : psm &&& 0x100 = 0

instance (psm : UInt16) : Decidable (Bindable psm) :=
  decidable_of_iff (psm % 2 = 1 ∧ portRangeStart ≤ psm ∧ psm ≤ portRangeEnd ∧ psm ≠ bratislavaPort ∧
      psm &&& 0x100 = 0)
    ⟨fun ⟨h₁, h₂, h₃, h₄, h₅⟩ => ⟨h₁, h₂, h₃, h₄, h₅⟩,
      fun h => ⟨h.odd, h.low, h.high, h.other, h.bit8⟩⟩

/-- The port with a number in the range. -/
def portOf (i : UInt16) : UInt16 := portRangeStart + i * 2 + 1

/-- The first byte of the hash goes out of the range. -/
theorem hashValue_mod (first second : UInt8) :
    (first.toUInt16 <<< 8 ||| second.toUInt16) % portRangeSize = second.toUInt16 % portRangeSize := by
  have hsize : portRangeSize.toNat = 2 ^ 7 := rfl
  rw [← UInt16.toNat_inj, UInt16.toNat_mod, UInt16.toNat_mod, hsize, UInt16.toNat_or,
    Nat.or_mod_two_pow]
  have hshift : (first.toUInt16 <<< 8).toNat % 2 ^ 7 = 0 := by
    rw [UInt16.toNat_shiftLeft, Nat.shiftLeft_eq]
    show first.toUInt16.toNat * 2 ^ 8 % 2 ^ 16 % 2 ^ 7 = 0
    omega
  rw [hshift, Nat.zero_or]

theorem generateUniquePort_eq (lib : Libraries) (macAddress : Text) :
    generateUniquePort lib macAddress =
      portOf (((lib.sha256 macAddress).get 1).toUInt16 % portRangeSize) := by
  simp only [generateUniquePort, portOf, hashValue_mod]
  rfl

/-- Of the ports of the range, all but the last can be bound. -/
theorem bindable_portOf (b : UInt8) :
    Bindable (portOf (b.toUInt16 % portRangeSize)) ↔ b % 128 ≠ 127 := by
  revert b
  refine forall_byte ?_
  decide +kernel

theorem bindable_iff (lib : Libraries) (macAddress : Text) :
    Bindable (generateUniquePort lib macAddress) ↔ (lib.sha256 macAddress).get 1 % 128 ≠ 127 := by
  rw [generateUniquePort_eq]
  exact bindable_portOf _

/-- The hash of DC:A6:32:0B:00:43 begins with 8 and 127. -/
def lastPort : Libraries where
  ba2str := printBdaddr
  str2ba _ := bdaddrAny
  htobs n := n
  sha256 _ :=
    #v[8, 127, 29, 99, 79, 16, 202, 254, 157, 140, 30, 247, 153, 238, 251, 189, 59, 40, 198, 23, 185,
      37, 12, 202, 70, 153, 71, 151, 227, 249, 242, 94]

theorem last_port_not_bindable :
    ¬ ∀ (lib : Libraries) (macAddress : Text), Bindable (generateUniquePort lib macAddress) := by
  intro h
  exact absurd (h lastPort (ascii "DC:A6:32:0B:00:43")) (by decide)

end SensorLib.Bluetooth
