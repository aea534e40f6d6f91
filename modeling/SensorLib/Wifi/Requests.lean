import SensorLib.Text.Buffers
import Mathlib.Data.Set.Function

/-! # Requests to an access point

An adapter tells the access point its address, the name of its network and the
local port of the channel it asks for. Every `send` writes its whole buffer.
-/

namespace SensorLib.Wifi

open CString

/-- On a machine that has the low byte of a number first. -/
def htons (n : UInt16) : UInt16 := n <<< 8 ||| n >>> 8

/-- `strncpy` into a member of `size` bytes, all of which are sent later. -/
def copyMember (size : Nat) (source : Text) : Buffer :=
  copyString size source ++ List.replicate (size - (copyString size source).length) 0

/-- The members that a request is made of. -/
structure WifiAdapter where
  macAddress : Buffer
  ssid : Buffer
  localPort : UInt16
  deriving DecidableEq, Repr

/-- The port is an `int` of the registry, and is stored in the order of the network. -/
def setupLocalAddr (localPort : Int) (adapter : WifiAdapter) : WifiAdapter :=
  { adapter with localPort := htons (.ofInt localPort) }

/-- What is written once the socket is connected. -/
def sendConnectionRequest (adapter : WifiAdapter) : List UInt8 :=
  let networkPort : UInt8 := (htons adapter.localPort).toUInt8
  adapter.macAddress ++ adapter.ssid ++ [networkPort]

/-- What the access point has to know. The texts fit into the members. -/
structure ConnectionRequest where
  macAddress : Text
  ssid : Text
  localPort : UInt16
  macAddress_fits : macAddress.length < 18
  macAddress_nul : 0 ∉ macAddress
  ssid_fits : ssid.length < 256
  ssid_nul : 0 ∉ ssid

namespace ConnectionRequest

variable (request : ConnectionRequest)

/-- The constructor gets the texts, and `conn` the port. -/
def adapter : WifiAdapter :=
  setupLocalAddr request.localPort.toNat ⟨copyMember 18 request.macAddress, copyMember 256 request.ssid, 0⟩

def bytes : List UInt8 := sendConnectionRequest request.adapter

end ConnectionRequest

theorem htons_htons (n : UInt16) : htons (htons n) = n := by
  unfold htons
  apply UInt16.toBitVec_inj.mp
  simp only [UInt16.toBitVec_or, UInt16.toBitVec_shiftLeft, UInt16.toBitVec_shiftRight]
  ext i hi
  simp
  grind

theorem copyMember_eq {size : Nat} {source : Text} (h : source.length < size) :
    copyMember size source = source ++ 0 :: List.replicate (size - source.length - 1) 0 := by
  have hcopy : copyString size source = source := List.take_of_length_le (by omega)
  rw [copyMember, hcopy, ← List.replicate_succ]
  congr 2
  omega

theorem length_copyMember {size : Nat} {source : Text} (h : source.length < size) :
    (copyMember size source).length = size := by
  rw [copyMember_eq h, List.length_append, List.length_cons, List.length_replicate]
  omega

namespace ConnectionRequest

variable {request other : ConnectionRequest}

theorem bytes_eq (request : ConnectionRequest) :
    request.bytes =
      copyMember 18 request.macAddress ++ copyMember 256 request.ssid ++ [request.localPort.toUInt8] := by
  have hlt := request.localPort.toNat_lt
  have hmod : ((request.localPort.toNat : Int) % 2 ^ 16).toNat = request.localPort.toNat := by omega
  have hport : UInt16.ofInt request.localPort.toNat = request.localPort := by
    rw [UInt16.ofInt, hmod, UInt16.ofNat_toNat]
  simp only [bytes, adapter, sendConnectionRequest, setupLocalAddr, hport, htons_htons]

/-- The texts stand in the bytes with a NUL behind each. -/
theorem holds_macAddress (request : ConnectionRequest) :
    Buffer.Holds request.bytes 0 request.macAddress := by
  refine ⟨List.replicate (18 - request.macAddress.length - 1) 0 ++
    (copyMember 256 request.ssid ++ [request.localPort.toUInt8]), ?_⟩
  rw [bytes_eq, copyMember_eq request.macAddress_fits, List.drop_zero]
  simp only [List.append_assoc, List.cons_append]

theorem holds_ssid (request : ConnectionRequest) : Buffer.Holds request.bytes 18 request.ssid := by
  have hlength := length_copyMember request.macAddress_fits
  refine ⟨List.replicate (256 - request.ssid.length - 1) 0 ++ [request.localPort.toUInt8], ?_⟩
  rw [bytes_eq, List.append_assoc, List.drop_left' hlength, copyMember_eq request.ssid_fits]
  simp only [List.append_assoc, List.cons_append]

theorem localPort_of_bytes (h : request.bytes = other.bytes) :
    request.localPort.toUInt8 = other.localPort.toUInt8 := by
  rw [bytes_eq, bytes_eq] at h
  simpa using (List.append_inj' h rfl).2

/-- Of the port only the low byte is written. -/
theorem bytes_eq_iff :
    request.bytes = other.bytes ↔
      request.macAddress = other.macAddress ∧ request.ssid = other.ssid ∧
        request.localPort % 256 = other.localPort % 256 := by
  have hbyte : request.localPort.toUInt8 = other.localPort.toUInt8 ↔
      request.localPort % 256 = other.localPort % 256 := by
    rw [← UInt8.toNat_inj, ← UInt16.toNat_inj, UInt16.toNat_mod, UInt16.toNat_mod]
    rfl
  constructor
  · intro h
    refine ⟨?_, ?_, hbyte.mp (localPort_of_bytes h)⟩
    · have hmac := request.holds_macAddress.text_eq request.macAddress_nul
      rw [h, other.holds_macAddress.text_eq other.macAddress_nul] at hmac
      exact (Option.some.inj hmac).symm
    · have hssid := request.holds_ssid.text_eq request.ssid_nul
      rw [h, other.holds_ssid.text_eq other.ssid_nul] at hssid
      exact (Option.some.inj hssid).symm
  · rintro ⟨hmac, hssid, hport⟩
    rw [bytes_eq, bytes_eq, hmac, hssid, hbyte.mpr hport]

theorem ext_of_eq (hmac : request.macAddress = other.macAddress) (hssid : request.ssid = other.ssid)
    (hport : request.localPort = other.localPort) : request = other := by
  cases request
  cases other
  simp_all

/-- A request that the bytes could be of. -/
noncomputable def decode (requests : Set ConnectionRequest) (sent : List UInt8) : Option ConnectionRequest :=
  open Classical in if h : ∃ request ∈ requests, request.bytes = sent then some h.choose else none

theorem decode_bytes {requests : Set ConnectionRequest} (hinj : Set.InjOn bytes requests)
    (hrequest : request ∈ requests) : decode requests request.bytes = some request := by
  have hex : ∃ other ∈ requests, other.bytes = request.bytes := ⟨request, hrequest, rfl⟩
  rw [decode, dif_pos hex, hinj hex.choose_spec.1 hrequest hex.choose_spec.2]

/-- Requests are told apart by their bytes unless two of them differ in nothing but the high byte of
the port. -/
theorem decodable_iff (requests : Set ConnectionRequest) :
    (∃ decode : List UInt8 → Option ConnectionRequest,
        ∀ request ∈ requests, decode request.bytes = some request) ↔
      ∀ request ∈ requests, ∀ other ∈ requests, request.macAddress = other.macAddress →
        request.ssid = other.ssid → request.localPort % 256 = other.localPort % 256 →
          request.localPort = other.localPort := by
  constructor
  · rintro ⟨decode, hdecode⟩ request hrequest other hother hmac hssid hport
    have hsame := hdecode request hrequest
    rw [bytes_eq_iff.mpr ⟨hmac, hssid, hport⟩, hdecode other hother] at hsame
    rw [Option.some.inj hsame]
  · intro hports
    refine ⟨decode requests, fun request hrequest => decode_bytes ?_ hrequest⟩
    intro request hrequest other hother hbytes
    obtain ⟨hmac, hssid, hport⟩ := bytes_eq_iff.mp hbytes
    exact ext_of_eq hmac hssid (hports request hrequest other hother hmac hssid hport)

/-- A client with one of two ports of the registry's pool. -/
def piOn (localPort : UInt16) : ConnectionRequest where
  macAddress := ascii "DC:A6:32:0B:00:43"
  ssid := ascii "raspberrypi"
  localPort := localPort
  macAddress_fits := by decide
  macAddress_nul := by decide
  ssid_fits := by decide
  ssid_nul := by decide

theorem not_decodable_ports :
    ¬ ∃ decode : List UInt8 → Option ConnectionRequest, ∀ request : ConnectionRequest,
      decode request.bytes = some request := by
  rintro ⟨decode, hdecode⟩
  have hbytes : (piOn 40000).bytes = (piOn 40256).bytes := by decide +kernel
  have hsame := hdecode (piOn 40000)
  rw [hbytes, hdecode (piOn 40256)] at hsame
  have hport := congrArg localPort (Option.some.inj hsame)
  exact absurd hport (by decide)

end ConnectionRequest

end SensorLib.Wifi
