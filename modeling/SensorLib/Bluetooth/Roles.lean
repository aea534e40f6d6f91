import SensorLib.Base.Runs
import SensorLib.Socket.Adapters
import SensorLib.Text.Numbers

/-! # Roles and ports of two Bluetooth adapters

The two sides of a connection exchange neither a role nor a port. Each derives
both from its own address and the text of the peer's.
-/

namespace SensorLib.Bluetooth

open CString

structure Bdaddr where
  b : Vector UInt8 6
  deriving DecidableEq, Repr

def bdaddrAny : Bdaddr := ⟨Vector.replicate 6 0⟩

structure SockaddrL2 where
  family : Nat := 0
  psm : UInt16 := 0
  bdaddr : Bdaddr := bdaddrAny
  deriving DecidableEq, Repr

def AF_BLUETOOTH : Nat := 31

/-- The functions of BlueZ and OpenSSL. -/
structure Libraries where
  ba2str : Bdaddr → Text
  str2ba : Text → Bdaddr
  htobs : UInt16 → UInt16
  sha256 : Text → Vector UInt8 32

/-- What the calls to the HCI device return. The address is `none` where it cannot be read. -/
structure HciOutcome where
  devId : Int
  sock : Int
  address : Option Bdaddr
  deriving DecidableEq, Repr

structure BluetoothAdapter where
  macAddress : Text
  localAddr : SockaddrL2 := {}
  remoteAddr : SockaddrL2 := {}
  isListener : Bool := false
  deriving DecidableEq, Repr

def portRangeStart : UInt16 := 0x1002

def portRangeEnd : UInt16 := 0x1100

def portRangeSize : UInt16 := (portRangeEnd - portRangeStart) / 2 + 1

inductive ConnectErrno
  | EISCONN
  | ECONNREFUSED
  | EHOSTUNREACH
  | EHOSTDOWN
  | EINVAL
  | ETIMEDOUT
  | EAGAIN
  | other
  deriving DecidableEq, Repr

/-- How one round of `ConnectToPeer` goes: whether the socket is ready in time, how `connect` fails
if it does, and whether there is time for another round. -/
structure Round where
  ready : Bool
  failure : Option ConnectErrno
  timeLeft : Bool
  deriving DecidableEq, Repr

/-- How a call of `conn` goes, for either role. -/
structure ConnOutcome where
  listensInTime : Bool
  rounds : Fin maxRetries → Round

/-- An adapter, and the addresses that it has bound and dialled. -/
structure Side where
  adapter : BluetoothAdapter
  bound : List SockaddrL2 := []
  dialled : List SockaddrL2 := []
  deriving DecidableEq, Repr

variable (lib : Libraries)

def generateUniquePort (macAddress : Text) : UInt16 :=
  let hash := lib.sha256 macAddress
  let hashValue := hash[0].toUInt16 <<< 8 ||| hash[1].toUInt16
  portRangeStart + hashValue % portRangeSize * 2 + 1

namespace BluetoothAdapter

def setupLocalAddr (hci : HciOutcome) (a : BluetoothAdapter) : BluetoothAdapter :=
  let remotePort := generateUniquePort lib a.macAddress
  let bdaddr := if hci.devId < 0 ∨ hci.sock < 0 then bdaddrAny else hci.address.getD bdaddrAny
  { a with localAddr := ⟨AF_BLUETOOTH, lib.htobs remotePort, bdaddr⟩ }

def setupRemoteAddr (a : BluetoothAdapter) : BluetoothAdapter :=
  let localPort := generateUniquePort lib (lib.ba2str a.localAddr.bdaddr)
  { a with remoteAddr := ⟨AF_BLUETOOTH, lib.htobs localPort, lib.str2ba a.macAddress⟩ }

def new (macAddress : Text) (hci : HciOutcome) : BluetoothAdapter :=
  let a := setupRemoteAddr lib (setupLocalAddr lib hci { macAddress })
  { a with isListener := decide (0 < strcmp a.macAddress (lib.ba2str a.localAddr.bdaddr)) }

/-- The adapter for another round, or `none` where `ConnectToPeer` returns. -/
def afterConnect (a : BluetoothAdapter) : Option ConnectErrno → Option BluetoothAdapter
  | none | some .EISCONN => none
  | some .ECONNREFUSED | some .EHOSTUNREACH | some .EHOSTDOWN => some a
  | some .EINVAL => some (setupRemoteAddr lib a)
  | some .ETIMEDOUT | some .EAGAIN | some .other => none

/-- The loop of `ConnectToPeer`: the addresses it dials and the adapter behind it. -/
def connectLoop : List Round → BluetoothAdapter → List SockaddrL2 × BluetoothAdapter
  | [], a => ([], a)
  | round :: rounds, a =>
    if round.ready then
      match afterConnect lib a round.failure with
      | none => ([a.remoteAddr], a)
      | some next =>
        if round.timeLeft then
          let (dialled, last) := connectLoop rounds next
          (a.remoteAddr :: dialled, last)
        else ([a.remoteAddr], next)
    else ([], a)

def connectToPeer (rounds : Fin maxRetries → Round) (a : BluetoothAdapter) :
    List SockaddrL2 × BluetoothAdapter := connectLoop lib (List.ofFn rounds) a

/-- The addresses that `ListenForPeer` binds. -/
def listenForPeer (inTime : Bool) (a : BluetoothAdapter) : List SockaddrL2 :=
  if inTime then [a.localAddr] else []

end BluetoothAdapter

namespace Side

def new (macAddress : Text) (hci : HciOutcome) : Side := { adapter := .new lib macAddress hci }

def conn (s : Side) (c : ConnOutcome) : Side :=
  if s.adapter.isListener then
    { s with bound := s.bound ++ s.adapter.listenForPeer c.listensInTime }
  else
    let (dialled, adapter) := s.adapter.connectToPeer lib c.rounds
    { s with adapter, dialled := s.dialled ++ dialled }

/-- Calls of `conn` in a row, with no condition on how they go. -/
def machine : Runs.Machine Side ConnOutcome where
  guard _ _ := True
  next s c := s.conn lib c

end Side

/-- The address of the adapter is read. -/
structure HciOutcome.Gives (hci : HciOutcome) (address : Bdaddr) : Prop where
  devId : 0 ≤ hci.devId
  sock : 0 ≤ hci.sock
  address : hci.address = some address

/-- One side listens, the other dials, and they use one PSM. -/
structure Meet (listener dialler : Side) : Prop where
  listens : listener.adapter.isListener = true
  dials : dialler.adapter.isListener = false
  psm : dialler.adapter.remoteAddr.psm = listener.adapter.localAddr.psm
  bound : ∀ addr ∈ listener.bound, addr.psm = listener.adapter.localAddr.psm
  dialled : ∀ addr ∈ dialler.dialled, addr.psm = listener.adapter.localAddr.psm

/-- What the adapter at `own` with the peer at `peer` has derived, and what it has used of it. -/
structure Derived (own peer : Bdaddr) (s : Side) : Prop where
  macAddress : s.adapter.macAddress = lib.ba2str peer
  localAddr : s.adapter.localAddr =
    ⟨AF_BLUETOOTH, lib.htobs (generateUniquePort lib (lib.ba2str peer)), own⟩
  remoteAddr : s.adapter.remoteAddr =
    ⟨AF_BLUETOOTH, lib.htobs (generateUniquePort lib (lib.ba2str own)), lib.str2ba (lib.ba2str peer)⟩
  isListener : s.adapter.isListener = true ↔ lib.ba2str own < lib.ba2str peer
  bound : ∀ addr ∈ s.bound, addr = s.adapter.localAddr
  dialled : ∀ addr ∈ s.dialled, addr = s.adapter.remoteAddr

section

variable {lib}

/-- Where the remote address is computed to what it was, the loop dials no other address. -/
theorem connectLoop_of_same {a : BluetoothAdapter} (ha : a.setupRemoteAddr lib = a)
    (rounds : List Round) : (a.connectLoop lib rounds).2 = a ∧
      ∀ addr ∈ (a.connectLoop lib rounds).1, addr = a.remoteAddr := by
  have hnext : ∀ failure next, a.afterConnect lib failure = some next → next = a := by
    intro failure next h
    rcases failure with _ | _ | _ | _ | _ | _ | _ | _ | _ <;> cases h <;> first | rfl | exact ha
  induction rounds with
  | nil => exact ⟨rfl, fun _ h => absurd h List.not_mem_nil⟩
  | cons round rounds ih =>
    rw [BluetoothAdapter.connectLoop]
    split
    · split
      · exact ⟨rfl, fun _ h => List.mem_singleton.mp h⟩
      · rename_i next hfailure
        obtain rfl := hnext round.failure next hfailure
        split
        · refine ⟨ih.1, fun addr haddr => ?_⟩
          rcases List.mem_cons.mp haddr with rfl | hrest
          · rfl
          · exact ih.2 addr hrest
        · exact ⟨rfl, fun _ h => List.mem_singleton.mp h⟩
    · exact ⟨rfl, fun _ h => absurd h List.not_mem_nil⟩

variable {own peer : Bdaddr}

theorem derived_new {hci : HciOutcome} (h : hci.Gives own) :
    Derived lib own peer (.new lib (lib.ba2str peer) hci) := by
  have hdevice : ¬(hci.devId < 0 ∨ hci.sock < 0) := by
    rintro (hlt | hlt)
    · exact Int.not_lt.mpr h.devId hlt
    · exact Int.not_lt.mpr h.sock hlt
  have hlocal : (Side.new lib (lib.ba2str peer) hci).adapter.localAddr =
      ⟨AF_BLUETOOTH, lib.htobs (generateUniquePort lib (lib.ba2str peer)), own⟩ := by
    simp only [Side.new, BluetoothAdapter.new, BluetoothAdapter.setupRemoteAddr,
      BluetoothAdapter.setupLocalAddr, if_neg hdevice, h.address, Option.getD_some]
  have hown : (Side.new lib (lib.ba2str peer) hci).adapter.localAddr.bdaddr = own := by rw [hlocal]
  refine ⟨rfl, hlocal, ?_, ?_, fun _ h => absurd h List.not_mem_nil,
    fun _ h => absurd h List.not_mem_nil⟩
  · rw [← hown]
    rfl
  · rw [← strcmp_pos_iff, ← hown]
    exact decide_eq_true_iff

theorem Derived.setupRemoteAddr {s : Side} (h : Derived lib own peer s) :
    s.adapter.setupRemoteAddr lib = s.adapter := by
  have hremote : (s.adapter.setupRemoteAddr lib).remoteAddr = s.adapter.remoteAddr := by
    rw [h.remoteAddr, BluetoothAdapter.setupRemoteAddr, h.localAddr, h.macAddress]
  exact congrArg (fun addr => { s.adapter with remoteAddr := addr }) hremote

theorem Derived.conn {s : Side} (h : Derived lib own peer s) (c : ConnOutcome) :
    Derived lib own peer (s.conn lib c) := by
  rw [Side.conn]
  split
  · refine { h with bound := fun addr haddr => ?_ }
    rcases List.mem_append.mp haddr with hbefore | hnow
    · exact h.bound addr hbefore
    · rw [BluetoothAdapter.listenForPeer] at hnow
      split at hnow
      · exact List.mem_singleton.mp hnow
      · exact absurd hnow List.not_mem_nil
  · have hloop := connectLoop_of_same h.setupRemoteAddr (List.ofFn c.rounds)
    rw [BluetoothAdapter.connectToPeer]
    rcases hresult : s.adapter.connectLoop lib (List.ofFn c.rounds) with ⟨dialled, adapter⟩
    rw [hresult] at hloop
    obtain ⟨rfl, hdialled⟩ := hloop
    refine { h with dialled := fun addr haddr => ?_ }
    rcases List.mem_append.mp haddr with hbefore | hnow
    · exact h.dialled addr hbefore
    · exact hdialled addr hnow

theorem derived_run {hci : HciOutcome} (h : hci.Gives own) (calls : List ConnOutcome) :
    Derived lib own peer ((Side.machine lib).run (.new lib (lib.ba2str peer) hci) calls) :=
  Runs.Machine.Each.invariant (fun _ c hs _ => hs.conn c)
    (Runs.Machine.each_of_forall (fun _ _ => trivial) _) (derived_new h)

/-- The text of the listener's peer is the own text of the other side. -/
theorem Derived.meet {x y : Side} (hx : Derived lib own peer x) (hy : Derived lib peer own y)
    (horder : lib.ba2str own < lib.ba2str peer) : Meet x y := by
  have hpsm : y.adapter.remoteAddr.psm = x.adapter.localAddr.psm := by
    rw [hy.remoteAddr, hx.localAddr]
  refine ⟨hx.isListener.mpr horder, ?_, hpsm, fun addr haddr => ?_, fun addr haddr => ?_⟩
  · exact Bool.eq_false_iff.mpr fun hlistens =>
      List.lt_asymm horder (hy.isListener.mp hlistens)
  · rw [hx.bound addr haddr]
  · rw [hy.dialled addr haddr, hpsm]

end

/-- Of two adapters with each other as their peer, whatever calls of `conn` each has made, exactly one
listens, and the other dials the PSM that it binds. -/
theorem one_listens_other_dials (hprint : Function.Injective lib.ba2str) {a b : Bdaddr} (hab : a ≠ b)
    {readA readB : HciOutcome} (hA : readA.Gives a) (hB : readB.Gives b)
    (callsA callsB : List ConnOutcome) :
    let x := (Side.machine lib).run (.new lib (lib.ba2str b) readA) callsA
    let y := (Side.machine lib).run (.new lib (lib.ba2str a) readB) callsB
    x.adapter.isListener = !y.adapter.isListener ∧ (Meet x y ∨ Meet y x) := by
  intro x y
  have hx : Derived lib a b x := derived_run hA callsA
  have hy : Derived lib b a y := derived_run hB callsB
  have hmeet : Meet x y ∨ Meet y x := by
    by_cases hlt : lib.ba2str a < lib.ba2str b
    · exact Or.inl (hx.meet hy hlt)
    · refine Or.inr (hy.meet hx (Decidable.byContradiction fun hnot => ?_))
      exact hprint.ne hab (List.le_antisymm (List.not_lt.mp hnot) (List.not_lt.mp hlt))
  refine ⟨?_, hmeet⟩
  rcases hmeet with h | h
  · rw [h.listens, h.dials, Bool.not_false]
  · rw [h.listens, h.dials, Bool.not_true]

/-- An address with its last byte first. -/
def printBdaddr (ba : Bdaddr) : Text :=
  List.intercalate [58] ([ba.b[5], ba.b[4], ba.b[3], ba.b[2], ba.b[1], ba.b[0]].map hexByte)

theorem printBdaddr_injective : Function.Injective printBdaddr := by
  intro x y h
  have hbyte : ∀ {b c : UInt8} {s t : Text}, hexByte b ++ s = hexByte c ++ t → b = c ∧ s = t := by
    intro b c s t heq
    obtain ⟨hhex, hrest⟩ := List.append_inj heq rfl
    exact ⟨hexByte_injective hhex, hrest⟩
  obtain ⟨h5, h⟩ := hbyte h
  obtain ⟨h4, h⟩ := hbyte (List.cons.inj h).2
  obtain ⟨h3, h⟩ := hbyte (List.cons.inj h).2
  obtain ⟨h2, h⟩ := hbyte (List.cons.inj h).2
  obtain ⟨h1, h⟩ := hbyte (List.cons.inj h).2
  obtain ⟨h0, -⟩ := hbyte (List.cons.inj h).2
  obtain ⟨x⟩ := x
  obtain ⟨y⟩ := y
  rw [Bdaddr.mk.injEq]
  refine Vector.ext fun i hi => ?_
  match i, hi with
  | 0, _ => exact h0
  | 1, _ => exact h1
  | 2, _ => exact h2
  | 3, _ => exact h3
  | 4, _ => exact h4
  | 5, _ => exact h5

/-- 00:1A:7D:DA:71:13 -/
def listening : Bdaddr := ⟨#v[0x13, 0x71, 0xDA, 0x7D, 0x1A, 0x00]⟩

/-- DC:A6:32:0B:44:F0 -/
def dialling : Bdaddr := ⟨#v[0xF0, 0x44, 0x0B, 0x32, 0xA6, 0xDC]⟩

def twoDevices : Libraries where
  ba2str := printBdaddr
  str2ba text := if text = printBdaddr listening then listening else dialling
  htobs n := n
  sha256 text :=
    if text = printBdaddr listening then
      #v[137, 217, 205, 43, 101, 93, 174, 220, 124, 171, 247, 181, 252, 241, 55, 76, 208, 18, 84, 67,
        160, 102, 88, 111, 228, 62, 37, 44, 193, 149, 8, 246]
    else
      #v[12, 197, 131, 64, 210, 68, 110, 123, 54, 82, 149, 85, 55, 180, 132, 84, 115, 76, 1, 246, 92,
        180, 130, 160, 131, 141, 173, 254, 103, 183, 58, 150]

/-- The second round fails with `EINVAL`, and the third one connects. -/
def thirdRoundConnects (i : Fin maxRetries) : Round :=
  ⟨true, if i.val = 0 then some .ECONNREFUSED else if i.val = 1 then some .EINVAL else none, true⟩

theorem one_listens_other_dials_two_devices :
    let calls := [⟨true, thirdRoundConnects⟩]
    let x := (Side.machine twoDevices).run
      (.new twoDevices (printBdaddr dialling) ⟨0, 3, some listening⟩) calls
    let y := (Side.machine twoDevices).run
      (.new twoDevices (printBdaddr listening) ⟨0, 3, some dialling⟩) calls
    x.bound.map SockaddrL2.psm = [4237] ∧ y.dialled.map SockaddrL2.psm = [4237, 4237, 4237] ∧
      x.adapter.isListener = !y.adapter.isListener ∧ (Meet x y ∨ Meet y x) :=
  ⟨by decide +kernel, by decide +kernel,
    one_listens_other_dials twoDevices printBdaddr_injective (by decide) ⟨by decide, by decide, rfl⟩
      ⟨by decide, by decide, rfl⟩ _ _⟩

end SensorLib.Bluetooth
