import SensorLib.Socket.Acts
import SensorLib.Socket.Adapters

/-! # The functions of the API -/

namespace SensorLib

open Threads

/-- `pinSharedIfExists` and `pinUniqueIfExists`. On `true` the lock of the socket is held in the
mode given, and the global lock is not held any more. -/
def pinIfExists (mode : Mode) (bsock : SocketPtr) : Program Bool :=
  locked .bsockDeletion .shared do
    if ← Registry.existsSocket bsock then
      lock (.sharedBsock bsock) mode
      pure true
    else pure false

/-- What a function does with a pinned socket, with the lock released at its end. -/
def withPin (mode : Mode) (bsock : SocketPtr) (body : Program Status) : Program Status := do
  if ← pinIfExists mode bsock then
    let status ← body
    unlock (.sharedBsock bsock) mode
    pure status
  else pure ⟨-1, some .EIDRM⟩

/-- The check for a null handle that most functions start with. -/
def notNull (bsock : Option SocketPtr) (body : SocketPtr → Program Status) : Program Status :=
  match bsock with
  | some bsock => body bsock
  | none => pure ⟨-1, some .EINVAL⟩

def bratislavaSocket (link : BratislavaLink) : Program (Option SocketPtr) :=
  locked .bsockDeletion .shared <| locked .bsockCreation .exclusive do
    if ← Registry.existsId link.linkID then
      match ← Registry.getConfigId link.linkID with
      | some config => pure config.socket
      | none => pure none
    else
      match ← act (.newSocket link) with
      | some bsock => do
        Registry.add bsock
        pure (some bsock)
      | none => pure none

/-- What `bratislavaConn` does with the pinned socket. -/
def connPinned (bsock : SocketPtr) : Program Status := do
  if ← Registry.isConnectedSocket bsock then pure ⟨0, none⟩
  else
    let value ← BaseAdapter.conn bsock
    pure ⟨value, none⟩

def bratislavaConn (bsock : Option SocketPtr) : Program Status :=
  notNull bsock fun bsock => withPin .exclusive bsock (connPinned bsock)

/-- A call on the adapter, which must be there. -/
def withAdapter (bsock : SocketPtr) (body : Program Status) : Program Status := do
  if ← act (.hasAdapter bsock) then body else pure ⟨-1, some .EIDRM⟩

def ifConnected (bsock : SocketPtr) (body : Program Status) : Program Status := do
  if ← Registry.isConnectedSocket bsock then body else pure ⟨-1, some .EIDRM⟩

def bratislavaSend (bsock : Option SocketPtr) : Program Status :=
  notNull bsock fun bsock =>
    withPin .shared bsock (ifConnected bsock (withAdapter bsock (BaseAdapter.send bsock)))

def bratislavaRecv (bsock : Option SocketPtr) : Program Status :=
  notNull bsock fun bsock =>
    withPin .shared bsock (ifConnected bsock (withAdapter bsock (BaseAdapter.recv bsock)))

/-- The common body of `bratislavaLinkSend` and `bratislavaLinkRecv`. -/
def onLink (link : BratislavaLink) (transfer : SocketPtr → Program Status) : Program Status := do
  match ← bratislavaSocket link with
  | none => pure ⟨-1, some .EINVAL⟩
  | some bsock =>
    let status ← bratislavaConn (some bsock)
    if status.value ≠ 0 then pure ⟨-1, some .EINVAL⟩
    else withPin .shared bsock (withAdapter bsock (transfer bsock))

def bratislavaLinkSend (link : BratislavaLink) : Program Status := onLink link BaseAdapter.send

def bratislavaLinkRecv (link : BratislavaLink) : Program Status := onLink link BaseAdapter.recv

/-- What the setters of a timeout do with the pinned socket. -/
def setTimeout (set : SocketPtr → Program Int) (bsock : SocketPtr) : Program Status := do
  let value ← set bsock
  pure ⟨value, none⟩

def bratislavaConnTimeout (bsock : Option SocketPtr) (milliseconds : Nat) : Program Status :=
  notNull bsock fun bsock =>
    withPin .shared bsock
      (setTimeout (fun bsock => BaseAdapter.setConnTimeout bsock milliseconds) bsock)

def bratislavaRecvTimeout (bsock : Option SocketPtr) (milliseconds : Nat) : Program Status :=
  notNull bsock fun bsock =>
    withPin .shared bsock
      (setTimeout (fun bsock => BaseAdapter.setRecvTimeout bsock milliseconds) bsock)

/-- The first block of `bratislavaDestroy`. -/
def interruptIfExists (bsock : SocketPtr) : Program Bool :=
  locked .bsockDeletion .shared do
    if ← Registry.existsSocket bsock then
      BaseAdapter.interrupt bsock
      pure true
    else pure false

/-- What `bratislavaDestroy` does once it holds its three locks. They are released on the way
out, that of the socket before the socket is deleted. -/
def destroyLocked (bsock : SocketPtr) : Program Status := do
  let failed : Program Status := do
    unlock .bsockCreation .exclusive
    unlock (.sharedBsock bsock) .exclusive
    unlock .bsockDeletion .exclusive
    pure ⟨-1, some .EIDRM⟩
  if ← Registry.existsSocket bsock then
    if ← Registry.remove bsock then
      act (.deleteAdapter bsock)
      unlock (.sharedBsock bsock) .exclusive
      act (.deleteSocket bsock)
      unlock .bsockCreation .exclusive
      unlock .bsockDeletion .exclusive
      pure ⟨0, none⟩
    else failed
  else failed

/-- Nothing is returned, so the value of the status only says which way out was taken. -/
def bratislavaDestroy (bsock : Option SocketPtr) : Program Status :=
  notNull bsock fun bsock => do
    if ← interruptIfExists bsock then
      lock .bsockDeletion .exclusive
      lock (.sharedBsock bsock) .exclusive
      lock .bsockCreation .exclusive
      destroyLocked bsock
    else pure ⟨-1, some .EIDRM⟩

def disconnectPinned (bsock : SocketPtr) : Program Status := do
  if ← Registry.disconnectSocket bsock then
    let _ ← BaseAdapter.disconn bsock
    pure ⟨0, none⟩
  else pure ⟨-1, some .EIDRM⟩

/-- As for `bratislavaDestroy`, the value is not returned. -/
def bratislavaDisconnect (bsock : Option SocketPtr) : Program Status :=
  notNull bsock fun bsock => withPin .shared bsock (disconnectPinned bsock)

/-- The `while` loop of `Cleanup`. -/
def cleanupLoop : Program CallResult := do
  match ← act .lastSocket with
  | none => pure .done
  | some bsock => do
    let _ ← bratislavaDestroy (some bsock)
    Prog.invoke (S := socketSignature) .cleanupLoop

def cleanup : Program CallResult :=
  locked .recursive .exclusive (Prog.invoke (S := socketSignature) .cleanupLoop)

def AdapterMethod.body (bsock : SocketPtr) : AdapterMethod → Program CallResult
  | .conn => do return .status ⟨← BaseAdapter.conn bsock, none⟩
  | .disconn => do return .status ⟨← BaseAdapter.disconn bsock, none⟩
  | .setConnTimeout ms => do return .status ⟨← BaseAdapter.setConnTimeout bsock ms, none⟩
  | .setRecvTimeout ms => do return .status ⟨← BaseAdapter.setRecvTimeout bsock ms, none⟩
  | .destructor => do
    act (.deleteAdapter bsock)
    return .done

def Call.body : Call → Program CallResult
  | .bratislavaSocket link => do return .handle (← SensorLib.bratislavaSocket link)
  | .bratislavaConn bsock => do return .status (← SensorLib.bratislavaConn bsock)
  | .bratislavaSend bsock => do return .status (← SensorLib.bratislavaSend bsock)
  | .bratislavaLinkSend link => do return .status (← SensorLib.bratislavaLinkSend link)
  | .bratislavaRecv bsock => do return .status (← SensorLib.bratislavaRecv bsock)
  | .bratislavaLinkRecv link => do return .status (← SensorLib.bratislavaLinkRecv link)
  | .bratislavaConnTimeout bsock ms => do
    return .status (← SensorLib.bratislavaConnTimeout bsock ms)
  | .bratislavaRecvTimeout bsock ms => do
    return .status (← SensorLib.bratislavaRecvTimeout bsock ms)
  | .bratislavaDestroy bsock => do return .status (← SensorLib.bratislavaDestroy bsock)
  | .bratislavaDisconnect bsock => do return .status (← SensorLib.bratislavaDisconnect bsock)
  | .cleanup => SensorLib.cleanup
  | .cleanupLoop => SensorLib.cleanupLoop
  | .add bsock => do
    Registry.add bsock
    return .done
  | .remove bsock => do return .flag (← Registry.remove bsock)
  | .createConfig deviceId => do
    Registry.createConfigId deviceId
    return .done
  | .removeUnusedConfig deviceId => do
    Registry.removeUnusedConfig deviceId
    return .done
  | .addIP deviceId deviceIp => do return .flag (← Registry.addIP deviceId deviceIp)
  | .addRemotePort deviceId port => do return .flag (← Registry.addRemotePort deviceId port)
  | .connect bsock => do return .flag (← Registry.connect bsock)
  | .disconnectSocket bsock => do return .flag (← Registry.disconnectSocket bsock)
  | .disconnectId deviceId => do return .flag (← Registry.disconnectId deviceId)
  | .method bsock m => m.body bsock

/-- The threads of a program that uses the library. `reuse` says whether `new` may return an
address that was deleted before. -/
@[reducible] def socketSystem (reuse : Bool) : System socketSignature where
  State := SharedState
  Env := Choice
  exec act e s := s.exec reuse act e
  body := Call.body
  reentrant l := decide (l = Mutex.recursive)

end SensorLib
