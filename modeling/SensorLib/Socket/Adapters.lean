import SensorLib.Socket.Registry

/-! # The methods of the adapters

An adapter is reached through its socket, and every access to it is an act on
the handle of the socket. What the two adapters do alike is written once, and
each of them is given it under its own name.
-/

namespace SensorLib

def maxRetries : Nat := 5

namespace BaseAdapter

/-- A blocking `::send` or `::recv`, from its start to its end. -/
def transfer (bsock : SocketPtr) (channel : Channel) : Program (Int × Errno) := do
  let fd ← adapterAct bsock (.startIo channel)
  adapterAct bsock (.endIo fd)

def sendMessage (bsock : SocketPtr) : Program Status := do
  if ← Registry.isConnectedSocket bsock then
    let (status, _) ← transfer bsock .comms
    pure ⟨status, none⟩
  else pure ⟨-1, some .EPIPE⟩

/-- The `errno` that a failed `::recv` is reported with. -/
def failureErrno : Errno → Errno
  | .ETIMEDOUT | .EAGAIN | .EWOULDBLOCK => .ETIMEDOUT
  | errno => errno

def recvMessage (bsock : SocketPtr) : Program Status := do
  if ← Registry.isConnectedSocket bsock then
    let (bytesRead, errno) ← transfer bsock .comms
    if bytesRead < 0 then pure ⟨bytesRead, some (failureErrno errno)⟩
    else pure ⟨bytesRead, none⟩
  else pure ⟨-1, some .EPIPE⟩

/-- Other threads may come between the test, the close and the reset. -/
def closeSocket (bsock : SocketPtr) : Program Unit := do
  if 0 ≤ (← adapterAct bsock .sockfd) then
    let sockfd ← adapterAct bsock .sockfd
    adapterAct bsock (.close sockfd)
    adapterAct bsock (.setSockfd (-1))

def createSocket (bsock : SocketPtr) : Program Unit := do
  let sockfd ← adapterAct bsock .socket
  adapterAct bsock (.setSockfd sockfd)

def reopen (bsock : SocketPtr) : Program Int := do
  adapterAct bsock (.setConnected false)
  closeSocket bsock
  createSocket bsock
  let sockfd ← adapterAct bsock .sockfd
  if sockfd ≠ -1 then pure 0 else pure (-1)

def setConnTimeout (bsock : SocketPtr) (milliseconds : Nat) : Program Int := do
  adapterAct bsock (.setConnTimeout milliseconds)
  pure 0

def setRecvTimeout (bsock : SocketPtr) (milliseconds : Nat) : Program Int := do
  adapterAct bsock (.setRecvTimeout milliseconds)
  if ← adapterAct bsock .isConnected then adapterAct bsock .configureForComms
  pure 0

/-- The loop of `SendConnectionRequest`, with what comes after it and the rounds that are left. -/
def requestLoop (bsock : SocketPtr) (after : Program Bool) : Nat → Program Bool
  | 0 => after
  | rounds + 1 => do
    if ← adapterAct bsock .isConnected then after
    else
      match ← adapterAct bsock (.attempt .request) with
      | .expired | .unavailableExpired | .failed => pure false
      | .notReady | .unavailable => requestLoop bsock after rounds
      | .expiredReady => do
        adapterAct bsock .closeRequest
        pure false
      | .connected | .alreadyConnected => pure true

/-- The loop of `ConnectToPeer`. A socket that was connected already leaves `connected_` false. -/
def connectLoop (bsock : SocketPtr) : Nat → Program Unit
  | 0 => pure ()
  | rounds + 1 => do
    match ← adapterAct bsock (.attempt .comms) with
    | .expired | .notReady | .expiredReady | .alreadyConnected | .unavailableExpired
    | .failed => pure ()
    | .connected => adapterAct bsock (.setConnected true)
    | .unavailable => connectLoop bsock rounds

/-- The end of `conn`, once the attempts are over. -/
def finishConn (bsock : SocketPtr) : Program Int := do
  if ← adapterAct bsock .isConnected then
    let _ ← Registry.connect bsock
    adapterAct bsock .configureForComms
    pure 0
  else pure (-1)

end BaseAdapter

open BaseAdapter

namespace WifiAdapter

def send (bsock : SocketPtr) : Program Status := sendMessage bsock

def recv (bsock : SocketPtr) : Program Status := recvMessage bsock

def disconn (bsock : SocketPtr) : Program Int := reopen bsock

/-- A message on the request socket, which must not fail. -/
def sendRequest (bsock : SocketPtr) : Program Bool := do
  let (status, _) ← transfer bsock .request
  pure (decide (0 ≤ status))

/-- The MAC address, the SSID and the local port are sent, and a port is received. -/
def exchangePorts (bsock : SocketPtr) : Program Bool := do
  if !(← sendRequest bsock) then pure false
  else if !(← sendRequest bsock) then pure false
  else if !(← sendRequest bsock) then pure false
  else
    let (bytesRead, _) ← transfer bsock .request
    if bytesRead ≤ 0 then pure false
    else
      let remotePort ← adapterAct bsock .receivePort
      pure (decide (0 ≤ remotePort))

def sendConnectionRequest (bsock : SocketPtr) : Program Bool := do
  if ← adapterAct bsock .accessPoint then
    if ← requestLoop bsock (pure false) maxRetries then exchangePorts bsock else pure false
  else pure false

def connectToPeer (bsock : SocketPtr) : Program Unit := connectLoop bsock maxRetries

def listenForPeer (bsock : SocketPtr) : Program Unit := adapterAct bsock .listenForPeer

/-- The port goes into an address that only the system calls read. -/
def setupLocalAddr (deviceId : String) : Program Unit := do
  let _ ← Registry.getLocalPort deviceId
  pure ()

def conn (bsock : SocketPtr) (deviceType : WifiDeviceType) : Program Int := do
  adapterAct bsock (.setConnected false)
  let link ← act (.readLink bsock)
  let deviceId := link.wifiDeviceInfo.macAddress
  match deviceType with
  | .router => do
    let remotePort ← Registry.getRemotePort deviceId
    adapterAct bsock (.setRemotePort remotePort)
    setupLocalAddr deviceId
    listenForPeer bsock
    finishConn bsock
  | .adapter => do
    let _ ← Registry.addLocalPort deviceId
    setupLocalAddr deviceId
    if ← sendConnectionRequest bsock then
      connectToPeer bsock
      finishConn bsock
    else pure (-1)
  | .unknown => finishConn bsock

end WifiAdapter

namespace BluetoothAdapter

def send (bsock : SocketPtr) : Program Status := sendMessage bsock

def recv (bsock : SocketPtr) : Program Status := recvMessage bsock

def disconn (bsock : SocketPtr) : Program Int := reopen bsock

def sendConnectionRequest (bsock : SocketPtr) : Program Bool :=
  requestLoop bsock (adapterAct bsock .isConnected) maxRetries

def connectToPeer (bsock : SocketPtr) : Program Unit := connectLoop bsock maxRetries

def listenForPeer (bsock : SocketPtr) : Program Unit := adapterAct bsock .listenForPeer

/-- The request runs in a thread of its own, which is joined before the attempt is judged. -/
def conn (bsock : SocketPtr) (isListener : Bool) : Program Int := do
  adapterAct bsock (.setConnected false)
  let request : Program Unit := do
    let _ ← sendConnectionRequest bsock
    pure ()
  let attempt := if isListener then listenForPeer bsock else connectToPeer bsock
  Threads.Prog.interleave (S := socketSignature) .turn (fun x => x) request attempt
  finishConn bsock

end BluetoothAdapter

namespace BaseAdapter

/-- The calls through the virtual methods go to the class of the object. -/
def conn (bsock : SocketPtr) : Program Int := do
  match ← adapterAct bsock .kind with
  | .wifi deviceType => WifiAdapter.conn bsock deviceType
  | .bluetooth isListener => BluetoothAdapter.conn bsock isListener

def disconn (bsock : SocketPtr) : Program Int := do
  match ← adapterAct bsock .kind with
  | .wifi _ => WifiAdapter.disconn bsock
  | .bluetooth _ => BluetoothAdapter.disconn bsock

def send (bsock : SocketPtr) : Program Status := do
  match ← adapterAct bsock .kind with
  | .wifi _ => WifiAdapter.send bsock
  | .bluetooth _ => BluetoothAdapter.send bsock

def recv (bsock : SocketPtr) : Program Status := do
  match ← adapterAct bsock .kind with
  | .wifi _ => WifiAdapter.recv bsock
  | .bluetooth _ => BluetoothAdapter.recv bsock

/-- Neither adapter overrides it. -/
def interrupt (bsock : SocketPtr) : Program Unit := do
  let _ ← disconn bsock
  pure ()

end BaseAdapter

end SensorLib
