import SensorLib.Socket.Types

/-! # The methods of `BratislavaSocketRegistry`, as threads run them

Each method takes the locks that the source takes, around the acts that run
under them. An overloaded method is written twice, as in the sequential model.
-/

namespace SensorLib

namespace Registry

def getConfigSocket (bsock : SocketPtr) : Program (Option BratislavaSocketConfig) :=
  locked .sharedConfig .shared (act (.getConfigSocket bsock))

def getConfigId (deviceId : String) : Program (Option BratislavaSocketConfig) :=
  locked .sharedConfig .shared (act (.getConfigId deviceId))

def updateConfig (config : BratislavaSocketConfig) : Program Bool :=
  locked .sharedConfig .exclusive (act (.updateConfig config))

def existsSocket (bsock : SocketPtr) : Program Bool :=
  locked .recursive .exclusive (act (.findSocket bsock))

def existsId (deviceId : String) : Program Bool :=
  locked .recursive .exclusive do
    match ← getConfigId deviceId with
    | some config => pure config.socket.isSome
    | none => pure false

/-- `GetDeviceID` runs before the lock is taken. -/
def createConfigSocket (bsock : SocketPtr) : Program Unit := do
  let link ← act (.readLink bsock)
  locked .sharedConfig .exclusive (act (.createConfigSocket bsock link))

def createConfigId (deviceId : String) : Program Unit :=
  locked .sharedConfig .exclusive (act (.createConfigId deviceId))

def removeConfig (bsock : SocketPtr) : Program Unit :=
  locked .sharedConfig .exclusive (act (.removeConfig bsock))

def removeUnusedConfig (deviceId : String) : Program Unit :=
  locked .sharedConfig .exclusive (act (.removeUnusedConfig deviceId))

/-- Copy a config out, change the copy and write it back, each under its own lock. -/
def modifyConfig (getConfig : Program (Option BratislavaSocketConfig))
    (change : BratislavaSocketConfig → BratislavaSocketConfig) : Program Bool := do
  match ← getConfig with
  | some config => updateConfig (change config)
  | none => pure false

/-- What a getter reads of a config. -/
def readConfig {α : Type} (getConfig : Program (Option BratislavaSocketConfig)) (default : α)
    (field : BratislavaSocketConfig → α) : Program α := do
  match ← getConfig with
  | some config => pure (field config)
  | none => pure default

def connect (bsock : SocketPtr) : Program Bool :=
  locked .sharedRegistry .exclusive
    (modifyConfig (getConfigSocket bsock) fun config => { config with connected := true })

def disconnectId (deviceId : String) : Program Bool :=
  locked .sharedRegistry .exclusive
    (modifyConfig (getConfigId deviceId) fun config => { config with connected := false })

def disconnectSocket (bsock : SocketPtr) : Program Bool :=
  locked .sharedRegistry .exclusive
    (modifyConfig (getConfigSocket bsock) fun config => { config with connected := false })

def isConnectedSocket (bsock : SocketPtr) : Program Bool :=
  locked .sharedRegistry .shared
    (readConfig (getConfigSocket bsock) false fun config => config.connected)

def addIP (deviceId deviceIp : String) : Program Bool :=
  locked .sharedRegistry .exclusive
    (modifyConfig (getConfigId deviceId) fun config => { config with ip := deviceIp })

def addRemotePort (deviceId : String) (port : Int) : Program Bool :=
  locked .sharedRegistry .exclusive
    (if port < 0 then pure false
    else modifyConfig (getConfigId deviceId) fun config => { config with remotePort := port })

def getRemotePort (deviceId : String) : Program Int :=
  locked .sharedRegistry .shared
    (readConfig (getConfigId deviceId) (-1) fun config => config.remotePort)

def acquireLocalPort : Program Int := locked .ports .exclusive (act .acquireLocalPort)

def addLocalPort (deviceId : String) : Program Bool :=
  locked .sharedRegistry .exclusive do
    let port ← acquireLocalPort
    if port ≠ -1 then
      modifyConfig (getConfigId deviceId) fun config => { config with localPort := port }
    else pure false

def getLocalPort (deviceId : String) : Program Int :=
  locked .sharedRegistry .shared
    (readConfig (getConfigId deviceId) (-1) fun config => config.localPort)

def releaseLocalPort (port : Int) : Program Bool :=
  locked .ports .exclusive (act (.releaseLocalPort port))

def releaseLocalPortSocket (bsock : SocketPtr) : Program Bool :=
  locked .sharedRegistry .exclusive do
    match ← getConfigSocket bsock with
    | some config =>
      if config.localPort = -1 then pure false else releaseLocalPort config.localPort
    | none => pure false

def add (bsock : SocketPtr) : Program Unit :=
  locked .recursive .exclusive do
    createConfigSocket bsock
    act (.pushSocket bsock)

def remove (bsock : SocketPtr) : Program Bool :=
  locked .recursive .exclusive do
    if ← act (.findSocket bsock) then
      let _ ← releaseLocalPortSocket bsock
      let _ ← disconnectSocket bsock
      removeConfig bsock
      act (.eraseSocket bsock)
      pure true
    else pure false

end Registry

end SensorLib
