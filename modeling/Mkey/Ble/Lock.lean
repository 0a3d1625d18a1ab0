import Mkey.Ble.Advertisement
import Mkey.Ble.Pump

/-!
# The driver

Connects to a lock, loads a key and runs one opening attempt. Three fields and a
state are kept in step by calls that can each fail half way; every call of the
transport is on record.
-/
namespace Mkey

/-- A transport that can also find locks and connect to them. -/
class LockTransport (T : Type) extends BleTransport T where
  scanAndConnect : T → Duration → Option LockFilter → T × Except Error ConnectedLock
  connectById : T → String → Duration → T × Except Error ConnectedLock
  notifyReadable : T → Bool

inductive OpeningMode where
  | standard
  | office
  deriving DecidableEq

def OpeningMode.toMode : OpeningMode → Mode
  | standard => .standard
  | office => .office

def defaultScanDuration : Duration := .fromSecs 5
def defaultTimeout : Duration := .fromSecs 10

/-- How the version handshake is chosen for a lock. -/
inductive HandshakePlan where
  | auto
  | appProtocol
  | readOnly
  | none
  deriving DecidableEq

namespace HandshakePlan

/-- Version 0 stands for a lock without a manufacturer record. -/
def forAdvertisedVersion (advertisedVersion : UInt8) : Detection :=
  if advertisedVersion = 0 then .readOnly else .appProtocol

def resolve (plan : HandshakePlan) (advertisedVersion : UInt8) : Detection :=
  match plan with
  | auto => forAdvertisedVersion advertisedVersion
  | appProtocol => .appProtocol
  | readOnly => .readOnly
  | none => .none

end HandshakePlan

inductive LockState where
  | disconnected
  | connected
  | authenticated
  deriving DecidableEq

def LockState.toString : LockState → String
  | disconnected => "DISCONNECTED"
  | connected => "CONNECTED"
  | authenticated => "AUTHENTICATED"

structure SaltoLock (T : Type) where
  transport : T
  connectedLock : Option ConnectedLock
  mobileKey : Option MobileKey
  state : LockState
  handshake : HandshakePlan
  timeouts : Timeouts
  random : Option RandomSource

/-- A call the driver makes on the transport, or through the pump. -/
inductive LockCall where
  | scanAndConnect (timeout : Duration)
  | connectById (lockId : String) (timeout : Duration)
  | notifyReadable
  | pump (call : PumpCall)
  | disconnect

/-- The lock a call leaves, the calls it made, and its result. -/
abbrev Returned (T α : Type) := SaltoLock T × List LockCall × Except Error α

namespace SaltoLock

variable {T : Type}

def withTransport (transport : T) : SaltoLock T :=
  { transport, connectedLock := none, mobileKey := none, state := .disconnected,
    handshake := .auto, timeouts := .default, random := none }

def withHandshake (lock : SaltoLock T) (handshake : HandshakePlan) : SaltoLock T :=
  { lock with handshake }

def withTimeouts (lock : SaltoLock T) (timeouts : Timeouts) : SaltoLock T := { lock with timeouts }

def withRandom (lock : SaltoLock T) (random : RandomSource) : SaltoLock T :=
  { lock with random := some random }

def expectState (lock : SaltoLock T) (expected : LockState) : Except Error Unit :=
  if lock.state = expected then .ok ()
  else .error (.invalidState expected.toString lock.state.toString)

/-- A new link starts without a key, whatever was loaded before. -/
def afterConnect (lock : SaltoLock T) (connected : ConnectedLock) : SaltoLock T :=
  { lock with connectedLock := some connected, mobileKey := none, state := .connected }

def authenticate (lock : SaltoLock T) (mobileKey : MobileKey) : Returned T Unit :=
  match lock.expectState .connected with
  | .error e => (lock, [], .error e)
  | .ok () => ({ lock with mobileKey := some mobileKey, state := .authenticated }, [], .ok ())

def readTag (lock : SaltoLock T) (tagId : UInt8) : Except Error (List UInt8) :=
  match lock.mobileKey with
  | none => .error .invalidMobileKey
  | some key =>
    match key.getTag tagId with
    | some tag => .ok tag.data
    | none => .error (.keyNotFound s!"Tag 0x{Hex.byte true tagId}")

/-- A write is carried out whatever the tag is. -/
def writeTag (lock : SaltoLock T) (tagId : UInt8) (data : List UInt8) : Returned T Unit :=
  match lock.mobileKey with
  | none => (lock, [], .error .invalidMobileKey)
  | some key => ({ lock with mobileKey := some (key.setTagData tagId data) }, [], .ok ())

/-- What a connection attempt of the transport makes of the lock. -/
def connected (lock : SaltoLock T) (call : LockCall) :
    T × Except Error ConnectedLock → Returned T DiscoveredLock
  | (transport, .error e) => ({ lock with transport }, [call], .error e)
  | (transport, .ok found) =>
    (({ lock with transport } : SaltoLock T).afterConnect found, [call], .ok found.info)

section Transport

variable [LockTransport T]

def scanAndConnectFiltered (lock : SaltoLock T) (timeout : Option Duration)
    (filter : Option LockFilter) : Returned T DiscoveredLock :=
  match lock.expectState .disconnected with
  | .error e => (lock, [], .error e)
  | .ok () =>
    let timeout := timeout.getD defaultScanDuration
    lock.connected (.scanAndConnect timeout)
      (LockTransport.scanAndConnect lock.transport timeout filter)

def connectById (lock : SaltoLock T) (lockId : String) (timeout : Option Duration) :
    Returned T DiscoveredLock :=
  match lock.expectState .disconnected with
  | .error e => (lock, [], .error e)
  | .ok () =>
    let timeout := timeout.getD defaultTimeout
    lock.connected (.connectById lockId timeout)
      (LockTransport.connectById lock.transport lockId timeout)

variable (aes : BlockCipher) (os : RandomSource)

/-- The attempt itself, with the key and the advertised version it goes by. An injected source of
randomness serves one attempt; the pump owns the teardown. -/
def attempt (fuel : Nat) (lock : SaltoLock T) (mode : OpeningMode) (key : MobileKey)
    (advertised : UInt8) : Option (Returned T Outcome) :=
  let options : Options :=
    { mode := mode.toMode
      detection := lock.handshake.resolve advertised
      timeouts := lock.timeouts
      notifyReadable := LockTransport.notifyReadable lock.transport }
  let session := Session.start key options lock.random
  let lock := { lock with random := none }
  (Pump.runSession aes os fuel lock.transport session).map fun (calls, transport, _, result) =>
    ({ lock with transport, connectedLock := none, state := .disconnected },
      .notifyReadable :: calls.map .pump, result)

/-- One opening attempt, when the fuel suffices. -/
def openObserved (fuel : Nat) (lock : SaltoLock T) (mode : OpeningMode) :
    Option (Returned T Outcome) :=
  match lock.expectState .authenticated with
  | .error e => some (lock, [], .error e)
  | .ok () =>
    match lock.mobileKey with
    | none => some (lock, [], .error .invalidMobileKey)
    | some key =>
      let advertised := (lock.connectedLock.map fun c => c.info.protocolVersion).getD 0
      lock.attempt aes os fuel mode key advertised

/-- A teardown that fails leaves everything as it was. -/
def disconnect (lock : SaltoLock T) : Returned T Unit :=
  match BleTransport.disconnect lock.transport with
  | (transport, .error e) => ({ lock with transport }, [.disconnect], .error e)
  | (transport, .ok ()) =>
    ({ lock with transport, connectedLock := none, mobileKey := none, state := .disconnected },
      [.disconnect], .ok ())

end Transport

end SaltoLock

end Mkey
