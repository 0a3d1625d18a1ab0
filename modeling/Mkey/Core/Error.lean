import Mathlib

/-! The shared failure vocabulary, and how bytes are printed inside its messages. -/
namespace Mkey

namespace Hex

def digit (upper : Bool) (n : Nat) : Char :=
  (if upper then "0123456789ABCDEF" else "0123456789abcdef").toList.getD n '0'

/-- A byte as two digits: the `02X` format, or the lower-case one `hex::encode` writes. -/
def byte (upper : Bool) (b : UInt8) : String :=
  String.ofList [digit upper (b.toNat / 16), digit upper (b.toNat % 16)]

def encode (bytes : List UInt8) : String := String.join (bytes.map (byte false))

end Hex

/-- What an application may be told of a failure: the vocabulary it shares with the other port. -/
inductive ErrorCode where
  | aborted
  | authenticationFailed
  | bluetoothUnavailable
  | characteristicNotFound
  | connectionFailed
  | deviceNotFound
  | disconnected
  | gattOperationFailed
  | invalidCrc
  | invalidData
  | invalidPadding
  | invalidState
  | security
  | serviceNotFound
  | timeout
  | unsupportedProtocol
  | userCancelled
  deriving DecidableEq

namespace ErrorCode

/-- Every code, in the order of the vocabulary. -/
def all : List ErrorCode :=
  [aborted, authenticationFailed, bluetoothUnavailable, characteristicNotFound, connectionFailed,
   deviceNotFound, disconnected, gattOperationFailed, invalidCrc, invalidData, invalidPadding,
   invalidState, security, serviceNotFound, timeout, unsupportedProtocol, userCancelled]

def asStr : ErrorCode → String
  | aborted => "aborted"
  | authenticationFailed => "authentication-failed"
  | bluetoothUnavailable => "bluetooth-unavailable"
  | characteristicNotFound => "characteristic-not-found"
  | connectionFailed => "connection-failed"
  | deviceNotFound => "device-not-found"
  | disconnected => "disconnected"
  | gattOperationFailed => "gatt-operation-failed"
  | invalidCrc => "invalid-crc"
  | invalidData => "invalid-data"
  | invalidPadding => "invalid-padding"
  | invalidState => "invalid-state"
  | security => "security"
  | serviceNotFound => "service-not-found"
  | timeout => "timeout"
  | unsupportedProtocol => "unsupported-protocol"
  | userCancelled => "user-cancelled"

/-- The spelling tells the code. -/
theorem asStr_injective : Function.Injective asStr := by
  have found (code : ErrorCode) : all.find? (fun c => c.asStr = code.asStr) = some code := by
    cases code <;> decide
  intro code other same
  have both := found code
  rw [same, found other] at both
  exact (Option.some.inj both).symm

end ErrorCode

/-- The failures the modelled code raises or passes on. -/
inductive Error where
  | connectionFailed (message : String)
  | bluetoothUnavailable
  | disconnected
  | serviceNotFound (message : String)
  | characteristicNotFound (message : String)
  | gattOperationFailed (message : String)
  | authenticationFailed
  | decryptionFailed
  | invalidCrc
  | invalidPadding
  | invalidProtocolVersion (message : String)
  | invalidState (expected actual : String)
  | invalidMobileKey
  | keyNotFound (message : String)
  | invalidKeyLength (length : Nat)
  | timeout (ms : UInt64)
  | noLocksFound
  | cancelled
  | invalidData (message : String)
  | tlvError (message : String)
  deriving DecidableEq

instance decidableEqExcept {α : Type} [DecidableEq α] : DecidableEq (Except Error α)
  | .ok a, .ok b => decidable_of_iff (a = b) (by simp)
  | .error a, .error b => decidable_of_iff (a = b) (by simp)
  | .ok _, .error _ => isFalse (by simp)
  | .error _, .ok _ => isFalse (by simp)

namespace Error

/-- Several failures share a code: the message carries the detail. -/
def code : Error → ErrorCode
  | connectionFailed _ => .connectionFailed
  | bluetoothUnavailable => .bluetoothUnavailable
  | disconnected => .disconnected
  | serviceNotFound _ => .serviceNotFound
  | characteristicNotFound _ => .characteristicNotFound
  | gattOperationFailed _ => .gattOperationFailed
  | authenticationFailed => .authenticationFailed
  | invalidCrc => .invalidCrc
  | invalidPadding => .invalidPadding
  | invalidProtocolVersion _ => .unsupportedProtocol
  | invalidState _ _ => .invalidState
  | timeout _ => .timeout
  | noLocksFound => .deviceNotFound
  | cancelled => .aborted
  | decryptionFailed | invalidMobileKey | keyNotFound _ | invalidKeyLength _ | invalidData _
  | tlvError _ => .invalidData

/-- What the `Display` of a failure prints. -/
def display : Error → String
  | connectionFailed message => s!"BLE connection failed: {message}"
  | bluetoothUnavailable => "No Bluetooth adapter available"
  | disconnected => "BLE disconnected unexpectedly"
  | serviceNotFound message => s!"Service not found: {message}"
  | characteristicNotFound message => s!"Characteristic not found: {message}"
  | gattOperationFailed message => message
  | authenticationFailed => "Authentication failed"
  | decryptionFailed => "Decryption failed"
  | invalidCrc => "Invalid CRC checksum"
  | invalidPadding => "Invalid padding"
  | invalidProtocolVersion message => s!"Invalid protocol version: {message}"
  | invalidState expected actual =>
      s!"Invalid state for operation: expected {expected}, got {actual}"
  | invalidMobileKey => "Invalid mobile key data"
  | keyNotFound message => s!"Key not found: {message}"
  | invalidKeyLength length => s!"Invalid key length: expected 16, got {length}"
  | timeout ms => s!"Operation timeout after {ms}ms"
  | noLocksFound => "No SALTO locks found"
  | cancelled => "Operation cancelled"
  | invalidData message => s!"Invalid data received: {message}"
  | tlvError message => s!"TLV parse error: {message}"

end Error

end Mkey
