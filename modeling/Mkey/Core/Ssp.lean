import Mkey.Core.Crypto

/-!
# SSP layer

Challenge-response authentication, then encryption under a session key with an
IV chained across every message. A call returns the state it leaves beside its
result, because several errors are raised after the state has moved.
-/
namespace Mkey

/-- A source of 16-byte random values: what it hands out, and how much is used up. -/
structure RandomSource where
  values : Nat → Block
  next : Nat

def RandomSource.random16 (source : RandomSource) : Block × RandomSource :=
  (source.values source.next, { source with next := source.next + 1 })

inductive OpCode where
  | error
  | openSessionStep1
  | openSessionStep2
  | setKeyValue
  | getVersion
  deriving DecidableEq

namespace OpCode

def toByte : OpCode → UInt8
  | error => 0x00
  | openSessionStep1 => 0x01
  | openSessionStep2 => 0x02
  | setKeyValue => 0x03
  | getVersion => 0x04

def tryFrom (value : UInt8) : Except Error OpCode :=
  if value = 0x00 then .ok error
  else if value = 0x01 then .ok openSessionStep1
  else if value = 0x02 then .ok openSessionStep2
  else if value = 0x03 then .ok setKeyValue
  else if value = 0x04 then .ok getVersion
  else .error (.invalidData s!"Unknown OpCode: 0x{Hex.byte true value}")

end OpCode

namespace Control

def requestFlag : UInt8 := 0x01
def encryptedFlag : UInt8 := 0x02
def unencryptedControl : UInt8 := requestFlag
def encryptedControl : UInt8 := requestFlag ||| encryptedFlag
def encryptedData : UInt8 := encryptedFlag

def isControl (controlByte : UInt8) : Bool := controlByte &&& requestFlag != 0
def isEncrypted (controlByte : UInt8) : Bool := controlByte &&& encryptedFlag != 0

end Control

open Control

inductive SspState where
  | ready
  | authStep1
  | inSession
  deriving DecidableEq

def SspState.toString : SspState → String
  | ready => "READY"
  | authStep1 => "AUTH_STEP_1"
  | inSession => "IN_SESSION"

structure SspVersion where
  major : UInt8
  minor : UInt8
  deriving DecidableEq

structure SecureProtocolManager where
  state : SspState
  iv : Block
  knKey : Block
  sessionKey : Option Block
  randomB : Option Block
  randomA : Option Block
  version : SspVersion
  random : RandomSource

namespace SecureProtocolManager

def withRandom (knKey : Block) (random : RandomSource) : SecureProtocolManager :=
  { state := .ready, iv := Block.replicate 0, knKey, sessionKey := none, randomB := none,
    randomA := none, version := ⟨1, 0⟩, random }

def reset (s : SecureProtocolManager) : SecureProtocolManager :=
  { s with state := .ready, iv := Block.replicate 0, sessionKey := none, randomB := none,
           randomA := none }

def currentEncryptionKey (s : SecureProtocolManager) : Block := s.sessionKey.getD s.knKey

/-- The chain goes on from the last sixteen bytes of a ciphertext. -/
def updateIvFromCiphertext (s : SecureProtocolManager) (ciphertext : List UInt8) :
    SecureProtocolManager :=
  if long : 16 ≤ ciphertext.length then
    { s with iv := Block.slice ciphertext (ciphertext.length - 16) (by omega) }
  else s

/-- What a result of the SSP layer carries with it. -/
abbrev Result := SecureProtocolManager × Except Error (List UInt8)

section Aes

variable (aes : BlockCipher)

def encryptPayload (s : SecureProtocolManager) (data : List UInt8) : Result :=
  let crc := crc16Ssp data
  let plaintext := data ++ crc
  let ciphertext := encryptAesCbc aes s.currentEncryptionKey s.iv (applyPadding plaintext)
    (applyPadding_aligned plaintext)
  (s.updateIvFromCiphertext ciphertext, .ok ciphertext)

def decryptPayload (s : SecureProtocolManager) (ciphertext : List UInt8) : Result :=
  if ciphertext.length < 16 ∨ ¬16 ∣ ciphertext.length then
    (s, .error (.invalidData
      s!"Invalid ciphertext length: {ciphertext.length} (must be multiple of 16)"))
  else
    match decryptAesCbc aes s.currentEncryptionKey s.iv ciphertext with
    | .error e => (s, .error e)
    | .ok decrypted =>
      -- the IV has moved before padding and checksum are looked at
      let s := s.updateIvFromCiphertext ciphertext
      match removePadding decrypted with
      | .error e => (s, .error e)
      | .ok unpadded =>
        if unpadded.length < 2 then
          (s, .error (.invalidData "Decrypted data too short for CRC"))
        else
          let data := unpadded.take (unpadded.length - 2)
          let receivedCrc := unpadded.drop (unpadded.length - 2)
          if receivedCrc ≠ crc16Ssp data then (s, .error .invalidCrc) else (s, .ok data)

def handleOpenSessionStep1 (s : SecureProtocolManager) (_payload : List UInt8)
    (wasEncrypted : Bool) : Result :=
  if wasEncrypted then
    (s, .error (.invalidData "OpenSessionStep1 request should not be encrypted"))
  else if s.state ≠ .ready then
    (s, .error (.invalidState "READY" s.state.toString))
  else
    let (randomB, random) := s.random.random16
    -- RandomB is kept for the check of OpenSessionStep2
    let s := { s with random, randomB := some randomB }
    let responseData := OpCode.openSessionStep1.toByte :: randomB.toList
    match s.encryptPayload aes responseData with
    | (s, .error e) => (s, .error e)
    | (s, .ok encryptedResponse) =>
      ({ s with state := .authStep1 }, .ok (encryptedControl :: encryptedResponse))

def handleOpenSessionStep2 (s : SecureProtocolManager) (payload : List UInt8)
    (wasEncrypted : Bool) : Result :=
  if ¬wasEncrypted then
    (s, .error (.invalidData "OpenSessionStep2 request must be encrypted"))
  else if s.state ≠ .authStep1 then
    (s, .error (.invalidState "AUTH_STEP_1" s.state.toString))
  else if short : payload.length < 32 then
    (s, .error (.invalidData
      s!"OpenSessionStep2 payload too short: expected 32 bytes, got {payload.length}"))
  else
    let randomA := Block.slice payload 0 (Block.slice_fits short (by decide))
    let randomBPrime := Block.slice payload 16 (Block.slice_fits short (by decide))
    match s.randomB with
    | none => (s, .error (.invalidState "RandomB stored" "RandomB not found"))
    | some storedRandomB =>
      let expectedRandomBPrime := rotateRight storedRandomB.toList
      if randomBPrime.toList ≠ expectedRandomBPrime then
        -- back to READY: RandomB and the IV stay as they are
        ({ s with state := .ready }, .error .authenticationFailed)
      else
        let s := { s with randomA := some randomA }
        let responseData := OpCode.openSessionStep2.toByte :: rotateRight randomA.toList
        match s.encryptPayload aes responseData with
        | (s, .error e) => (s, .error e)
        | (s, .ok encryptedResponse) =>
          -- the reply is still sealed under kN; the session key counts from the next packet on
          ({ s with
              sessionKey := some (deriveSessionKey randomA storedRandomB), state := .inSession },
            .ok (encryptedControl :: encryptedResponse))

/-- Unlike the two steps above, this handler is not told whether the packet was encrypted. -/
def handleSetKeyValue (s : SecureProtocolManager) (payload : List UInt8) : Result :=
  if s.state ≠ .inSession then
    (s, .error (.invalidState "IN_SESSION" s.state.toString))
  else if short : payload.length < 17 then
    (s, .error (.invalidData
      s!"SetKeyValue payload too short: expected 17 bytes, got {payload.length}"))
  else
    -- the key stands behind one byte that nothing reads
    let newKey := Block.slice payload 1 (Block.slice_fits short (by decide))
    -- the reply is sealed under the new key already
    let s := { s with sessionKey := some newKey }
    match s.encryptPayload aes [OpCode.setKeyValue.toByte] with
    | (s, .error e) => (s, .error e)
    | (s, .ok encryptedResponse) => (s, .ok (encryptedControl :: encryptedResponse))

def handleGetVersion (s : SecureProtocolManager) : Except Error (List UInt8) :=
  .ok [unencryptedControl, OpCode.getVersion.toByte, s.version.major, s.version.minor]

def processControlPacket (s : SecureProtocolManager) (payload : List UInt8)
    (wasEncrypted : Bool) : Result :=
  match payload with
  | [] => (s, .error (.invalidData "Empty control packet"))
  | byte :: rest =>
    match OpCode.tryFrom byte with
    | .error e => (s, .error e)
    | .ok .error => (s, .error (.invalidData "Received SSPError control packet"))
    | .ok .openSessionStep1 => s.handleOpenSessionStep1 aes rest wasEncrypted
    | .ok .openSessionStep2 => s.handleOpenSessionStep2 aes rest wasEncrypted
    | .ok .setKeyValue => s.handleSetKeyValue aes rest
    | .ok .getVersion => (s, s.handleGetVersion)

def processDataPacket (s : SecureProtocolManager) (payload : List UInt8) : Result :=
  if s.state ≠ .inSession then
    (s, .error (.invalidState "IN_SESSION" s.state.toString))
  else (s, .ok payload)

def processPacket (s : SecureProtocolManager) (packet : List UInt8) : Result :=
  match packet with
  | [] | [_] => (s, .error (.invalidData "SSP packet too short"))
  | controlByte :: b :: rest =>
    let body := b :: rest
    let opened := if isEncrypted controlByte then s.decryptPayload aes body else (s, .ok body)
    match opened with
    | (s, .error e) => (s, .error e)
    | (s, .ok payload) =>
      -- only the encryption bit is handed on: the control bit has done its work
      if isControl controlByte then
        s.processControlPacket aes payload (isEncrypted controlByte)
      else s.processDataPacket payload

def buildOpenSessionStep1Request : List UInt8 :=
  [unencryptedControl, OpCode.openSessionStep1.toByte]

def buildGetVersionRequest : List UInt8 := [unencryptedControl, OpCode.getVersion.toByte]

def wrapData (s : SecureProtocolManager) (data : List UInt8) : Result :=
  if s.state ≠ .inSession then
    (s, .error (.invalidState "IN_SESSION" s.state.toString))
  else
    match s.encryptPayload aes data with
    | (s, .error e) => (s, .error e)
    | (s, .ok encrypted) => (s, .ok (encryptedData :: encrypted))

def unwrapData (s : SecureProtocolManager) (packet : List UInt8) : Result :=
  match packet with
  | [] => (s, .error (.invalidData "Empty packet"))
  | controlByte :: body =>
    if ¬isEncrypted controlByte then
      (s, .error (.invalidData "Expected encrypted packet"))
    else s.decryptPayload aes body

end Aes

end SecureProtocolManager

end Mkey
