import Mkey.Checked.Crypto
import Mkey.Core.SspSteps

/-!
# The SSP layer with its checks

A source of random values may hold a limited number of them: asked for more, it
stops the program. Everything else is safe by the checks made on the way.
-/
namespace Mkey.Checked

open Guarded Control SecureProtocolManager

/-- A source that holds so many values and no more. -/
def random16 (limit : Nat) (source : RandomSource) : Guarded (Block × RandomSource) :=
  if source.next < limit then .ok source.random16 else .error .exhausted

def updateIvFromCiphertext (s : SecureProtocolManager) (ciphertext : List UInt8) :
    Guarded SecureProtocolManager := do
  if ciphertext.length ≥ 16 then
    let last ← sliceFrom ciphertext (← sub ciphertext.length 16)
    return { s with iv := ← copyFromSlice s.iv last }
  else return s

section Aes

variable (aes : BlockCipher) (limit : Nat)

def encryptPayload (s : SecureProtocolManager) (data : List UInt8) : Guarded Result := do
  let crc ← crc16Ssp data
  let padded := applyPadding (data ++ crc)
  let ciphertext ← encryptAesCbc aes s.currentEncryptionKey s.iv padded
  let s ← updateIvFromCiphertext s ciphertext
  return (s, .ok ciphertext)

def decryptPayload (s : SecureProtocolManager) (ciphertext : List UInt8) : Guarded Result := do
  if ciphertext.length < 16 ∨ ¬16 ∣ ciphertext.length then
    return (s, .error (.invalidData
      s!"Invalid ciphertext length: {ciphertext.length} (must be multiple of 16)"))
  match ← decryptAesCbc aes s.currentEncryptionKey s.iv ciphertext with
  | .error e => return (s, .error e)
  | .ok decrypted =>
    let s ← updateIvFromCiphertext s ciphertext
    match ← removePadding decrypted with
    | .error e => return (s, .error e)
    | .ok unpadded =>
      if unpadded.length < 2 then
        return (s, .error (.invalidData "Decrypted data too short for CRC"))
      let data ← sliceTo unpadded (← sub unpadded.length 2)
      let receivedCrc ← sliceFrom unpadded (← sub unpadded.length 2)
      let calculatedCrc ← crc16Ssp data
      if receivedCrc ≠ calculatedCrc then return (s, .error .invalidCrc)
      return (s, .ok data)

def handleOpenSessionStep1 (s : SecureProtocolManager) (_payload : List UInt8)
    (wasEncrypted : Bool) : Guarded Result := do
  if wasEncrypted then
    return (s, .error (.invalidData "OpenSessionStep1 request should not be encrypted"))
  if s.state ≠ .ready then
    return (s, .error (.invalidState "READY" s.state.toString))
  let (randomB, random) ← random16 limit s.random
  let s := { s with random, randomB := some randomB }
  let responseData := OpCode.openSessionStep1.toByte :: randomB.toList
  match ← encryptPayload aes s responseData with
  | (s, .error e) => return (s, .error e)
  | (s, .ok encryptedResponse) =>
    return ({ s with state := .authStep1 }, .ok (encryptedControl :: encryptedResponse))

def handleOpenSessionStep2 (s : SecureProtocolManager) (payload : List UInt8)
    (wasEncrypted : Bool) : Guarded Result := do
  if ¬wasEncrypted then
    return (s, .error (.invalidData "OpenSessionStep2 request must be encrypted"))
  if s.state ≠ .authStep1 then
    return (s, .error (.invalidState "AUTH_STEP_1" s.state.toString))
  if payload.length < 32 then
    return (s, .error (.invalidData
      s!"OpenSessionStep2 payload too short: expected 32 bytes, got {payload.length}"))
  let randomA ← copyFromSlice (Block.replicate 0) (← slice payload 0 16)
  let randomBPrime ← copyFromSlice (Block.replicate 0) (← slice payload 16 32)
  match s.randomB with
  | none => return (s, .error (.invalidState "RandomB stored" "RandomB not found"))
  | some storedRandomB =>
    let expectedRandomBPrime ← rotateRight storedRandomB.toList
    if randomBPrime.toList ≠ expectedRandomBPrime then
      return ({ s with state := .ready }, .error .authenticationFailed)
    let s := { s with randomA := some randomA }
    let randomAPrime ← rotateRight randomA.toList
    let responseData := OpCode.openSessionStep2.toByte :: randomAPrime
    match ← encryptPayload aes s responseData with
    | (s, .error e) => return (s, .error e)
    | (s, .ok encryptedResponse) =>
      let sessionKey ← deriveSessionKey randomA storedRandomB
      return ({ s with sessionKey := some sessionKey, state := .inSession },
        .ok (encryptedControl :: encryptedResponse))

def handleSetKeyValue (s : SecureProtocolManager) (payload : List UInt8) : Guarded Result := do
  if s.state ≠ .inSession then
    return (s, .error (.invalidState "IN_SESSION" s.state.toString))
  if payload.length < 17 then
    return (s, .error (.invalidData
      s!"SetKeyValue payload too short: expected 17 bytes, got {payload.length}"))
  let newKey ← copyFromSlice (Block.replicate 0) (← slice payload 1 17)
  let s := { s with sessionKey := some newKey }
  match ← encryptPayload aes s [OpCode.setKeyValue.toByte] with
  | (s, .error e) => return (s, .error e)
  | (s, .ok encryptedResponse) => return (s, .ok (encryptedControl :: encryptedResponse))

def processControlPacket (s : SecureProtocolManager) (payload : List UInt8)
    (wasEncrypted : Bool) : Guarded Result := do
  if payload.isEmpty then return (s, .error (.invalidData "Empty control packet"))
  match OpCode.tryFrom (← index payload 0) with
  | .error e => return (s, .error e)
  | .ok .error => return (s, .error (.invalidData "Received SSPError control packet"))
  | .ok .openSessionStep1 =>
      handleOpenSessionStep1 aes limit s (← sliceFrom payload 1) wasEncrypted
  | .ok .openSessionStep2 => handleOpenSessionStep2 aes s (← sliceFrom payload 1) wasEncrypted
  | .ok .setKeyValue => handleSetKeyValue aes s (← sliceFrom payload 1)
  | .ok .getVersion => return (s, s.handleGetVersion)

/-- The payload of `processPacket`: what the packet brings, decrypted if it has to be. -/
def openPayload (s : SecureProtocolManager) (body : List UInt8) (isEncrypted : Bool) :
    Guarded Result :=
  if isEncrypted then decryptPayload aes s body else return (s, .ok body)

def processPacket (s : SecureProtocolManager) (packet : List UInt8) : Guarded Result := do
  if packet.length < 2 then return (s, .error (.invalidData "SSP packet too short"))
  let controlByte ← index packet 0
  match ← openPayload aes s (← sliceFrom packet 1) (isEncrypted controlByte) with
  | (s, .error e) => return (s, .error e)
  | (s, .ok payload) =>
    if isControl controlByte then
      processControlPacket aes limit s payload (isEncrypted controlByte)
    else return s.processDataPacket payload

def wrapData (s : SecureProtocolManager) (data : List UInt8) : Guarded Result := do
  if s.state ≠ .inSession then
    return (s, .error (.invalidState "IN_SESSION" s.state.toString))
  match ← encryptPayload aes s data with
  | (s, .error e) => return (s, .error e)
  | (s, .ok encrypted) => return (s, .ok (encryptedData :: encrypted))

/-! ### They return what the unguarded functions do -/

omit aes limit in
theorem updateIvFromCiphertext_eq (s : SecureProtocolManager) (ciphertext : List UInt8) :
    updateIvFromCiphertext s ciphertext = .ok (s.updateIvFromCiphertext ciphertext) := by
  rw [updateIvFromCiphertext, SecureProtocolManager.updateIvFromCiphertext]
  split
  next long =>
    have size : (ciphertext.drop (ciphertext.length - 16)).length = 16 := by
      rw [List.length_drop]
      omega
    have whole : (ciphertext.drop (ciphertext.length - 16)).take 16 =
        ciphertext.drop (ciphertext.length - 16) := List.take_of_length_le size.le
    rw [sub_of_le long, ok_bind, sliceFrom_of_le (by omega), ok_bind,
      copyFromSlice_of_length _ size]
    simp only [Block.slice, whole]
    rfl
  next => rfl

theorem encryptPayload_eq (s : SecureProtocolManager) (data : List UInt8) :
    encryptPayload aes s data = .ok (s.encryptPayload aes data) := by
  rw [encryptPayload, crc16Ssp_eq, ok_bind]
  dsimp only
  rw [encryptAesCbc_eq aes _ _ (applyPadding_aligned _), ok_bind, updateIvFromCiphertext_eq]
  rfl

theorem decryptPayload_eq (s : SecureProtocolManager) (ciphertext : List UInt8) :
    decryptPayload aes s ciphertext = .ok (s.decryptPayload aes ciphertext) := by
  rw [decryptPayload, SecureProtocolManager.decryptPayload]
  split
  · rfl
  rw [decryptAesCbc_eq, ok_bind]
  cases Mkey.decryptAesCbc aes s.currentEncryptionKey s.iv ciphertext with
  | error e => rfl
  | ok decrypted =>
    dsimp only
    rw [updateIvFromCiphertext_eq, ok_bind, removePadding_eq, ok_bind]
    cases Mkey.removePadding decrypted with
    | error e => rfl
    | ok unpadded =>
      dsimp only
      split
      · rfl
      next long =>
        rw [sub_of_le (by omega), ok_bind, sliceTo_of_le (by omega), ok_bind, ok_bind,
          sliceFrom_of_le (by omega), ok_bind, crc16Ssp_eq, ok_bind]
        split <;> rfl

/-- The first step is the only one that draws a random value. -/
theorem handleOpenSessionStep1_eq {s : SecureProtocolManager}
    (left : s.state = .ready → s.random.next < limit) (payload : List UInt8)
    (wasEncrypted : Bool) :
    handleOpenSessionStep1 aes limit s payload wasEncrypted =
      .ok (s.handleOpenSessionStep1 aes payload wasEncrypted) := by
  rw [handleOpenSessionStep1, SecureProtocolManager.handleOpenSessionStep1]
  split
  · rfl
  split
  · rfl
  next ready =>
    rw [random16, if_pos (left (not_not.mp ready)), ok_bind]
    dsimp only
    rw [encryptPayload_eq]
    rfl

omit aes limit in
/-- Sixteen bytes of a payload, as they are copied into an array. -/
theorem slice_block {bytes : List UInt8} {start stop : Nat} (fits : start + 16 ≤ bytes.length)
    (ends : start + 16 = stop) :
    slice bytes start stop = .ok (Block.slice bytes start fits).toList := by
  subst ends
  rw [slice_of_le (by omega) fits, List.drop_take, Nat.add_sub_cancel_left]
  rfl

theorem handleOpenSessionStep2_eq (s : SecureProtocolManager) (payload : List UInt8)
    (wasEncrypted : Bool) :
    handleOpenSessionStep2 aes s payload wasEncrypted =
      .ok (s.handleOpenSessionStep2 aes payload wasEncrypted) := by
  rw [handleOpenSessionStep2, SecureProtocolManager.handleOpenSessionStep2]
  split
  · rfl
  split
  · rfl
  split
  · rfl
  next long =>
    rw [slice_block (Block.slice_fits long (by decide)) rfl, ok_bind, copyFromSlice_toList,
      ok_bind, slice_block (Block.slice_fits long (by decide)) rfl, ok_bind, copyFromSlice_toList,
      ok_bind]
    cases s.randomB with
    | none => rfl
    | some storedRandomB =>
      dsimp only
      rw [rotateRight_eq, ok_bind]
      split
      · rfl
      rw [rotateRight_eq, ok_bind, encryptPayload_eq, ok_bind]
      cases answer : SecureProtocolManager.encryptPayload aes _ _ with
      | mk after result =>
        cases result with
        | error e => rfl
        | ok encryptedResponse =>
          dsimp only
          rw [deriveSessionKey_eq]
          rfl

theorem handleSetKeyValue_eq (s : SecureProtocolManager) (payload : List UInt8) :
    handleSetKeyValue aes s payload = .ok (s.handleSetKeyValue aes payload) := by
  rw [handleSetKeyValue, SecureProtocolManager.handleSetKeyValue]
  split
  · rfl
  split
  · rfl
  next long =>
    rw [slice_block (Block.slice_fits long (by decide)) rfl, ok_bind, copyFromSlice_toList,
      ok_bind]
    dsimp only
    rw [encryptPayload_eq]
    rfl

theorem processControlPacket_eq {s : SecureProtocolManager}
    (left : s.state = .ready → s.random.next < limit) (payload : List UInt8)
    (wasEncrypted : Bool) :
    processControlPacket aes limit s payload wasEncrypted =
      .ok (s.processControlPacket aes payload wasEncrypted) := by
  cases payload with
  | nil => rfl
  | cons byte rest =>
    have args : sliceFrom (byte :: rest) 1 = .ok rest := sliceFrom_of_le (by simp)
    rw [processControlPacket, SecureProtocolManager.processControlPacket, if_neg (by simp),
      index_of_lt (by simp), ok_bind, List.getElem_cons_zero]
    cases OpCode.tryFrom byte with
    | error e => rfl
    | ok opcode =>
      cases opcode with
      | error | getVersion => rfl
      | openSessionStep1 =>
        dsimp only
        rw [args, ok_bind, handleOpenSessionStep1_eq aes limit left]
      | openSessionStep2 =>
        dsimp only
        rw [args, ok_bind, handleOpenSessionStep2_eq]
      | setKeyValue =>
        dsimp only
        rw [args, ok_bind, handleSetKeyValue_eq]

theorem decryptPayload_keeps (s : SecureProtocolManager) (body : List UInt8) :
    (s.decryptPayload aes body).1.state = s.state ∧
      (s.decryptPayload aes body).1.random = s.random := by
  have moved : (s.decryptPayload aes body).1 = s.advance body := by
    rcases s.decryptPayload_cases aes body with ⟨e, failed, _⟩ | ⟨data, opened, _⟩
    · rw [failed]
    · rw [opened]
  rw [moved, advance]
  split <;> simp

/-- A payload is opened without a random value, and in the same state. -/
theorem openPayload_eq (s : SecureProtocolManager) (body : List UInt8) (encrypted : Bool) :
    ∃ after result, openPayload aes s body encrypted = .ok (after, result) ∧
      (if encrypted then s.decryptPayload aes body else (s, .ok body)) = (after, result) ∧
      after.state = s.state ∧ after.random = s.random := by
  cases encrypted with
  | true =>
    have kept := decryptPayload_keeps aes s body
    exact ⟨_, _, decryptPayload_eq aes s body, rfl, kept.1, kept.2⟩
  | false => exact ⟨s, .ok body, rfl, rfl, rfl, rfl⟩

theorem processPacket_eq {s : SecureProtocolManager}
    (left : s.state = .ready → s.random.next < limit) (packet : List UInt8) :
    processPacket aes limit s packet = .ok (s.processPacket aes packet) := by
  match packet with
  | [] | [_] => rfl
  | controlByte :: first :: rest =>
    have body : sliceFrom (controlByte :: first :: rest) 1 = .ok (first :: rest) :=
      sliceFrom_of_le (by simp)
    obtain ⟨after, result, opened, same, state, random⟩ :=
      openPayload_eq aes s (first :: rest) (isEncrypted controlByte)
    rw [processPacket, SecureProtocolManager.processPacket, if_neg (by simp),
      index_of_lt (by simp), ok_bind, List.getElem_cons_zero, body, ok_bind, opened, ok_bind, same]
    cases result with
    | error e => rfl
    | ok payload =>
      dsimp only
      split
      · exact processControlPacket_eq aes limit (by rwa [state, random]) payload _
      · rfl

theorem wrapData_eq (s : SecureProtocolManager) (data : List UInt8) :
    wrapData aes s data = .ok (s.wrapData aes data) := by
  rw [wrapData, SecureProtocolManager.wrapData]
  split
  · rfl
  · rw [encryptPayload_eq]
    rfl

end Aes

end Mkey.Checked
