import Mkey.Checked.Ssp
import Mkey.Core.StackSteps

/-!
# The command layer and the stack with their checks

Beside its indices and slices the command layer adds up: the count of refusals has
thirty-two bits, and one refusal too many stops the program.
-/
namespace Mkey.Checked

open Guarded Control

section Justin

variable {S : Type} [MobileKeyStore S]

open JustinProtocolManager

def handleOpen (j : JustinProtocolManager S) (payload : List UInt8) : Guarded (Answer S) := do
  if j.state = .connected then return (j, [CommandStatus.genericError.toByte])
  if payload.length < 8 then return (j, [CommandStatus.genericError.toByte])
  let keyId ← slice payload 0 8
  let identifier ← computeKeyIdentifier keyId
  match MobileKeyStore.getKey j.keyStore identifier with
  | some key =>
      return ({ j with currentKey := some key, state := .connected },
        [CommandStatus.success.toByte])
  | none => return (j, [CommandStatus.notFound.toByte])

def handleReadTag (j : JustinProtocolManager S) (payload : List UInt8) : Guarded (Answer S) := do
  if j.state ≠ .connected then return (j, [CommandStatus.genericError.toByte])
  if payload.isEmpty then return (j, [CommandStatus.genericError.toByte])
  let tagId ← index payload 0
  match j.currentKey with
  | none => return (j, [CommandStatus.genericError.toByte])
  | some key =>
    match key.getTag tagId with
    | none => return (j, [CommandStatus.notFound.toByte])
    | some tag =>
      if j.refusesKnKey tagId then
        return ({ j with knReadRefusals := ← incrU32 j.knReadRefusals },
          [CommandStatus.genericError.toByte])
      if !j.canReadTag tagId tag.permissions then
        if !tag.permissions.contains .readable then return (j, [CommandStatus.notFound.toByte])
        return (j, [CommandStatus.genericError.toByte])
      return (j, CommandStatus.success.toByte :: tag.data)

def handleWriteTag (j : JustinProtocolManager S) (payload : List UInt8) : Guarded (Answer S) := do
  if j.state ≠ .connected then return (j, [CommandStatus.genericError.toByte])
  if payload.length < 2 then return (j, [CommandStatus.genericError.toByte])
  let tagId ← index payload 0
  let data ← sliceFrom payload 1
  if isLegacyTag tagId then return (j, [CommandStatus.genericError.toByte])
  match j.currentKey with
  | none => return (j, [CommandStatus.genericError.toByte])
  | some key =>
    match key.getTag tagId with
    | none => return (j, [CommandStatus.notFound.toByte])
    | some tag =>
      if !j.canWriteTag tagId tag.permissions then
        if !tag.permissions.contains .writable then return (j, [CommandStatus.notFound.toByte])
        return (j, [CommandStatus.genericError.toByte])
      let j := { j with currentKey := some (key.setTagData tagId data) }
      if tagId = tagAudit ∧ ¬data.isEmpty then
        let opResult ← index data 0
        -- the rest of the data is printed
        if data.length > 1 then discard (sliceFrom data 1)
        return ({ j with lastAuditOpResult := some opResult }, [CommandStatus.success.toByte])
      return (j, [CommandStatus.success.toByte])

def processCommand (j : JustinProtocolManager S) (data : List UInt8) :
    Guarded (JustinProtocolManager S × Except Error (List UInt8)) := do
  if data.isEmpty then return (j, .error (.invalidData "Empty command"))
  match CommandOpCode.tryFrom (← index data 0) with
  | .error e => return (j, .error e)
  | .ok opcode =>
    let payload ← sliceFrom data 1
    let (j, response) ←
      match opcode with
      | .openKey => handleOpen j payload
      | .close => .ok (j.handleClose payload)
      | .readTag => handleReadTag j payload
      | .writeTag => handleWriteTag j payload
    return (j, .ok response)

end Justin

section Stack

variable {S : Type} [MobileKeyStore S]

open JustinStack0100

def processJustin (stack : JustinStack0100 S) (payload : List UInt8) (secureSession : Bool) :
    Guarded (JustinStack0100 S × Except Error (List UInt8)) := do
  let prev := stack.justin.secureSession
  let (justin, res) ← processCommand (stack.justin.setSecureSession secureSession) payload
  return ({ stack with justin := justin.setSecureSession prev }, res)

def handlePacket (aes : BlockCipher) (limit : Nat) (stack : JustinStack0100 S)
    (packet : List UInt8) : Guarded (JustinStack0100 S × Except Error (List UInt8)) := do
  if packet.length < 2 then return (stack, .error (.invalidData "SSP packet too short"))
  let controlByte ← index packet 0
  if isControl controlByte then
    let (ssp, res) ← processPacket aes limit stack.ssp packet
    return ({ stack with ssp }, res)
  if isEncrypted controlByte then
    match ← processPacket aes limit stack.ssp packet with
    | (ssp, .error e) => return ({ stack with ssp }, .error e)
    | (ssp, .ok plaintext) =>
      match ← processJustin { stack with ssp } plaintext true with
      | (stack, .error e) => return (stack, .error e)
      | (stack, .ok responsePayload) =>
        let (ssp, res) ← wrapData aes stack.ssp responsePayload
        return ({ stack with ssp }, res)
  match ← processJustin stack (← sliceFrom packet 1) false with
  | (stack, .error e) => return (stack, .error e)
  | (stack, .ok responsePayload) => return (stack, .ok (controlByte :: responsePayload))

end Stack

/-! ### They return what the unguarded functions do -/

section Justin

variable {S : Type} (j : JustinProtocolManager S)

theorem handleOpen_eq [MobileKeyStore S] (payload : List UInt8) :
    handleOpen j payload = .ok (j.handleOpen payload) := by
  rw [handleOpen, JustinProtocolManager.handleOpen]
  split
  · rfl
  split
  · rfl
  next long =>
    have room : 8 ≤ payload.length := Nat.le_of_not_lt long
    rw [slice_of_le (by decide) room, List.drop_zero, ok_bind,
      computeKeyIdentifier_eq (by rw [List.length_take_of_le room]), ok_bind]
    dsimp only
    cases MobileKeyStore.getKey j.keyStore (Mkey.computeKeyIdentifier (payload.take 8)) with
    | some key => rfl
    | none => rfl

/-- One more refusal still fits into the counter. -/
def Fits : Prop := j.knReadRefusals.toNat + 1 < 2 ^ 32

/-- A read stops at nothing but a counter that is full. -/
theorem handleReadTag_eq {payload : List UInt8}
    (fits : j.state = .connected → j.currentKey.isSome → payload.head? = some tagKnKey →
      j.secureSession = false → Fits j) :
    handleReadTag j payload = .ok (j.handleReadTag payload) := by
  unfold handleReadTag JustinProtocolManager.handleReadTag
  split
  · rfl
  next connected =>
    cases payload with
    | nil => rfl
    | cons tagId rest =>
      rw [if_neg (by simp), index_of_lt (by simp), ok_bind, List.getElem_cons_zero]
      cases held : j.currentKey with
      | none => rfl
      | some key =>
        dsimp only
        cases key.getTag tagId with
        | none => rfl
        | some tag =>
          dsimp only
          split
          next refused =>
            have room : Fits j := by
              rw [JustinProtocolManager.refusesKnKey, Bool.and_eq_true, beq_iff_eq,
                Bool.not_eq_true'] at refused
              exact fits (not_not.mp connected) (by rw [held]; rfl) (by rw [refused.1]; rfl)
                refused.2
            rw [incrU32_of_lt room]
            rfl
          · split
            · split <;> rfl
            · rfl

theorem handleWriteTag_eq (payload : List UInt8) :
    handleWriteTag j payload = .ok (j.handleWriteTag payload) := by
  unfold handleWriteTag JustinProtocolManager.handleWriteTag
  split
  · rfl
  match payload with
  | [] | [_] => rfl
  | tagId :: first :: more =>
    have data : sliceFrom (tagId :: first :: more) 1 = .ok (first :: more) :=
      sliceFrom_of_le (by simp)
    rw [if_neg (by simp), index_of_lt (by simp), ok_bind, List.getElem_cons_zero, data, ok_bind]
    dsimp only
    split
    · rfl
    cases j.currentKey with
    | none => rfl
    | some key =>
      dsimp only
      cases key.getTag tagId with
      | none => rfl
      | some tag =>
        dsimp only
        split
        · split <;> rfl
        · by_cases audit : tagId = tagAudit
          · have same : (tagId == tagAudit) = true := by rwa [beq_iff_eq]
            simp only [same]
            rw [if_pos ⟨audit, by simp⟩, index_of_lt (by simp), ok_bind,
              sliceFrom_of_le (by simp)]
            split <;> rfl
          · rw [if_neg (fun both => audit both.1), if_neg (by simpa using audit)]
            rfl

theorem processCommand_eq [MobileKeyStore S] {data : List UInt8}
    (fits : j.state = .connected → j.currentKey.isSome → JustinStack0100.readsKn data →
      j.secureSession = false → Fits j) :
    processCommand j data = .ok (j.processCommand data) := by
  cases data with
  | nil => rfl
  | cons opcode payload =>
    have args : sliceFrom (opcode :: payload) 1 = .ok payload := sliceFrom_of_le (by simp)
    rw [processCommand, JustinProtocolManager.processCommand, if_neg (by simp),
      index_of_lt (by simp), ok_bind, List.getElem_cons_zero]
    cases parsed : CommandOpCode.tryFrom opcode with
    | error e => rfl
    | ok command =>
      dsimp only
      rw [args, ok_bind]
      cases command with
      | openKey =>
        dsimp only
        rw [handleOpen_eq]
        rfl
      | close => rfl
      | readTag =>
        dsimp only
        have opcode_ : opcode = 0x02 := by
          revert parsed
          rw [CommandOpCode.tryFrom]
          split_ifs <;> simp_all
        rw [handleReadTag_eq j]
        · rfl
        · intro connected held asked clear
          cases payload with
          | nil => cases asked
          | cons tagId rest =>
            obtain rfl := Option.some.inj asked
            rw [opcode_] at fits
            exact fits connected held ((JustinStack0100.readsKn_iff _).mpr ⟨rest, rfl⟩) clear
      | writeTag =>
        dsimp only
        rw [handleWriteTag_eq]
        rfl

end Justin

section Stack

variable {S : Type} [MobileKeyStore S] (stack : JustinStack0100 S)

theorem processJustin_eq {payload : List UInt8} {secure : Bool}
    (fits : stack.justin.state = .connected → stack.justin.currentKey.isSome →
      JustinStack0100.readsKn payload → secure = false → Fits stack.justin) :
    processJustin stack payload secure = .ok (stack.processJustin payload secure) := by
  rw [processJustin, JustinStack0100.processJustin,
    processCommand_eq (stack.justin.setSecureSession secure) fits]
  rfl

/-- A packet stops the stack at nothing but a source of random values that is exhausted when a
challenge is asked for, or a counter that is full when one more read of the kN key is refused. -/
theorem handlePacket_eq (aes : BlockCipher) {limit : Nat}
    (left : stack.ssp.state = .ready → stack.ssp.random.next < limit) {packet : List UInt8}
    (fits : stack.refusesKn aes packet → Fits stack.justin) :
    handlePacket aes limit stack packet = .ok (stack.handlePacket aes packet) := by
  match packet with
  | [] | [_] => rfl
  | controlByte :: first :: rest =>
    have body : sliceFrom (controlByte :: first :: rest) 1 = .ok (first :: rest) :=
      sliceFrom_of_le (by simp)
    rw [handlePacket, JustinStack0100.handlePacket, if_neg (by simp), index_of_lt (by simp),
      ok_bind, List.getElem_cons_zero, processPacket_eq aes limit left]
    split
    · rfl
    next data =>
      split
      next encrypted =>
        rw [ok_bind]
        cases opened : stack.ssp.processPacket aes (controlByte :: first :: rest) with
        | mk ssp result =>
          cases result with
          | error e => rfl
          | ok plaintext =>
            dsimp only
            -- a command that came encrypted is never refused the key
            rw [processJustin_eq _ (by simp), ok_bind]
            cases ({ stack with ssp } : JustinStack0100 S).processJustin plaintext true with
            | mk after answer =>
              cases answer with
              | error e => rfl
              | ok responsePayload =>
                dsimp only
                rw [wrapData_eq]
                rfl
      next clear =>
        have data_ : isControl controlByte = false := by simpa using data
        have clear_ : isEncrypted controlByte = false := by simpa using clear
        have command : stack.command aes (controlByte :: first :: rest) =
            some (first :: rest, false) := by simp [JustinStack0100.command, data_, clear_]
        rw [body, ok_bind, processJustin_eq stack]
        · cases stack.processJustin (first :: rest) false with
          | mk after answer =>
            cases answer with
            | error e => rfl
            | ok responsePayload => rfl
        · intro connected held reads _
          obtain ⟨key, held⟩ := Option.isSome_iff_exists.mp held
          obtain ⟨args, same⟩ := (JustinStack0100.readsKn_iff _).mp reads
          apply fits
          rw [JustinStack0100.refusesKn, command]
          dsimp only
          rw [reads, same, JustinStack0100.call_readKn connected held]
          simp

end Stack

end Mkey.Checked
