import Mkey.Core.SspSteps
import Mkey.Lib.Machine

/-!
# The channel of an open session

Sealing moves the sender's IV to the end of the ciphertext, opening moves the
receiver's to the same bytes. Two managers that start in step therefore stay in
step, whoever speaks and however the message is taken.
-/
namespace Mkey.SecureProtocolManager

open Control Machine

/-- The two entry points through which a sealed message can be taken. -/
inductive Entry where
  | unwrapData
  | processPacket
  deriving DecidableEq

structure Message where
  fromLeft : Bool
  payload : List UInt8
  entry : Entry

section Aes

variable (aes : BlockCipher)

def deliver (s : SecureProtocolManager) (entry : Entry) (packet : List UInt8) : Result :=
  match entry with
  | .unwrapData => s.unwrapData aes packet
  | .processPacket => s.processPacket aes packet

/-- One side wraps a payload and the other takes the packet before anything else happens. -/
def transfer (sender receiver : SecureProtocolManager) (payload : List UInt8) (entry : Entry) :
    SecureProtocolManager × Result :=
  match sender.wrapData aes payload with
  | (sender, .error e) => (sender, receiver, .error e)
  | (sender, .ok packet) => (sender, receiver.deliver aes entry packet)

def exchange (sides : SecureProtocolManager × SecureProtocolManager) (message : Message) :
    (SecureProtocolManager × SecureProtocolManager) × Except Error (List UInt8) :=
  if message.fromLeft then
    let (left, right, answer) := transfer aes sides.1 sides.2 message.payload message.entry
    ((left, right), answer)
  else
    let (right, left, answer) := transfer aes sides.2 sides.1 message.payload message.entry
    ((left, right), answer)

/-- Both sides are in a session under one key, at the same point of the IV chain. -/
structure InStep (key : Block) (left right : SecureProtocolManager) : Prop where
  leftState : left.state = .inSession
  rightState : right.state = .inSession
  leftKey : left.sessionKey = some key
  rightKey : right.sessionKey = some key
  iv : left.iv = right.iv

variable {aes} {key : Block} {left right : SecureProtocolManager}

theorem InStep.symm (inStep : InStep key left right) : InStep key right left :=
  ⟨inStep.rightState, inStep.leftState, inStep.rightKey, inStep.leftKey, inStep.iv.symm⟩

theorem currentEncryptionKey_eq {s : SecureProtocolManager} (held : s.sessionKey = some key) :
    s.currentEncryptionKey = key := by
  rw [currentEncryptionKey, held, Option.getD_some]

/-- Two chains that see the same ciphertext meet again. -/
theorem updateIv_iv (s t : SecureProtocolManager) {ciphertext : List UInt8}
    (long : 16 ≤ ciphertext.length) :
    (s.updateIvFromCiphertext ciphertext).iv = (t.updateIvFromCiphertext ciphertext).iv := by
  rw [updateIvFromCiphertext, updateIvFromCiphertext, dif_pos long, dif_pos long]

theorem advance_eq (s : SecureProtocolManager) {body : List UInt8} (aligned : 16 ∣ body.length) :
    s.advance body = s.updateIvFromCiphertext body := by
  rw [advance, if_pos aligned]

/-- A sealed body is opened by whoever holds the key and the IV it was sealed under. -/
theorem deliver_sealed (s : SecureProtocolManager) (inside : s.state = .inSession)
    (payload : List UInt8) (entry : Entry) :
    s.deliver aes entry (0x02 :: sealPayload aes s.currentEncryptionKey s.iv payload) =
      (s.updateIvFromCiphertext (sealPayload aes s.currentEncryptionKey s.iv payload),
        .ok payload) := by
  have opened := decryptPayload_opens aes
    (opens_sealPayload aes s.currentEncryptionKey s.iv payload)
  obtain ⟨long, aligned⟩ := sealPayload_long aes s.currentEncryptionKey s.iv payload
  rw [advance_eq s aligned] at opened
  -- from here on only what the body opens to matters
  generalize sealPayload aes s.currentEncryptionKey s.iv payload = body at opened long
  have encrypted : isEncrypted 0x02 = true := by decide
  have data : isControl 0x02 = false := by decide
  cases entry with
  | unwrapData => simp [deliver, unwrapData, encrypted, opened]
  | processPacket =>
    cases body with
    | nil => simp at long
    | cons b rest =>
      simp [deliver, processPacket, encrypted, data, opened, processDataPacket, inside]

variable (aes)

/-- One message from the left: it arrives as sent, and the two sides are in step again. -/
theorem transfer_inStep (inStep : InStep key left right) (payload : List UInt8) (entry : Entry) :
    (transfer aes left right payload entry).2.2 = .ok payload ∧
      InStep key (transfer aes left right payload entry).1
        (transfer aes left right payload entry).2.1 := by
  -- equal keys and equal IVs: the receiver expects these very bytes
  have sealed_under : sealPayload aes left.currentEncryptionKey left.iv payload =
      sealPayload aes right.currentEncryptionKey right.iv payload := by
    rw [currentEncryptionKey_eq inStep.leftKey, currentEncryptionKey_eq inStep.rightKey, inStep.iv]
  have long := (sealPayload_long aes right.currentEncryptionKey right.iv payload).1
  rw [transfer, wrapData_inSession aes left inStep.leftState, sealed_under]
  dsimp only
  rw [deliver_sealed right inStep.rightState]
  exact ⟨rfl, by simp [inStep.leftState], by simp [inStep.rightState], by simp [inStep.leftKey],
    by simp [inStep.rightKey], updateIv_iv _ _ long⟩

theorem exchange_inStep (inStep : InStep key left right) (message : Message) :
    (exchange aes (left, right) message).2 = .ok message.payload ∧
      InStep key (exchange aes (left, right) message).1.1
        (exchange aes (left, right) message).1.2 := by
  rw [exchange]
  split
  · exact transfer_inStep aes inStep message.payload message.entry
  · obtain ⟨arrived, kept⟩ := transfer_inStep aes inStep.symm message.payload message.entry
    exact ⟨arrived, kept.symm⟩

end Aes

/-- Every message of every conversation arrives as sent, and leaves the two chains equal. -/
theorem secure_channel_lock_step (aes : BlockCipher) (left right : SecureProtocolManager)
    (key : Block) (leftState : left.state = .inSession) (rightState : right.state = .inSession)
    (leftKey : left.sessionKey = some key) (rightKey : right.sessionKey = some key)
    (iv : left.iv = right.iv) (messages : List Message) :
    ∀ x ∈ trace (exchange aes) (left, right) messages,
      x.output = .ok x.input.payload ∧ x.after.1.iv = x.after.2.iv := by
  refine forall_trace (fun sides => InStep key sides.1 sides.2)
    (fun sides message inStep => (exchange_inStep aes inStep message).2) _
    ?_ (left, right)
    ⟨leftState, rightState, leftKey, rightKey, iv⟩ messages
  intro sides message inStep
  obtain ⟨arrived, kept⟩ := exchange_inStep aes inStep message
  exact ⟨arrived, kept.iv⟩

/-- A session under a key of 0x33 bytes, for a manager with some kN of its own. -/
def inSession (knKey : Block) : SecureProtocolManager :=
  { withRandom knKey ⟨fun _ => Block.replicate 0, 0⟩ with
    state := .inSession, sessionKey := some (Block.replicate 0x33) }

/-- Three messages, each ending in what the padding could be taken for. -/
def paddingMessages : List Message :=
  [⟨true, [], .unwrapData⟩, ⟨false, [0x80, 0x00], .processPacket⟩,
    ⟨true, List.replicate 14 0x80, .processPacket⟩]

theorem secure_channel_lock_step_paddings :
    paddingMessages.length = 3 ∧ ∀ x ∈ trace (exchange aes128)
        (inSession (Block.replicate 1), inSession (Block.replicate 2)) paddingMessages,
      x.output = .ok x.input.payload ∧ x.after.1.iv = x.after.2.iv :=
  ⟨rfl, secure_channel_lock_step aes128 (inSession (Block.replicate 1))
    (inSession (Block.replicate 2)) (Block.replicate 0x33) rfl rfl rfl rfl rfl paddingMessages⟩

end Mkey.SecureProtocolManager
