import Mkey.Core.SspSteps
import Mkey.Lib.Machine

/-!
# Who can replace the session key

Outside a session there is no session key, inside there always is one. Over
any run the key of a session is then replaced by the SetKeyValue command only,
and that command does not ask whether it came encrypted.
-/
namespace Mkey.SecureProtocolManager

open Control Machine

/-- A session key is held exactly inside a session. -/
def Keyed (s : SecureProtocolManager) : Prop := s.state = .inSession ↔ s.sessionKey.isSome

theorem keyed_withRandom (knKey : Block) (random : RandomSource) :
    Keyed (withRandom knKey random) := by
  simp [Keyed, withRandom]

theorem Keyed.key {s : SecureProtocolManager} (keyed : Keyed s) (inside : s.state = .inSession) :
    ∃ key, s.sessionKey = some key := Option.isSome_iff_exists.mp (keyed.mp inside)

theorem Keyed.noKey {s : SecureProtocolManager} (keyed : Keyed s) (outside : s.state ≠ .inSession) :
    s.sessionKey = none := by
  rw [Keyed] at keyed
  simpa [outside] using keyed

/-- Outside a session the key in force is kN. -/
theorem Keyed.currentEncryptionKey {s : SecureProtocolManager} (keyed : Keyed s)
    (outside : s.state ≠ .inSession) : s.currentEncryptionKey = s.knKey := by
  rw [SecureProtocolManager.currentEncryptionKey, keyed.noKey outside, Option.getD_none]

/-- The invariant reads two fields, so whatever keeps them keeps it. -/
theorem Keyed.of_eq {s t : SecureProtocolManager} (keyed : Keyed s) (state : t.state = s.state)
    (key : t.sessionKey = s.sessionKey) : Keyed t := by
  rw [Keyed, state, key]
  exact keyed

variable (aes : BlockCipher)

theorem Keyed.processPacket {s : SecureProtocolManager} (keyed : Keyed s) (packet : List UInt8) :
    Keyed (s.processPacket aes packet).1 := by
  have step := processPacket_step aes s packet
  generalize s.processPacket aes packet = result at step
  cases step with
  | rejected => exact keyed.of_eq (by simp) (by simp)
  -- both steps outside a session leave it without a key
  | mismatch _ _ _ waiting =>
    have noKey := keyed.noKey (by simp [waiting])
    simp [Keyed, noKey]
  | challenged _ _ ready =>
    have noKey := keyed.noKey (by simp [ready])
    simp [Keyed, afterChallenge, noKey]
  | authenticated => simp [Keyed, afterProof]
  | rekeyed _ _ inside => simp [Keyed, afterRekey, inside]
  | version => exact keyed.of_eq (by simp) (by simp)
  | data => exact keyed.of_eq (by simp) (by simp)

theorem Keyed.advance {s : SecureProtocolManager} (keyed : Keyed s) (body : List UInt8) :
    Keyed (s.advance body) := by
  rw [SecureProtocolManager.advance]
  split
  · exact keyed.of_eq (by simp) (by simp)
  · exact keyed

theorem Keyed.wrapData {s : SecureProtocolManager} (keyed : Keyed s) (data : List UInt8) :
    Keyed (s.wrapData aes data).1 := by
  rw [SecureProtocolManager.wrapData]
  split
  · exact keyed
  · exact keyed.of_eq (by simp [encryptPayload_eq]) (by simp [encryptPayload_eq])

theorem Keyed.unwrapData {s : SecureProtocolManager} (keyed : Keyed s) (packet : List UInt8) :
    Keyed (s.unwrapData aes packet).1 := by
  cases packet with
  | nil => exact keyed
  | cons c body =>
    rw [unwrapData_fst]
    split
    · exact keyed.advance body
    · exact keyed

/-! ### Runs -/

/-- The calls through which a manager's state moves. -/
inductive Call where
  | processPacket (packet : List UInt8)
  | wrapData (data : List UInt8)
  | unwrapData (packet : List UInt8)

def answer (s : SecureProtocolManager) : Call → Result
  | .processPacket packet => s.processPacket aes packet
  | .wrapData data => s.wrapData aes data
  | .unwrapData packet => s.unwrapData aes packet

/-- The state of a fresh manager after some calls. -/
def afterCalls (knKey : Block) (random : RandomSource) (calls : List Call) :
    SecureProtocolManager :=
  run (answer aes) (withRandom knKey random) calls

theorem keyed_afterCalls (knKey : Block) (random : RandomSource) (calls : List Call) :
    Keyed (afterCalls aes knKey random calls) := by
  refine run_invariant Keyed ?_ _ (keyed_withRandom knKey random) calls
  intro s call keyed
  cases call with
  | processPacket packet => exact keyed.processPacket aes packet
  | wrapData data => exact keyed.wrapData aes data
  | unwrapData packet => exact keyed.unwrapData aes packet

/-- A packet that replaces the key of a session was encrypted, and its body passes
`decryptPayload` under the key it replaces. -/
def KeyIntegrity (s : SecureProtocolManager) (packet : List UInt8) : Prop :=
  s.state = .inSession → (s.processPacket aes packet).1.sessionKey ≠ s.sessionKey →
    ∃ c body data, packet = c :: body ∧ isEncrypted c ∧
      s.sessionKey = some s.currentEncryptionKey ∧
      (s.decryptPayload aes body).2 = .ok data

/-- A SetKeyValue command in the clear, met in a session, with a key that is not in force. -/
def PlaintextRekey (s : SecureProtocolManager) (packet : List UInt8) : Prop :=
  s.state = .inSession ∧ ∃ (c x : UInt8) (key : Block) (rest : List UInt8),
    packet = c :: 0x03 :: x :: (key.toList ++ rest) ∧ isControl c ∧ isEncrypted c = false ∧
      s.sessionKey ≠ some key

theorem session_key_integrity_iff (knKey : Block) (random : RandomSource) (calls : List Call)
    (packet : List UInt8) :
    KeyIntegrity aes (afterCalls aes knKey random calls) packet ↔
      ¬PlaintextRekey (afterCalls aes knKey random calls) packet := by
  have keyed := keyed_afterCalls aes knKey random calls
  generalize afterCalls aes knKey random calls = s at keyed
  constructor
  · rintro integrity ⟨inside, c, x, key, rest, rfl, control, plain, other⟩
    have carries : s.Carries aes c (0x03 :: x :: (key.toList ++ rest))
        (0x03 :: x :: (key.toList ++ rest)) := carries_of_plain plain
    have obeyed := processPacket_rekeyed aes control carries inside
    obtain ⟨_, _, _, same, encrypted, _⟩ := integrity inside (by
      rw [obeyed]
      simpa [afterRekey] using other.symm)
    rw [← (List.cons.inj same).1, plain] at encrypted
    exact Bool.false_ne_true encrypted
  · intro guarded inside changed
    obtain ⟨key, held⟩ := keyed.key inside
    have inForce : s.sessionKey = some s.currentEncryptionKey := by
      rw [currentEncryptionKey, held, Option.getD_some]
    have step := processPacket_step aes s packet
    generalize s.processPacket aes packet = result at step changed
    cases step with
    | rejected => exact absurd (received_sessionKey s packet) changed
    -- inside a session only two steps put a key in force, and one of them needs another state
    | mismatch _ _ _ waiting => simp [waiting] at inside
    | challenged _ _ ready => simp [ready] at inside
    | authenticated _ _ _ waiting => simp [waiting] at inside
    | @rekeyed c x body rest key control carries _ =>
      cases encrypted : isEncrypted c with
      -- encrypted: the body opened under the key that is being replaced
      | true =>
        exact ⟨c, body, _, rfl, encrypted, inForce,
          congrArg Prod.snd (decryptPayload_opens aes (carries.opens encrypted))⟩
      -- in the clear: the body is the command itself, as the peer wrote it
      | false =>
        refine absurd
          ⟨inside, c, x, key, rest, by rw [carries.eq encrypted], control, encrypted, ?_⟩ guarded
        simpa [afterRekey] using changed.symm
    | version => exact absurd (received_sessionKey s _) changed
    | data => exact absurd (received_sessionKey s _) changed

/-- A manager whose kN is all 0x11, once a peer has answered its challenge of 0x22 bytes. -/
def openedSession : SecureProtocolManager :=
  afterCalls aes128 (Block.replicate 0x11) ⟨fun _ => Block.replicate 0x22, 0⟩
    [.processPacket [0x01, 0x01],
     .processPacket [
      0x03, 0x7B, 0xFF, 0xDD, 0x97, 0x3E, 0xC6, 0xD2, 0x52, 0xD3, 0x45, 0x27, 0xA1,
      0x3F, 0x14, 0x87, 0x06, 0xC2, 0x44, 0x18, 0xC3, 0x2C, 0x7E, 0xCA, 0xEE, 0x41,
      0x04, 0xDA, 0x4E, 0xC2, 0xF9, 0x1F, 0x26, 0xD8, 0xD0, 0x73, 0x50, 0x00, 0x83,
      0x3C, 0x71, 0x13, 0xD8, 0x98, 0x48, 0xD3, 0x38, 0x32, 0x04]]

/-- Nineteen bytes in the clear put a key of the sender's choice in force. -/
theorem plaintext_rekey_obeyed :
    ¬KeyIntegrity aes128 openedSession (0x01 :: 0x03 :: 0x00 :: List.replicate 16 0x44) := by
  intro integrity
  obtain ⟨c, body, data, same, encrypted, _⟩ := integrity (by decide +kernel) (by decide +kernel)
  rw [← (List.cons.inj same).1] at encrypted
  exact absurd encrypted (by decide)

end Mkey.SecureProtocolManager
