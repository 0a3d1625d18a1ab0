import Mkey.Core.StackSteps

/-!
# Rejected packets

The error exits of the stack lie at many depths, some behind a state that has
moved. What a packet that fails may leave behind is the step of the IV, and the
way back from a failed authentication.
-/
namespace Mkey

namespace SecureProtocolManager

open Control

variable (aes : BlockCipher) (s : SecureProtocolManager)

/-- What a failed packet may leave: the secrets as they were, the state too unless the
authentication failed, and the IV at most at the end of the packet. -/
structure Rejected (packet : List UInt8) (e : Error) (after : SecureProtocolManager) : Prop where
  sessionKey : after.sessionKey = s.sessionKey
  randomA : after.randomA = s.randomA
  randomB : after.randomB = s.randomB
  knKey : after.knKey = s.knKey
  state : if e = .authenticationFailed then s.state = .authStep1 ∧ after.state = .ready
    else after.state = s.state
  iv : after.iv = s.iv ∨
    16 < packet.length ∧ after.iv.toList = packet.drop (packet.length - 16)

theorem Rejected.unread (packet : List UInt8) {e : Error} (other : e ≠ .authenticationFailed) :
    s.Rejected packet e s :=
  ⟨rfl, rfl, rfl, rfl, by rw [if_neg other], .inl rfl⟩

theorem Rejected.received (packet : List UInt8) {e : Error} (other : e ≠ .authenticationFailed) :
    s.Rejected packet e (s.received packet) :=
  ⟨by simp, by simp, by simp, by simp, by rw [if_neg other, received_state],
    s.received_iv_cases packet⟩

theorem processPacket_rejected {packet : List UInt8} {e : Error}
    (failed : (s.processPacket aes packet).2 = .error e) :
    s.Rejected packet e (s.processPacket aes packet).1 := by
  have step := processPacket_step aes s packet
  generalize s.processPacket aes packet = result at step failed
  cases step with
  | rejected other =>
    obtain rfl := Except.error.inj failed
    exact .received s packet other
  | mismatch _ _ _ waiting =>
    -- the one failure that is told apart by the state it leaves
    obtain rfl := Except.error.inj failed
    exact ⟨by simp, by simp, by simp, by simp, by rw [if_pos rfl]; exact ⟨waiting, rfl⟩,
      s.received_iv_cases _⟩
  | challenged | authenticated | rekeyed | version | data => cases failed

/-- An encrypted command that was decrypted finds the session open, so its answer is wrapped. -/
theorem wrapData_answers {controlByte : UInt8} {body plaintext : List UInt8}
    (data : isControl controlByte = false) (encrypted : isEncrypted controlByte)
    (taken : (s.processPacket aes (controlByte :: body)).2 = .ok plaintext)
    (response : List UInt8) :
    ((s.processPacket aes (controlByte :: body)).1.wrapData aes response).2.isOk := by
  rcases JustinStack0100.processPacket_encryptedData aes s body data encrypted with
    ⟨e, failed⟩ | ⟨payload, opened, _, inside⟩
  · rw [failed] at taken
    cases taken
  · have still : (s.received (controlByte :: body)).state = .inSession := by
      rw [received_state, inside]
    rw [opened, wrapData_inSession aes _ still]
    rfl

end SecureProtocolManager

namespace JustinStack0100

open Control SecureProtocolManager

variable {S : Type} [MobileKeyStore S] (aes : BlockCipher) (stack : JustinStack0100 S)

/-- A command that is not answered leaves the command layer as it was. -/
theorem call_failed {j : JustinProtocolManager S} {payload : List UInt8} {secure : Bool} {e : Error}
    (failed : (j.call payload secure).2 = .error e) :
    (j.call payload secure).1 = j ∧ e ≠ .authenticationFailed := by
  constructor
  · have step := j.call_step secure payload
    generalize j.call payload secure = result at step failed
    cases step with
    | failed => rfl
    | answered | refused | opened | closed | wrote => cases failed
  · cases payload with
    | nil =>
      rw [← Except.error.inj failed]
      simp
    | cons opcode args =>
      unfold JustinProtocolManager.call JustinProtocolManager.processCommand
        CommandOpCode.tryFrom at failed
      dsimp only at failed
      -- only an unknown opcode is an error, every handler answers
      split_ifs at failed
      all_goals cases failed
      simp

theorem handlePacket_rejected {packet : List UInt8} {e : Error}
    (failed : (stack.handlePacket aes packet).2 = .error e) :
    (stack.handlePacket aes packet).1.justin = stack.justin ∧
      stack.ssp.Rejected packet e (stack.handlePacket aes packet).1.ssp := by
  unfold handlePacket at failed ⊢
  split at failed
  · obtain rfl := Except.error.inj failed
    exact ⟨rfl, .unread _ _ (by simp)⟩
  · obtain rfl := Except.error.inj failed
    exact ⟨rfl, .unread _ _ (by simp)⟩
  next controlByte first rest =>
    dsimp only
    split at failed
    next control =>
      rw [if_pos control]
      exact ⟨rfl, processPacket_rejected aes stack.ssp failed⟩
    next data =>
      rw [if_neg data]
      split at failed
      next encrypted =>
        rw [if_pos encrypted]
        rcases processPacket_encryptedData aes stack.ssp (first :: rest) (by simpa using data)
          encrypted with ⟨e', refused⟩ | ⟨payload, opened, _, inside⟩
        · have rejected := processPacket_rejected aes stack.ssp (congrArg Prod.snd refused)
          rw [refused] at failed rejected ⊢
          obtain rfl := Except.error.inj failed
          exact ⟨rfl, rejected⟩
        · have still : (stack.ssp.received (controlByte :: first :: rest)).state = .inSession := by
            rw [received_state, inside]
          rw [opened] at failed ⊢
          simp only [processJustin_eq] at failed ⊢
          cases answer : stack.justin.call payload true with
          | mk justin res =>
            rw [answer] at failed
            -- past the command layer nothing fails any more
            cases res with
            | ok reply =>
              dsimp only at failed
              rw [wrapData_inSession aes _ still] at failed
              cases failed
            | error e' =>
              obtain rfl := Except.error.inj failed
              obtain ⟨same, other⟩ := call_failed (congrArg Prod.snd answer)
              rw [answer] at same
              exact ⟨same, .received _ _ other⟩
      next clear =>
        rw [if_neg clear]
        simp only [processJustin_eq] at failed ⊢
        cases answer : stack.justin.call (first :: rest) false with
        | mk justin res =>
          rw [answer] at failed
          cases res with
          | ok reply => cases failed
          | error e' =>
            obtain rfl := Except.error.inj failed
            obtain ⟨same, other⟩ := call_failed (congrArg Prod.snd answer)
            rw [answer] at same
            exact ⟨same, .unread _ _ other⟩

/-- A packet that fails changes nothing it should not, at whatever depth it fails. And behind an
encrypted command no failure is left: the answer to it is wrapped, so no command takes effect
without its reply. -/
theorem rejection_changes_nothing (packet : List UInt8) :
    (∀ e, (stack.handlePacket aes packet).2 = .error e →
      (stack.handlePacket aes packet).1.justin = stack.justin ∧
      stack.ssp.Rejected packet e (stack.handlePacket aes packet).1.ssp) ∧
    (∀ controlByte body plaintext, packet = controlByte :: body → isControl controlByte = false →
      isEncrypted controlByte → (stack.ssp.processPacket aes packet).2 = .ok plaintext →
      ∀ response,
        ((stack.ssp.processPacket aes packet).1.wrapData aes response).2.isOk) ∧
    (∀ reply, stack.answered aes packet = some (.ok reply) →
      (stack.handlePacket aes packet).2.isOk ∧
        (stack.handlePacket aes packet).2 = .ok (stack.replyTo aes packet reply)) := by
  refine ⟨fun e failed => handlePacket_rejected aes stack failed, ?_, fun reply answer =>
    ⟨handlePacket_isOk aes stack answer, handlePacket_answered aes stack answer⟩⟩
  rintro controlByte body plaintext rfl data encrypted taken response
  exact wrapData_answers aes stack.ssp data encrypted taken response

end JustinStack0100

end Mkey
