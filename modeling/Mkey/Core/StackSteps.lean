import Mkey.Core.SspSteps
import Mkey.Core.Stack

/-!
# What one packet can do to the stack

`call_step` lists the ways a command can be answered, `handlePacket_step` the
routes a packet can take to it. Run invariants are proved from these two.
-/
namespace Mkey

theorem isLegacyTag_false {id : UInt8} : isLegacyTag id = false ↔ 0x02 < id := by
  rw [isLegacyTag, decide_eq_false_iff_not, UInt8.not_le]

namespace JustinProtocolManager

variable {S : Type}

/-- The right to overwrite a tag, for a command that came encrypted or in the clear. -/
def MayWrite (secure : Bool) (id : UInt8) (permissions : Permissions) : Prop :=
  id = tagAudit ∨ permissions.contains .writable ∧
    (secure ∨ permissions.contains .writeWithoutSecurity)

theorem canWriteTag_iff (j : JustinProtocolManager S) {id : UInt8} (above : 0x02 < id)
    (permissions : Permissions) :
    j.canWriteTag id permissions ↔ MayWrite j.secureSession id permissions := by
  unfold canWriteTag MayWrite
  rw [if_neg (by rw [isLegacyTag_false.mpr above]; exact Bool.false_ne_true)]
  split_ifs with audit sealed_tag secure
  · simpa using Or.inl (beq_iff_eq.mp audit)
  · simp_all
  · simp_all
  · simp_all

/-- The state after a write that was carried out. -/
def wrote (j : JustinProtocolManager S) (key : MobileKey) (id first : UInt8) (more : List UInt8) :
    JustinProtocolManager S :=
  { j with
    currentKey := some (key.setTagData id (first :: more))
    lastAuditOpResult := if id = tagAudit then some first else j.lastAuditOpResult }

section Call

variable [MobileKeyStore S]

/-- A command run with the secure flag raised or lowered around it. -/
def call (j : JustinProtocolManager S) (payload : List UInt8) (secure : Bool) :
    JustinProtocolManager S × Except Error (List UInt8) :=
  let (after, res) := (j.setSecureSession secure).processCommand payload
  (after.setSecureSession j.secureSession, res)

/-- The ways a command can be answered, each with its guard and the state it leaves. -/
inductive JustinStep (j : JustinProtocolManager S) (secure : Bool) :
    List UInt8 → JustinProtocolManager S × Except Error (List UInt8) → Prop
  | failed {payload : List UInt8} {e : Error} : JustinStep j secure payload (j, .error e)
  | answered {payload reply : List UInt8} :
      (payload.head? = some 0x03 → reply ≠ [CommandStatus.success.toByte]) →
      JustinStep j secure payload (j, .ok reply)
  | refused {args : List UInt8} : secure = false →
      JustinStep j secure (0x02 :: tagKnKey :: args)
        ({ j with knReadRefusals := j.knReadRefusals + 1 }, .ok [CommandStatus.genericError.toByte])
  | opened {args : List UInt8} {key : MobileKey} : j.state = .ready →
      MobileKeyStore.getKey j.keyStore (computeKeyIdentifier (args.take 8)) = some key →
      JustinStep j secure (0x00 :: args)
        ({ j with currentKey := some key, state := .connected }, .ok [CommandStatus.success.toByte])
  | closed {args : List UInt8} : j.state = .connected →
      JustinStep j secure (0x01 :: args)
        ({ j with state := .ready }, .ok [CommandStatus.success.toByte])
  | wrote {id first : UInt8} {more : List UInt8} {key : MobileKey} {tag : GeneralPurposeTag} :
      j.state = .connected → j.currentKey = some key → 0x02 < id → key.tags id = some tag →
      MayWrite secure id tag.permissions →
      JustinStep j secure (0x03 :: id :: first :: more)
        (j.wrote key id first more, .ok [CommandStatus.success.toByte])

/-- What a handler leaves, once the caller's secure flag is back. -/
private def settle (j : JustinProtocolManager S) (answer : Answer S) :
    JustinProtocolManager S × Except Error (List UInt8) :=
  (answer.1.setSecureSession j.secureSession, .ok answer.2)

variable (j : JustinProtocolManager S) (secure : Bool)

omit [MobileKeyStore S] in
private theorem settle_same (reply : List UInt8) :
    settle j (j.setSecureSession secure, reply) = (j, .ok reply) := rfl

private theorem handleOpen_step (args : List UInt8) :
    JustinStep j secure (0x00 :: args)
      (settle j ((j.setSecureSession secure).handleOpen args)) := by
  rw [handleOpen]
  split_ifs with connected short
  · exact .answered (by simp)
  · exact .answered (by simp)
  · have waiting : j.state = .ready := by
      cases state : j.state with
      | ready => rfl
      | connected => exact absurd state connected
    dsimp only
    -- the store decides whether there is such a key
    split
    next key found => exact .opened waiting found
    next => exact .answered (by simp)

private theorem handleClose_step (args : List UInt8) :
    JustinStep j secure (0x01 :: args)
      (settle j ((j.setSecureSession secure).handleClose args)) := by
  rw [handleClose]
  split_ifs with away
  · exact .answered (by simp)
  · exact .closed (not_not.mp away)

private theorem handleReadTag_step (args : List UInt8) :
    JustinStep j secure (0x02 :: args)
      (settle j ((j.setSecureSession secure).handleReadTag args)) := by
  have unchanged (reply : List UInt8) :
      JustinStep j secure (0x02 :: args) (settle j (j.setSecureSession secure, reply)) := by
    rw [settle_same]
    exact .answered (by simp)
  unfold handleReadTag
  split
  · exact unchanged _
  split
  · exact unchanged _
  split
  · exact unchanged _
  split
  · exact unchanged _
  -- past the checks, kN is refused and counted; any other answer leaves the manager alone
  split_ifs with refused
  · obtain ⟨rfl, clear⟩ := Bool.and_eq_true_iff.mp refused |>.imp_left beq_iff_eq.mp
    exact .refused (by simpa [setSecureSession] using clear)
  all_goals exact unchanged _

private theorem handleWriteTag_step (args : List UInt8) :
    JustinStep j secure (0x03 :: args)
      (settle j ((j.setSecureSession secure).handleWriteTag args)) := by
  have unchanged (reply : List UInt8) (bad : reply ≠ [CommandStatus.success.toByte]) :
      JustinStep j secure (0x03 :: args) (settle j (j.setSecureSession secure, reply)) := by
    rw [settle_same]
    exact .answered fun _ => bad
  unfold handleWriteTag
  split
  · exact unchanged _ (by decide)
  next here =>
    split
    · exact unchanged _ (by decide)
    · exact unchanged _ (by decide)
    next id first more =>
      dsimp only
      split
      · exact unchanged _ (by decide)
      next modern =>
        have above : 0x02 < id := isLegacyTag_false.mp (by simpa using modern)
        split
        · exact unchanged _ (by decide)
        next key held =>
          split
          · exact unchanged _ (by decide)
          next data found =>
            -- above the legacy ids the tag that is looked up is the one the map holds
            rw [MobileKey.getTag_map key above, Option.map_eq_some_iff] at found
            obtain ⟨tag, present, rfl⟩ := found
            split
            · split
              · exact unchanged _ (by decide)
              · exact unchanged _ (by decide)
            next allowed =>
              have may := (canWriteTag_iff _ above _).mp (by simpa using allowed)
              -- audit tag or not, what is left is `wrote`
              have left_as : settle j (if id == tagAudit then
                    { j.setSecureSession secure with
                      currentKey := some (key.setTagData id (first :: more)),
                      lastAuditOpResult := some first }
                  else { j.setSecureSession secure with
                    currentKey := some (key.setTagData id (first :: more)) },
                  [CommandStatus.success.toByte]) =
                  (j.wrote key id first more, .ok [CommandStatus.success.toByte]) := by
                simp only [settle, JustinProtocolManager.wrote, beq_iff_eq]
                split <;> rfl
              rw [left_as]
              exact .wrote (not_not.mp here) held above present may

theorem call_step (payload : List UInt8) : JustinStep j secure payload (j.call payload secure) := by
  cases payload with
  | nil => exact .failed
  | cons opcode args =>
    unfold call processCommand CommandOpCode.tryFrom
    dsimp only
    split_ifs with h0 h1 h2 h3
    · subst h0
      exact handleOpen_step j secure args
    · subst h1
      exact handleClose_step j secure args
    · subst h2
      exact handleReadTag_step j secure args
    · subst h3
      exact handleWriteTag_step j secure args
    · exact .failed

end Call

end JustinProtocolManager

namespace JustinStack0100

open Control SecureProtocolManager

variable {S : Type} [MobileKeyStore S] (aes : BlockCipher) (stack : JustinStack0100 S)

theorem processJustin_eq (payload : List UInt8) (secure : Bool) :
    stack.processJustin payload secure =
      ({ stack with justin := (stack.justin.call payload secure).1 },
        (stack.justin.call payload secure).2) := rfl

/-- The command a packet brings to the command layer, and whether it came encrypted. -/
def command (packet : List UInt8) : Option (List UInt8 × Bool) :=
  match packet with
  | [] | [_] => none
  | c :: first :: rest =>
    if isControl c then none
    else if isEncrypted c then
      match (stack.ssp.processPacket aes packet).2 with
      | .error _ => none
      | .ok plaintext => some (plaintext, true)
    else some (first :: rest, false)

/-- An answer to an encrypted command goes back sealed; a failed one is not answered. -/
def sealAnswer (ssp : SecureProtocolManager)
    (answer : JustinProtocolManager S × Except Error (List UInt8)) :
    JustinStack0100 S × Except Error (List UInt8) :=
  match answer with
  | (justin, .error e) => (⟨ssp, justin⟩, .error e)
  | (justin, .ok reply) =>
      (⟨ssp.updateIvFromCiphertext (sealPayload aes ssp.currentEncryptionKey ssp.iv reply), justin⟩,
        .ok (0x02 :: sealPayload aes ssp.currentEncryptionKey ssp.iv reply))

/-- The routes a packet can take, each with the command it carries and the state it leaves. -/
inductive StackStep : List UInt8 → JustinStack0100 S × Except Error (List UInt8) → Prop
  | short {packet : List UInt8} {e : Error} :
      stack.command aes packet = none → StackStep packet (stack, .error e)
  | control {c : UInt8} {body : List UInt8} : isControl c →
      stack.command aes (c :: body) = none →
      StackStep (c :: body) ({ stack with ssp := (stack.ssp.processPacket aes (c :: body)).1 },
        (stack.ssp.processPacket aes (c :: body)).2)
  | undeciphered {c : UInt8} {body : List UInt8} {e : Error} :
      isControl c = false → isEncrypted c →
      stack.command aes (c :: body) = none →
      StackStep (c :: body) ({ stack with ssp := stack.ssp.received (c :: body) }, .error e)
  | clear {c first : UInt8} {rest : List UInt8} : isControl c = false → isEncrypted c = false →
      stack.command aes (c :: first :: rest) = some (first :: rest, false) →
      StackStep (c :: first :: rest)
        ({ stack with justin := (stack.justin.call (first :: rest) false).1 },
          (stack.justin.call (first :: rest) false).2.map (c :: ·))
  | enciphered {c : UInt8} {body payload : List UInt8} : isControl c = false → isEncrypted c →
      Opens aes stack.ssp.currentEncryptionKey stack.ssp.iv body payload →
      stack.ssp.state = .inSession →
      stack.command aes (c :: body) = some (payload, true) →
      StackStep (c :: body)
        (sealAnswer aes (stack.ssp.received (c :: body)) (stack.justin.call payload true))

/-- An encrypted data packet is taken in a session, or it changes the IV at most. -/
theorem processPacket_encryptedData (s : SecureProtocolManager) {c : UInt8} (body : List UInt8)
    (data : isControl c = false) (encrypted : isEncrypted c) :
    (∃ e, s.processPacket aes (c :: body) = (s.received (c :: body), .error e)) ∨
    (∃ payload, s.processPacket aes (c :: body) = (s.received (c :: body), .ok payload) ∧
      Opens aes s.currentEncryptionKey s.iv body payload ∧ s.state = .inSession) := by
  cases result : s.processPacket aes (c :: body) with
  | mk after answer =>
    have step := processPacket_step aes s (c :: body)
    rw [result] at step
    cases step with
    | rejected => exact .inl ⟨_, rfl⟩
    | data _ carries _ inside =>
      exact .inr ⟨_, rfl, carries.opens encrypted, inside⟩
    | mismatch control | challenged control | authenticated control | rekeyed control
    | version control => simp [data] at control

theorem handlePacket_step (packet : List UInt8) :
    StackStep aes stack packet (stack.handlePacket aes packet) := by
  unfold handlePacket
  split
  · exact .short rfl
  · exact .short rfl
  next c first rest =>
    split
    next control => exact .control control (by simp [command, control])
    next data =>
      have data : isControl c = false := by simpa using data
      split
      next encrypted =>
        rcases processPacket_encryptedData aes stack.ssp (first :: rest) data encrypted with
          ⟨e, failed⟩ | ⟨payload, taken, opens, inside⟩
        · rw [failed]
          exact .undeciphered data encrypted (by simp [command, data, encrypted, failed])
        · have carried : stack.command aes (c :: first :: rest) = some (payload, true) := by
            simp [command, data, encrypted, taken]
          have step := StackStep.enciphered data encrypted opens inside carried
          rw [taken]
          simp only [processJustin_eq]
          -- a plaintext came out, so the session is still open and the answer can be wrapped
          unfold sealAnswer at step
          revert step
          rcases stack.justin.call payload true with ⟨justin, e | reply⟩
          · exact id
          · have still : (stack.ssp.received (c :: first :: rest)).state = .inSession := by
              rw [received_state, inside]
            simp only [wrapData_inSession aes _ still]
            exact id
      next clear =>
        have clear : isEncrypted c = false := by simpa using clear
        have carried : stack.command aes (c :: first :: rest) = some (first :: rest, false) := by
          simp [command, data, clear]
        have step := StackStep.clear data clear carried
        rw [processJustin_eq]
        revert step
        rcases stack.justin.call (first :: rest) false with ⟨justin, e | reply⟩ <;> exact id

/-- The command layer moves by the command of the packet alone. -/
theorem handlePacket_justin (packet : List UInt8) :
    (stack.handlePacket aes packet).1.justin =
      match stack.command aes packet with
      | none => stack.justin
      | some (payload, secure) => (stack.justin.call payload secure).1 := by
  have step := handlePacket_step aes stack packet
  generalize stack.handlePacket aes packet = result at step
  cases step with
  | short nothing | control _ nothing | undeciphered _ _ nothing => rw [nothing]
  | clear _ _ carried => rw [carried]
  | enciphered _ _ _ _ carried =>
    rw [carried]
    dsimp only
    rcases stack.justin.call _ true with ⟨justin, e | reply⟩ <;> rfl

/-- What the command layer answers to the command of a packet, when there is one. -/
def answered (packet : List UInt8) : Option (Except Error (List UInt8)) :=
  (stack.command aes packet).map fun (payload, secure) => (stack.justin.call payload secure).2

/-- What an answer of the command layer goes out as: behind the control byte of a clear packet, and
sealed after an encrypted one. -/
def replyTo (packet answer : List UInt8) : List UInt8 :=
  let ssp := stack.ssp.received packet
  match packet with
  | [] => answer
  | c :: _ =>
    if isEncrypted c then 0x02 :: sealPayload aes ssp.currentEncryptionKey ssp.iv answer
    else c :: answer

/-- What the command layer answers is what the peer is replied, and its failures are failures of
the stack. -/
theorem handlePacket_answered {packet : List UInt8} {answer : Except Error (List UInt8)}
    (given : stack.answered aes packet = some answer) :
    (stack.handlePacket aes packet).2 = answer.map (stack.replyTo aes packet) := by
  rw [answered] at given
  have step := handlePacket_step aes stack packet
  generalize stack.handlePacket aes packet = result at step
  cases step with
  | short nothing | control _ nothing | undeciphered _ _ nothing => simp [nothing] at given
  | @clear c first rest _ clear carried =>
    rw [carried, Option.map_some, Option.some.injEq] at given
    subst given
    have reply : stack.replyTo aes (c :: first :: rest) = (c :: ·) := by
      funext answer
      rw [replyTo, if_neg (by simp [clear])]
    rw [reply]
  | @enciphered c body payload _ encrypted _ _ carried =>
    rw [carried, Option.map_some, Option.some.injEq] at given
    dsimp only at given
    generalize stack.justin.call payload true = result at given
    obtain ⟨justin, e | answer⟩ := result
    · subst given
      rfl
    · subst given
      rw [Except.map, replyTo, if_pos encrypted, sealAnswer]

/-- What the command layer answers always reaches the peer. -/
theorem handlePacket_isOk {packet reply : List UInt8}
    (answer : stack.answered aes packet = some (.ok reply)) :
    (stack.handlePacket aes packet).2.isOk = true := by
  rw [handlePacket_answered aes stack answer]
  rfl

/-- A command counts as secure only inside a session. -/
theorem command_secure {packet payload : List UInt8}
    (secure : stack.command aes packet = some (payload, true)) : stack.ssp.state = .inSession := by
  have step := handlePacket_step aes stack packet
  generalize stack.handlePacket aes packet = result at step
  cases step with
  | short nothing | control _ nothing | undeciphered _ _ nothing => simp [nothing] at secure
  | clear _ _ carried => simp [carried] at secure
  | enciphered _ _ _ inside => exact inside

/-- A secure command is carried out by the command layer, and what it answers goes back sealed. -/
theorem handlePacket_secure {packet payload : List UInt8}
    (secure : stack.command aes packet = some (payload, true)) :
    stack.handlePacket aes packet =
      sealAnswer aes (stack.ssp.received packet) (stack.justin.call payload true) := by
  have step := handlePacket_step aes stack packet
  generalize stack.handlePacket aes packet = result at step
  cases step with
  | short nothing | control _ nothing | undeciphered _ _ nothing => simp [nothing] at secure
  | clear _ _ carried => simp [carried] at secure
  | enciphered _ _ _ _ carried =>
    rw [secure, Option.some.injEq] at carried
    rw [(Prod.mk.inj carried).1]

/-- A packet that brings the command to close. -/
def Closes (packet : List UInt8) : Prop :=
  ∃ args secure, stack.command aes packet = some (0x01 :: args, secure)

theorem call_close {j : JustinProtocolManager S} (connected : j.state = .connected)
    (args : List UInt8) (secure : Bool) :
    j.call (0x01 :: args) secure =
      ({ j with state := .ready }, .ok [CommandStatus.success.toByte]) := by
  simp [JustinProtocolManager.call, JustinProtocolManager.processCommand, CommandOpCode.tryFrom,
    JustinProtocolManager.handleClose, JustinProtocolManager.setSecureSession, connected]

/-- A selected key is let go of by the command to close, and by nothing else. -/
theorem handlePacket_ready_iff (connected : stack.justin.state = .connected) (packet : List UInt8) :
    (stack.handlePacket aes packet).1.justin.state = .ready ↔ stack.Closes aes packet := by
  rw [handlePacket_justin]
  constructor
  · intro ready
    cases carried : stack.command aes packet with
    | none => simp [carried, connected] at ready
    | some command =>
      obtain ⟨payload, secure⟩ := command
      rw [carried] at ready
      dsimp only at ready
      have step := stack.justin.call_step secure payload
      generalize stack.justin.call payload secure = result at step ready
      cases step with
      | closed => exact ⟨_, _, carried⟩
      | failed | answered | refused | wrote =>
        simp [connected, JustinProtocolManager.wrote] at ready
      -- opening would need a manager that is not connected, and leaves it connected
      | opened => cases ready
  · rintro ⟨args, secure, carried⟩
    rw [carried]
    dsimp only
    rw [call_close connected]

/-! ### Packets that are answered -/

/-- A packet the stack has an answer to: a control packet the SSP layer obeys, or a command with
a known opcode, which needs a session when it comes encrypted. -/
def Accepts (packet : List UInt8) : Prop :=
  ∃ c body, packet = c :: body ∧
    if isControl c then
      ∃ payload, stack.ssp.Carries aes c body payload ∧ stack.ssp.Obeys (isEncrypted c) payload
    else
      ∃ opcode args, stack.ssp.Carries aes c body (opcode :: args) ∧
        (isEncrypted c → stack.ssp.state = .inSession) ∧ opcode ≤ 0x03

theorem opcode_le (opcode : UInt8) :
    opcode ≤ 0x03 ↔ opcode = 0x00 ∨ opcode = 0x01 ∨ opcode = 0x02 ∨ opcode = 0x03 := by
  simp only [UInt8.le_iff_toNat_le, ← UInt8.toNat_inj]
  simp
  omega

theorem call_isOk_iff (j : JustinProtocolManager S) (payload : List UInt8)
    (secure : Bool) :
    (j.call payload secure).2.isOk ↔ ∃ opcode args, payload = opcode :: args ∧ opcode ≤ 0x03 := by
  cases payload with
  | nil => simp [JustinProtocolManager.call, JustinProtocolManager.processCommand, Except.isOk,
      Except.toBool]
  | cons opcode args =>
    simp only [List.cons.injEq, opcode_le]
    unfold JustinProtocolManager.call JustinProtocolManager.processCommand CommandOpCode.tryFrom
    dsimp only
    split_ifs <;> simp_all [Except.isOk, Except.toBool]

omit [MobileKeyStore S] in
theorem command_of_carries {c : UInt8} {body payload : List UInt8} (data : isControl c = false)
    (carries : stack.ssp.Carries aes c body payload) (nonempty : body ≠ [])
    (inside : isEncrypted c → stack.ssp.state = .inSession) :
    stack.command aes (c :: body) = some (payload, isEncrypted c) := by
  obtain ⟨first, rest, rfl⟩ := List.exists_cons_of_ne_nil nonempty
  cases encrypted : isEncrypted c with
  | false => simp [command, data, encrypted, carries.eq encrypted]
  | true =>
    have taken := processPacket_data aes data carries nonempty (inside encrypted)
    simp [command, data, encrypted, taken]

/-- A packet is answered exactly when it carries something the stack has an answer to. -/
theorem handlePacket_isOk_iff (packet : List UInt8) :
    (stack.handlePacket aes packet).2.isOk ↔ stack.Accepts aes packet := by
  constructor
  · intro answered
    have step := handlePacket_step aes stack packet
    generalize stack.handlePacket aes packet = result at step answered
    cases step with
    | short | undeciphered => cases answered
    | @control c body control _ =>
      refine ⟨c, body, rfl, ?_⟩
      rw [if_pos control]
      exact (processPacket_control_isOk_iff aes control).mp answered
    -- a clear command: answered when its opcode is known
    | @clear c first rest data plain _ =>
      refine ⟨c, _, rfl, ?_⟩
      rw [if_neg (by simp [data])]
      have known : (stack.justin.call (first :: rest) false).2.isOk := by
        revert answered
        cases (stack.justin.call (first :: rest) false).2 <;> exact id
      obtain ⟨opcode, args, same, small⟩ := (call_isOk_iff stack.justin _ _).mp known
      exact ⟨opcode, args, same ▸ carries_of_plain plain, by simp [plain], small⟩
    -- an encrypted one: the same, and the session has to be open
    | @enciphered c body payload data encrypted opens inside _ =>
      refine ⟨c, body, rfl, ?_⟩
      rw [if_neg (by simp [data])]
      have known : (stack.justin.call payload true).2.isOk := by
        revert answered
        rcases stack.justin.call payload true with ⟨justin, e | reply⟩ <;> exact id
      obtain ⟨opcode, args, rfl, small⟩ := (call_isOk_iff stack.justin _ _).mp known
      exact ⟨opcode, args, carries_of_opens encrypted opens, fun _ => inside, small⟩
  · rintro ⟨c, body, rfl, meaning⟩
    split at meaning
    next control =>
      obtain ⟨payload, carries, obeys⟩ := meaning
      have nonempty : body ≠ [] := by
        obtain ⟨x, rest, rfl⟩ := List.exists_cons_of_ne_nil obeys.ne_nil
        exact carries.ne_nil
      obtain ⟨first, rest, rfl⟩ := List.exists_cons_of_ne_nil nonempty
      have answered := (processPacket_control_isOk_iff aes control).mpr ⟨payload, carries, obeys⟩
      simpa [handlePacket, control] using answered
    next data =>
      obtain ⟨opcode, args, carries, inside, small⟩ := meaning
      have carried := command_of_carries aes stack (by simpa using data) carries carries.ne_nil
        inside
      have known := (call_isOk_iff stack.justin (opcode :: args) (isEncrypted c)).mpr
        ⟨opcode, args, rfl, small⟩
      cases answer : (stack.justin.call (opcode :: args) (isEncrypted c)).2 with
      | error e => simp [answer, Except.isOk, Except.toBool] at known
      | ok reply =>
        have told : stack.answered aes (c :: body) = some (.ok reply) := by
          simp only [answered, carried, Option.map_some, answer]
        exact handlePacket_isOk aes stack told

/-! ### Refusals of the kN key -/

/-- The command is a READ_TAG of the kN key. -/
def readsKn : List UInt8 → Bool
  | 0x02 :: id :: _ => id == tagKnKey
  | _ => false

/-- The packet brings a READ_TAG of the kN key that is answered with an error. -/
def refusesKn (packet : List UInt8) : Bool :=
  match stack.command aes packet with
  | some (payload, secure) => readsKn payload &&
      (stack.justin.call payload secure).2 = .ok [CommandStatus.genericError.toByte]
  | none => false

theorem readsKn_iff (payload : List UInt8) :
    readsKn payload ↔ ∃ args, payload = 0x02 :: tagKnKey :: args := by
  unfold readsKn
  split
  · simp
  next other => simpa using fun args same => other tagKnKey args same

/-- A refused read is answered with the general error. -/
theorem refusesKn_answered {packet : List UInt8} (refused : stack.refusesKn aes packet) :
    stack.answered aes packet = some (.ok [CommandStatus.genericError.toByte]) := by
  rw [refusesKn] at refused
  split at refused
  next payload secure carried =>
    rw [answered, carried, Option.map_some]
    simpa using (Bool.and_eq_true_iff.mp refused).2
  next => cases refused

/-- A refusal is an answer. -/
theorem refusesKn_isOk {packet : List UInt8} (refused : stack.refusesKn aes packet) :
    (stack.handlePacket aes packet).2.isOk :=
  handlePacket_isOk aes stack (refusesKn_answered aes stack refused)

theorem call_readKn {j : JustinProtocolManager S} {key : MobileKey}
    (connected : j.state = .connected) (held : j.currentKey = some key) (args : List UInt8)
    (secure : Bool) :
    j.call (0x02 :: tagKnKey :: args) secure =
      if secure then (j, .ok (CommandStatus.success.toByte :: key.knKey.toList))
      else ({ j with knReadRefusals := j.knReadRefusals + 1 },
        .ok [CommandStatus.genericError.toByte]) := by
  have view : key.getTag tagKnKey = some ⟨.readable, key.knKey.toList⟩ := rfl
  have legacy : isLegacyTag tagKnKey = true := rfl
  cases j
  dsimp only at connected held
  subst connected held
  cases secure <;>
    simp [JustinProtocolManager.call, JustinProtocolManager.processCommand, CommandOpCode.tryFrom,
      JustinProtocolManager.handleReadTag, JustinProtocolManager.setSecureSession, view,
      JustinProtocolManager.refusesKnKey, JustinProtocolManager.canReadTag, legacy]

/-- Every refusal is counted, and nothing else is. -/
theorem handlePacket_refusals {key : MobileKey} (connected : stack.justin.state = .connected)
    (held : stack.justin.currentKey = some key) (packet : List UInt8) :
    (stack.handlePacket aes packet).1.justin.knReadRefusals =
      stack.justin.knReadRefusals + if stack.refusesKn aes packet then 1 else 0 := by
  rw [handlePacket_justin, refusesKn]
  cases carried : stack.command aes packet with
  | none => simp
  | some command =>
    obtain ⟨payload, secure⟩ := command
    dsimp only
    by_cases reads : readsKn payload
    · obtain ⟨args, rfl⟩ := (readsKn_iff payload).mp reads
      simp only [call_readKn connected held, reads]
      cases secure with
      | false => simp
      | true => simp [CommandStatus.toByte]
    · -- any other command leaves the count as it is
      simp only [Bool.not_eq_true] at reads
      simp only [reads, Bool.false_and, Bool.false_eq_true, if_false, UInt32.add_zero]
      have step := stack.justin.call_step secure payload
      generalize stack.justin.call payload secure = result at step
      cases step with
      | refused => simp [readsKn] at reads
      | failed | answered | opened | closed | wrote => rfl

/-- A key once loaded is never given up. -/
theorem handlePacket_holdsKey (held : stack.justin.currentKey.isSome) (packet : List UInt8) :
    (stack.handlePacket aes packet).1.justin.currentKey.isSome := by
  rw [handlePacket_justin]
  cases carried : stack.command aes packet with
  | none => exact held
  | some command =>
    obtain ⟨payload, secure⟩ := command
    dsimp only
    have step := stack.justin.call_step secure payload
    generalize stack.justin.call payload secure = result at step
    cases step with
    | failed | answered | refused | closed => exact held
    | opened | wrote => rfl

end JustinStack0100

end Mkey
