import Mkey.Core.StackSteps
import Mkey.Lib.Machine
import Mkey.Properties.SecureChannel

/-!
# What the lock is told

The lock is modelled as a party that keeps to the protocol: it holds kN, mirrors
the phone's end of the channel in a manager of its own, and puts one packet after
another. `transparent` compares what it gets with `Phone`, the same phone
without a channel: no key, no IV, no checksum and no packet.

## Proof strategy

`Mirrors` says that the two ends of the channel agree. One request keeps it, and
is answered as `Phone` answers it; runs follow with `related_runs`.
-/
namespace Mkey

open Control Machine

/-- A control byte that announces a data packet in the clear. -/
structure ClearByte where
  byte : UInt8
  data : isControl byte = false
  clear : isEncrypted byte = false

/-- The one with no flag set. -/
def ClearByte.plain : ClearByte where
  byte := 0x00
  data := by decide
  clear := by decide

/-- What a lock can ask of the phone, one packet each. -/
inductive Request where
  | clear (control : ClearByte) (first : UInt8) (rest : List UInt8)
  | sealed (payload : List UInt8)
  | version
  | challenge
  | prove (randomA : Block)
  | rekey (unread : UInt8) (key : Block) (rest : List UInt8)

/-! ### The phone without its channel -/

/-- How far the authentication is, the values still to be drawn, and the command layer. -/
structure Phone (S : Type) where
  state : SspState
  random : RandomSource
  justin : JustinProtocolManager S

namespace Phone

variable {S : Type} [MobileKeyStore S]

def refuse (phone : Phone S) (expected : SspState) : Phone S × Except Error (List UInt8) :=
  (phone, .error (.invalidState expected.toString phone.state.toString))

def command (phone : Phone S) (payload : List UInt8) (secure : Bool) :
    Phone S × Except Error (List UInt8) :=
  ({ phone with justin := (phone.justin.call payload secure).1 },
    (phone.justin.call payload secure).2)

def answer (phone : Phone S) : Request → Phone S × Except Error (List UInt8)
  | .clear _ first rest => phone.command (first :: rest) false
  | .sealed payload =>
    if phone.state = .inSession then phone.command payload true else phone.refuse .inSession
  | .version => (phone, .ok [0x01, 0x04, 0x01, 0x00])
  | .challenge =>
    if phone.state = .ready then
      ({ phone with state := .authStep1, random := phone.random.random16.2 },
        .ok (0x01 :: phone.random.random16.1.toList))
    else phone.refuse .ready
  | .prove randomA =>
    if phone.state = .authStep1 then
      ({ phone with state := .inSession }, .ok (0x02 :: rotateRight randomA.toList))
    else phone.refuse .authStep1
  | .rekey _ _ _ =>
    if phone.state = .inSession then (phone, .ok [0x03]) else phone.refuse .inSession

/-- The answer as it reaches a lock that can open it. -/
def told (phone : Phone S) (request : Request) :
    Phone S × Except Error (Option (List UInt8)) :=
  ((phone.answer request).1, (phone.answer request).2.map some)

end Phone

/-! ### The lock's end of the channel -/

namespace Lock

open SecureProtocolManager

section Aes

variable (aes : BlockCipher)

def post (lock : SecureProtocolManager) (control : UInt8) (payload : List UInt8) :
    SecureProtocolManager × List UInt8 :=
  let body := sealPayload aes lock.currentEncryptionKey lock.iv payload
  (lock.updateIvFromCiphertext body, control :: body)

/-- The packet that puts a request. -/
def send (lock : SecureProtocolManager) : Request → SecureProtocolManager × List UInt8
  | .clear control first rest => (lock, control.byte :: first :: rest)
  | .sealed payload => post aes lock encryptedData payload
  | .version => (lock, buildGetVersionRequest)
  | .challenge => (lock, buildOpenSessionStep1Request)
  | .prove randomA =>
    let randomB := lock.randomB.getD (Block.replicate 0)
    post aes lock encryptedControl (0x02 :: (randomA.toList ++ rotateRight randomB.toList))
  | .rekey unread key rest =>
    post aes lock encryptedControl (0x03 :: unread :: (key.toList ++ rest))

/-- What the lock makes of the reply to a request, if it can make anything of it. -/
def hear (lock : SecureProtocolManager) (request : Request) (reply : List UInt8) :
    SecureProtocolManager × Option (List UInt8) :=
  match request with
  -- the control byte comes back in front of a clear answer
  | .clear _ _ _ => (lock, some reply.tail)
  | .sealed _ => ((lock.unwrapData aes reply).1, (lock.unwrapData aes reply).2.toOption)
  | .version => (lock, some reply)
  | .challenge =>
    match lock.unwrapData aes reply with
    | (lock, .ok (0x01 :: value)) =>
      if whole : value.length = 16 then
        ({ lock with state := .authStep1, randomB := some ⟨value, whole⟩ }, some (0x01 :: value))
      else (lock, none)
    | (lock, .ok _) | (lock, .error _) => (lock, none)
  | .prove randomA =>
    match lock.unwrapData aes reply with
    | (lock, .ok proof) =>
      -- the phone proves itself in turn, by rotating RandomA
      if proof = 0x02 :: rotateRight randomA.toList then
        ({ lock with
            state := .inSession
            sessionKey := lock.randomB.map (deriveSessionKey randomA) }, some proof)
      else (lock, none)
    | (lock, .error _) => (lock, none)
  | .rekey _ key _ =>
    let lock := { lock with sessionKey := some key }
    ((lock.unwrapData aes reply).1, (lock.unwrapData aes reply).2.toOption)

/-- A request is put, and its reply taken before anything else is sent. -/
def converse {S : Type} [MobileKeyStore S] (sides : SecureProtocolManager × JustinStack0100 S)
    (request : Request) :
    (SecureProtocolManager × JustinStack0100 S) × Except Error (Option (List UInt8)) :=
  let (lock, packet) := send aes sides.1 request
  match sides.2.handlePacket aes packet with
  | (stack, .error e) => ((lock, stack), .error e)
  | (stack, .ok reply) =>
    let (lock, opened) := hear aes lock request reply
    ((lock, stack), .ok opened)

end Aes

end Lock

/-! ### The two ends of the channel -/

namespace SecureProtocolManager

variable (aes : BlockCipher)

/-- What the holder of key and IV unwraps, under any control byte that says encrypted. -/
theorem unwrapData_sealed (s : SecureProtocolManager) {c : UInt8} (encrypted : isEncrypted c)
    (payload : List UInt8) :
    s.unwrapData aes (c :: sealPayload aes s.currentEncryptionKey s.iv payload) =
      (s.updateIvFromCiphertext (sealPayload aes s.currentEncryptionKey s.iv payload),
        .ok payload) := by
  have opened := decryptPayload_opens aes
    (opens_sealPayload aes s.currentEncryptionKey s.iv payload)
  rw [advance_eq s (sealPayload_long aes s.currentEncryptionKey s.iv payload).2] at opened
  rw [unwrapData, if_neg (not_not.mpr encrypted), opened]

/-- Reading a sealed packet moves the IV to its end. -/
theorem received_sealed (s : SecureProtocolManager) {c : UInt8} (encrypted : isEncrypted c)
    (key iv : Block) (payload : List UInt8) :
    s.received (c :: sealPayload aes key iv payload) =
      s.updateIvFromCiphertext (sealPayload aes key iv payload) := by
  obtain ⟨long, aligned⟩ := sealPayload_long aes key iv payload
  generalize sealPayload aes key iv payload = body at long aligned
  cases body with
  | nil => simp at long
  | cons b rest => rw [received, if_pos encrypted, advance_eq s aligned]

theorem sealPayload_ne_nil (key iv : Block) (payload : List UInt8) :
    sealPayload aes key iv payload ≠ [] := by
  intro empty
  have long := (sealPayload_long aes key iv payload).1
  simp [empty] at long

/-- The lock and the phone agree on everything that the channel depends on. -/
structure Mirrors (lock phone : SecureProtocolManager) : Prop where
  state : lock.state = phone.state
  knKey : lock.knKey = phone.knKey
  sessionKey : lock.sessionKey = phone.sessionKey
  iv : lock.iv = phone.iv
  challenge : phone.state = .authStep1 → ∃ b, phone.randomB = some b ∧ lock.randomB = some b
  version : phone.version = ⟨1, 0⟩

variable {aes} {lock phone : SecureProtocolManager}

theorem Mirrors.encryptionKey (mirrors : Mirrors lock phone) :
    lock.currentEncryptionKey = phone.currentEncryptionKey := by
  rw [currentEncryptionKey, currentEncryptionKey, mirrors.sessionKey, mirrors.knKey]

/-- Both ends have seen one more ciphertext. -/
theorem Mirrors.advance (mirrors : Mirrors lock phone) {body : List UInt8}
    (long : 16 ≤ body.length) :
    Mirrors (lock.updateIvFromCiphertext body) (phone.updateIvFromCiphertext body) where
  state := by simp [mirrors.state]
  knKey := by simp [mirrors.knKey]
  sessionKey := by simp [mirrors.sessionKey]
  iv := updateIv_iv lock phone long
  challenge := by simpa using mirrors.challenge
  version := by simp [mirrors.version]

variable (aes)

theorem Mirrors.seals (mirrors : Mirrors lock phone) (payload : List UInt8) :
    sealPayload aes lock.currentEncryptionKey lock.iv payload =
      sealPayload aes phone.currentEncryptionKey phone.iv payload := by
  rw [mirrors.encryptionKey, mirrors.iv]

/-- What the lock posts has been read by the phone: the two ends meet behind it. -/
theorem Mirrors.post (mirrors : Mirrors lock phone) {c : UInt8} (encrypted : isEncrypted c)
    (payload : List UInt8) :
    Mirrors (Lock.post aes lock c payload).1 (phone.received (Lock.post aes lock c payload).2) := by
  rw [Lock.post]
  dsimp only
  rw [received_sealed aes phone encrypted]
  exact mirrors.advance (sealPayload_long aes _ _ payload).1

/-- A reply sealed by the phone is opened, and the two ends meet behind it again. -/
theorem Mirrors.unwrap (mirrors : Mirrors lock phone) {c : UInt8} (encrypted : isEncrypted c)
    (payload : List UInt8) :
    let body := sealPayload aes phone.currentEncryptionKey phone.iv payload
    lock.unwrapData aes (c :: body) = (lock.updateIvFromCiphertext body, .ok payload) ∧
      Mirrors (lock.updateIvFromCiphertext body) (phone.updateIvFromCiphertext body) := by
  dsimp only
  have opened := unwrapData_sealed aes lock encrypted payload
  rw [mirrors.seals aes payload] at opened
  exact ⟨opened, mirrors.advance (sealPayload_long aes _ _ payload).1⟩

/-- The phone takes what the lock posts for what it is. -/
theorem Mirrors.carries (mirrors : Mirrors lock phone) {c : UInt8} (encrypted : isEncrypted c)
    (payload : List UInt8) :
    phone.Carries aes c (sealPayload aes lock.currentEncryptionKey lock.iv payload) payload := by
  rw [mirrors.seals aes payload]
  exact carries_of_opens encrypted (opens_sealPayload aes _ _ payload)

end SecureProtocolManager

/-! ### One request -/

namespace Lock

open SecureProtocolManager JustinStack0100

variable {S : Type} [MobileKeyStore S] (aes : BlockCipher)

/-- The two sides stand where the phone without a channel stands. -/
structure Follows (sides : SecureProtocolManager × JustinStack0100 S) (phone : Phone S) :
    Prop where
  mirrors : Mirrors sides.1 sides.2.ssp
  state : sides.2.ssp.state = phone.state
  random : sides.2.ssp.random = phone.random
  justin : sides.2.justin = phone.justin

variable {lock : SecureProtocolManager} {stack : JustinStack0100 S} {phone : Phone S}

theorem handlePacket_control {c first : UInt8} {rest : List UInt8} (control : isControl c) :
    stack.handlePacket aes (c :: first :: rest) =
      ({ stack with ssp := (stack.ssp.processPacket aes (c :: first :: rest)).1 },
        (stack.ssp.processPacket aes (c :: first :: rest)).2) := by
  rw [handlePacket, if_pos control]

theorem handlePacket_clear (control : ClearByte) (first : UInt8) (rest : List UInt8) :
    stack.handlePacket aes (control.byte :: first :: rest) =
      ({ stack with justin := (stack.justin.call (first :: rest) false).1 },
        (stack.justin.call (first :: rest) false).2.map (control.byte :: ·)) := by
  rw [handlePacket, if_neg (by simp [control.data]), if_neg (by simp [control.clear]),
    processJustin_eq]
  rcases stack.justin.call (first :: rest) false with ⟨justin, e | reply⟩ <;> rfl

theorem handlePacket_encrypted {body payload : List UInt8} (nonempty : body ≠ [])
    (carries : stack.ssp.Carries aes 0x02 body payload) :
    stack.handlePacket aes (0x02 :: body) =
      if stack.ssp.state = .inSession then
        sealAnswer aes (stack.ssp.received (0x02 :: body)) (stack.justin.call payload true)
      else ({ stack with ssp := stack.ssp.received (0x02 :: body) },
        .error (.invalidState SspState.inSession.toString stack.ssp.state.toString)) := by
  have data : isControl 0x02 = false := by decide
  have encrypted : isEncrypted 0x02 = true := by decide
  have taken := processPacket_carries aes stack.ssp carries nonempty
  obtain ⟨first, rest, rfl⟩ := List.exists_cons_of_ne_nil nonempty
  rw [if_neg (by simp [data]), processDataPacket, received_state] at taken
  rw [handlePacket, if_neg (by simp [data]), if_pos encrypted, taken]
  by_cases inside : stack.ssp.state = .inSession
  · rw [if_pos inside, if_neg (not_not.mpr inside)]
    simp only [processJustin_eq]
    -- the plaintext came out of a session, so the answer can be wrapped
    have still : (stack.ssp.received (0x02 :: first :: rest)).state = .inSession := by
      rw [received_state, inside]
    rcases stack.justin.call payload true with ⟨justin, e | reply⟩
    · rfl
    · simp only [wrapData_inSession aes _ still]
      rfl
  · rw [if_neg inside, if_pos inside]
    rfl

/-- What a request should come to. -/
def Answered (request : Request) (sides : SecureProtocolManager × JustinStack0100 S)
    (phone : Phone S) : Prop :=
  (converse aes sides request).2 = (phone.answer request).2.map some ∧
    Follows (converse aes sides request).1 (phone.answer request).1

private theorem sealed_step (follows : Follows (lock, stack) phone) (payload : List UInt8) :
    Answered aes (.sealed payload) (lock, stack) phone := by
  have encrypted : isEncrypted 0x02 = true := by decide
  have met := follows.mirrors.post aes encrypted payload
  have state := (received_state stack.ssp (post aes lock 0x02 payload).2).trans follows.state
  have random := (received_random stack.ssp (post aes lock 0x02 payload).2).trans follows.random
  have handled : stack.handlePacket aes (post aes lock 0x02 payload).2 =
      if stack.ssp.state = .inSession then
        sealAnswer aes (stack.ssp.received (post aes lock 0x02 payload).2)
          (stack.justin.call payload true)
      else ({ stack with ssp := stack.ssp.received (post aes lock 0x02 payload).2 },
        .error (.invalidState SspState.inSession.toString stack.ssp.state.toString)) :=
    handlePacket_encrypted aes (sealPayload_ne_nil aes _ _ payload)
      (follows.mirrors.carries aes encrypted payload)
  rw [follows.state, follows.justin] at handled
  unfold Answered converse Phone.answer
  dsimp only [send, encryptedData, encryptedFlag]
  rw [handled]
  -- from here on only the two ends behind the packet matter
  generalize post aes lock 0x02 payload = sent at met state random
  obtain ⟨lock', packet⟩ := sent
  dsimp only at met state random
  generalize stack.ssp.received packet = ssp at met state random
  split_ifs with inside
  · rw [Phone.command]
    rcases phone.justin.call payload true with ⟨justin, e | reply⟩
    · exact ⟨rfl, met, state, random, rfl⟩
    · obtain ⟨opened, again⟩ := met.unwrap aes encrypted reply
      dsimp only [sealAnswer, hear]
      rw [opened]
      exact ⟨rfl, again, by simpa using state, by simpa using random, rfl⟩
  · rw [Phone.refuse]
    exact ⟨rfl, met, state, random, rfl⟩

private theorem clear_step (follows : Follows (lock, stack) phone) (control : ClearByte)
    (first : UInt8) (rest : List UInt8) :
    Answered aes (.clear control first rest) (lock, stack) phone := by
  unfold Answered converse Phone.answer
  dsimp only [send]
  rw [handlePacket_clear, follows.justin, Phone.command]
  rcases phone.justin.call (first :: rest) false with ⟨justin, e | reply⟩
  · exact ⟨rfl, follows.mirrors, follows.state, follows.random, rfl⟩
  · exact ⟨rfl, follows.mirrors, follows.state, follows.random, rfl⟩

/-- The lock's side of a control packet, from what the SSP layer makes of it. -/
def take (request : Request) (lock : SecureProtocolManager) (stack : JustinStack0100 S)
    (result : Result) :
    (SecureProtocolManager × JustinStack0100 S) × Except Error (Option (List UInt8)) :=
  match result with
  | (ssp, .error e) => ((lock, { stack with ssp }), .error e)
  | (ssp, .ok reply) =>
    (((hear aes lock request reply).1, { stack with ssp }), .ok (hear aes lock request reply).2)

/-- A control packet is answered by the SSP layer, and the command layer is not told of it. -/
private theorem control_step {request : Request} {c first : UInt8} {rest : List UInt8}
    {lock' : SecureProtocolManager} (control : isControl c)
    (sends : send aes lock request = (lock', c :: first :: rest)) :
    converse aes (lock, stack) request =
      take aes request lock' stack (stack.ssp.processPacket aes (c :: first :: rest)) := by
  rw [converse, sends]
  dsimp only
  rw [handlePacket_control aes control]
  rcases stack.ssp.processPacket aes (c :: first :: rest) with ⟨ssp, e | reply⟩ <;> rfl

private theorem version_step (follows : Follows (lock, stack) phone) :
    Answered aes .version (lock, stack) phone := by
  have control : isControl 0x01 = true := by decide
  have plain : isEncrypted 0x01 = false := by decide
  have carries : stack.ssp.Carries aes 0x01 [0x04] [0x04] := carries_of_plain plain
  have untouched : stack.ssp.received [0x01, 0x04] = stack.ssp := by simp [received, plain]
  have told := processPacket_version aes control carries
  rw [untouched, follows.mirrors.version] at told
  have sends : send aes lock .version = (lock, [0x01, 0x04]) := rfl
  rw [Answered, control_step aes control sends, told]
  exact ⟨rfl, follows.mirrors, follows.state, follows.random, follows.justin⟩

private theorem challenge_step (follows : Follows (lock, stack) phone) :
    Answered aes .challenge (lock, stack) phone := by
  have control : isControl 0x01 = true := by decide
  have plain : isEncrypted 0x01 = false := by decide
  have sends : send aes lock .challenge = (lock, [0x01, 0x01]) := rfl
  rw [Answered, control_step aes control sends, Phone.answer, ← follows.state]
  by_cases ready : stack.ssp.state = .ready
  · rw [processPacket_challenged aes control plain ready, if_pos ready]
    -- the lock opens the challenge and keeps the value drawn for it
    have whole : stack.ssp.nextChallenge.toList.length = 16 := by simp
    obtain ⟨opened, met⟩ := follows.mirrors.unwrap aes (c := 0x03) (by decide)
      (0x01 :: stack.ssp.nextChallenge.toList)
    have heard : hear aes lock .challenge (0x03 :: stack.ssp.challengeReply aes) =
        ({ lock.updateIvFromCiphertext (stack.ssp.challengeReply aes) with
            state := .authStep1, randomB := some stack.ssp.nextChallenge },
          some (0x01 :: stack.ssp.nextChallenge.toList)) := by
      simp only [hear, challengeReply, opened]
      rw [dif_pos whole]
    rw [take]
    dsimp only
    rw [heard]
    have drawn : stack.ssp.nextChallenge = phone.random.random16.1 := by
      rw [nextChallenge, follows.random]
    rw [← drawn]
    refine ⟨rfl, ⟨rfl, ?_, ?_, ?_, ?_, ?_⟩, rfl, ?_, follows.justin⟩
    · simpa [afterChallenge] using follows.mirrors.knKey
    · simpa [afterChallenge] using follows.mirrors.sessionKey
    · exact updateIv_iv _ _ (sealPayload_long aes _ _ _).1
    · exact fun _ => ⟨stack.ssp.nextChallenge, by simp [afterChallenge], rfl⟩
    · simpa [afterChallenge] using follows.mirrors.version
    · rw [← follows.random]
      simp [afterChallenge]
  · have untouched : stack.ssp.received [0x01, 0x01] = stack.ssp := by simp [received, plain]
    have carries : stack.ssp.Carries aes 0x01 [0x01] [0x01] := carries_of_plain plain
    have refused := processPacket_carries aes stack.ssp carries (by simp)
    rw [if_pos control, untouched, plain] at refused
    change _ = stack.ssp.handleOpenSessionStep1 aes [] false at refused
    rw [handleOpenSessionStep1, if_neg Bool.false_ne_true, if_pos ready] at refused
    rw [refused, if_neg ready, Phone.refuse, ← follows.state]
    exact ⟨rfl, follows.mirrors, follows.state, follows.random, follows.justin⟩

/-- A sealed control packet opens to its payload, and the two ends meet behind it. -/
private theorem posted_step {payload : List UInt8}
    (follows : Follows (lock, stack) phone) (request : Request)
    (sends : send aes lock request = post aes lock 0x03 payload) :
    ∃ lock' body, lock'.randomB = lock.randomB ∧ body ≠ [] ∧
      Opens aes stack.ssp.currentEncryptionKey stack.ssp.iv body payload ∧
      Follows (lock', { stack with ssp := stack.ssp.received (0x03 :: body) }) phone ∧
      converse aes (lock, stack) request =
        take aes request lock' stack (stack.ssp.processPacket aes (0x03 :: body)) := by
  have control : isControl 0x03 = true := by decide
  have encrypted : isEncrypted 0x03 = true := by decide
  obtain ⟨first, rest, split⟩ := List.exists_cons_of_ne_nil
    (sealPayload_ne_nil aes lock.currentEncryptionKey lock.iv payload)
  have sends' : send aes lock request =
      ((post aes lock 0x03 payload).1, 0x03 :: first :: rest) := by
    rw [sends, ← split]
    rfl
  refine ⟨(post aes lock 0x03 payload).1, first :: rest, ?_, by simp, ?_, ⟨?_, ?_, ?_, ?_⟩,
    control_step aes control sends'⟩
  · rw [post, updateIv_randomB]
  · rw [← split]
    exact (follows.mirrors.carries aes encrypted payload).opens encrypted
  · rw [← split]
    exact follows.mirrors.post aes encrypted payload
  · exact (received_state ..).trans follows.state
  · exact (received_random ..).trans follows.random
  · exact follows.justin

private theorem prove_step (follows : Follows (lock, stack) phone) (randomA : Block) :
    Answered aes (.prove randomA) (lock, stack) phone := by
  have control : isControl 0x03 = true := by decide
  have encrypted : isEncrypted 0x03 = true := by decide
  obtain ⟨lock', body, lockB, nonempty, opens, after, conversed⟩ := posted_step aes follows
    (.prove randomA) rfl
  rw [Answered, conversed, Phone.answer, ← follows.state]
  by_cases waiting : stack.ssp.state = .authStep1
  · obtain ⟨b, stored, held⟩ := follows.mirrors.challenge waiting
    dsimp only at held stored
    rw [held, Option.getD_some] at opens
    have opens' : Opens aes stack.ssp.currentEncryptionKey stack.ssp.iv body
        (0x02 :: (randomA.toList ++ (rotateRight b.toList ++ []))) := by
      rwa [List.append_nil]
    have proved := processPacket_authenticated aes control encrypted opens' waiting stored
    obtain ⟨opened, met⟩ := after.mirrors.unwrap aes (c := 0x03) encrypted
      (0x02 :: rotateRight randomA.toList)
    have heard : hear aes lock' (.prove randomA)
          (0x03 :: (stack.ssp.received (0x03 :: body)).proofReply aes randomA) =
        ({ lock'.updateIvFromCiphertext
              ((stack.ssp.received (0x03 :: body)).proofReply aes randomA) with
            state := .inSession, sessionKey := some (deriveSessionKey randomA b) },
          some (0x02 :: rotateRight randomA.toList)) := by
      simp only [hear, proofReply, opened, if_true, updateIv_randomB, lockB, held, Option.map_some]
    rw [proved, if_pos waiting, take]
    dsimp only
    rw [heard]
    refine ⟨rfl, ⟨rfl, ?_, rfl, ?_, ?_, ?_⟩, rfl, ?_, follows.justin⟩
    · simpa [afterProof] using after.mirrors.knKey
    · exact updateIv_iv _ _ (sealPayload_long aes _ _ _).1
    · intro impossible
      cases impossible
    · simpa [afterProof] using follows.mirrors.version
    · rw [← follows.random]
      simp [afterProof]
  · have refused := processPacket_carries aes stack.ssp (carries_of_opens encrypted opens) nonempty
    rw [if_pos control, encrypted] at refused
    change _ = (stack.ssp.received (0x03 :: body)).handleOpenSessionStep2 aes _ true at refused
    rw [handleOpenSessionStep2, if_neg (by simp), received_state, if_pos waiting] at refused
    rw [refused, if_neg waiting, Phone.refuse, ← follows.state]
    exact ⟨rfl, after⟩

private theorem rekey_step (follows : Follows (lock, stack) phone) (unread : UInt8) (key : Block)
    (rest : List UInt8) : Answered aes (.rekey unread key rest) (lock, stack) phone := by
  have control : isControl 0x03 = true := by decide
  have encrypted : isEncrypted 0x03 = true := by decide
  obtain ⟨lock', body, _, nonempty, opens, after, conversed⟩ := posted_step aes follows
    (.rekey unread key rest) rfl
  have carries := carries_of_opens encrypted opens
  rw [Answered, conversed, Phone.answer, ← follows.state]
  by_cases inside : stack.ssp.state = .inSession
  · -- both ends change keys before the reply is sealed or opened
    have changed : Mirrors { lock' with sessionKey := some key }
        { stack.ssp.received (0x03 :: body) with sessionKey := some key } :=
      ⟨after.mirrors.state, after.mirrors.knKey, rfl, after.mirrors.iv, after.mirrors.challenge,
        after.mirrors.version⟩
    obtain ⟨opened, met⟩ := changed.unwrap aes (c := 0x03) encrypted [0x03]
    have heard : hear aes lock' (.rekey unread key rest)
        (0x03 :: (stack.ssp.received (0x03 :: body)).rekeyReply aes key) = (_, some [0x03]) :=
      congrArg (fun result : Result => (result.1, result.2.toOption)) opened
    rw [processPacket_rekeyed aes control carries inside, if_pos inside, take]
    dsimp only
    rw [heard]
    exact ⟨rfl, met, (updateIv_state ..).trans after.state, (updateIv_random ..).trans after.random,
      follows.justin⟩
  · have refused := processPacket_carries aes stack.ssp carries nonempty
    rw [if_pos control, encrypted] at refused
    change _ = (stack.ssp.received (0x03 :: body)).handleSetKeyValue aes _ at refused
    rw [handleSetKeyValue, received_state, if_pos inside] at refused
    rw [refused, if_neg inside, Phone.refuse, ← follows.state]
    exact ⟨rfl, after⟩

/-- One request, whatever it is and whenever it comes. -/
theorem converse_step (follows : Follows (lock, stack) phone) (request : Request) :
    Answered aes request (lock, stack) phone := by
  cases request with
  | clear control first rest => exact clear_step aes follows control first rest
  | sealed payload => exact sealed_step aes follows payload
  | version => exact version_step aes follows
  | challenge => exact challenge_step aes follows
  | prove randomA => exact prove_step aes follows randomA
  | rekey unread key rest => exact rekey_step aes follows unread key rest

omit [MobileKeyStore S] in
/-- Two fresh managers under one kN mirror each other. -/
theorem follows_fresh (knKey : Block) (lockRandom random : RandomSource)
    (justin : JustinProtocolManager S) :
    Follows (withRandom knKey lockRandom, ⟨withRandom knKey random, justin⟩)
      ⟨.ready, random, justin⟩ :=
  ⟨⟨rfl, rfl, rfl, rfl, (nomatch ·), rfl⟩, rfl, rfl, rfl⟩

/-- A lock that holds kN gets the answers of a phone without a channel, whatever it asks and in
whatever order, and at every point the two ends of the channel agree. -/
theorem transparent (knKey : Block) (lockRandom random : RandomSource)
    (justin : JustinProtocolManager S) (requests : List Request) :
    let sides := (withRandom knKey lockRandom, ⟨withRandom knKey random, justin⟩)
    outputs (converse aes) sides requests = outputs Phone.told ⟨.ready, random, justin⟩ requests ∧
      Follows (run (converse aes) sides requests)
        (run Phone.told ⟨.ready, random, justin⟩ requests) := by
  refine related_runs Follows (fun _ => True) ?_ _ _
    (follows_fresh knKey lockRandom random justin) requests (fun _ _ => trivial)
  intro sides phone request follows _
  exact converse_step aes follows request

/-- A tag that a session can read, and nothing outside of one. -/
def taggedKey : MobileKey :=
  { MobileKey.new (Block.replicate 0x42) with
    tags := Tags.insert (fun _ => none) 0x05 ⟨0x05, Permissions.readable, [0xAA, 0xBB]⟩ }

/-- A read in the clear, an authentication, the same read sealed, a new key and the read again. -/
def readingRequests : List Request :=
  [.clear .plain 0x02 [0x05], .challenge, .prove (Block.replicate 0x11),
    .sealed [0x02, 0x05], .rekey 0x00 (Block.replicate 0x77) [], .sealed [0x02, 0x05]]

theorem transparent_reading :
    let knKey := Block.replicate 0x42
    let random : RandomSource := ⟨fun _ => Block.replicate 0x22, 0⟩
    let justin : JustinProtocolManager NoopKeyStore := .newWithKey taggedKey
    let sides := (withRandom knKey random, ⟨withRandom knKey random, justin⟩)
    (outputs (converse aes128) sides readingRequests).map Except.toOption =
        [some (some [CommandStatus.genericError.toByte]),
          some (some (0x01 :: List.replicate 16 0x22)),
          some (some (0x02 :: List.replicate 16 0x11)),
          some (some [CommandStatus.success.toByte, 0xAA, 0xBB]), some (some [0x03]),
          some (some [CommandStatus.success.toByte, 0xAA, 0xBB])] ∧
      Follows (run (converse aes128) sides readingRequests)
        (run Phone.told ⟨.ready, random, justin⟩ readingRequests) := by
  intro knKey random justin sides
  obtain ⟨same, follows⟩ := transparent aes128 knKey random random justin readingRequests
  refine ⟨?_, follows⟩
  rw [same]
  rfl

end Lock

end Mkey
