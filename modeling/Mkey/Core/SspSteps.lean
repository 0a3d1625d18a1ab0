import Mkey.Core.Ssp

/-!
# What one call of the SSP layer can do

Every invariant of the layer is read off `processPacket_step`: it lists, with
their guards, the ways a packet can be answered and the state each one leaves.
-/
namespace Mkey.SecureProtocolManager

open Control

section Fields

variable (s : SecureProtocolManager) (ciphertext : List UInt8)

@[simp] theorem updateIv_state : (s.updateIvFromCiphertext ciphertext).state = s.state := by
  unfold updateIvFromCiphertext; split <;> rfl

@[simp] theorem updateIv_knKey : (s.updateIvFromCiphertext ciphertext).knKey = s.knKey := by
  unfold updateIvFromCiphertext; split <;> rfl

@[simp] theorem updateIv_sessionKey :
    (s.updateIvFromCiphertext ciphertext).sessionKey = s.sessionKey := by
  unfold updateIvFromCiphertext; split <;> rfl

@[simp] theorem updateIv_randomA : (s.updateIvFromCiphertext ciphertext).randomA = s.randomA := by
  unfold updateIvFromCiphertext; split <;> rfl

@[simp] theorem updateIv_randomB : (s.updateIvFromCiphertext ciphertext).randomB = s.randomB := by
  unfold updateIvFromCiphertext; split <;> rfl

@[simp] theorem updateIv_version : (s.updateIvFromCiphertext ciphertext).version = s.version := by
  unfold updateIvFromCiphertext; split <;> rfl

@[simp] theorem updateIv_random : (s.updateIvFromCiphertext ciphertext).random = s.random := by
  unfold updateIvFromCiphertext; split <;> rfl

@[simp] theorem updateIv_currentEncryptionKey :
    (s.updateIvFromCiphertext ciphertext).currentEncryptionKey = s.currentEncryptionKey := by
  simp only [currentEncryptionKey, updateIv_sessionKey, updateIv_knKey]

end Fields

/-- The state after reading a received body: the IV moves as soon as the body is whole blocks. -/
def advance (s : SecureProtocolManager) (body : List UInt8) : SecureProtocolManager :=
  if 16 ∣ body.length then s.updateIvFromCiphertext body else s

/-- The state after reading a packet, whatever becomes of it. -/
def received (s : SecureProtocolManager) (packet : List UInt8) : SecureProtocolManager :=
  match packet with
  | [] | [_] => s
  | c :: b :: rest => if isEncrypted c then s.advance (b :: rest) else s

section Fields

variable (s : SecureProtocolManager) (packet : List UInt8)

/-- Reading a packet touches nothing but the IV. -/
theorem received_cases :
    s.received packet = s ∨ ∃ body, s.received packet = s.updateIvFromCiphertext body := by
  unfold received advance
  split
  · exact .inl rfl
  · exact .inl rfl
  · split
    · split
      · exact .inr ⟨_, rfl⟩
      · exact .inl rfl
    · exact .inl rfl

@[simp] theorem received_state : (s.received packet).state = s.state := by
  rcases s.received_cases packet with h | ⟨body, h⟩ <;> simp [h]

@[simp] theorem received_knKey : (s.received packet).knKey = s.knKey := by
  rcases s.received_cases packet with h | ⟨body, h⟩ <;> simp [h]

@[simp] theorem received_sessionKey : (s.received packet).sessionKey = s.sessionKey := by
  rcases s.received_cases packet with h | ⟨body, h⟩ <;> simp [h]

@[simp] theorem received_randomA : (s.received packet).randomA = s.randomA := by
  rcases s.received_cases packet with h | ⟨body, h⟩ <;> simp [h]

@[simp] theorem received_randomB : (s.received packet).randomB = s.randomB := by
  rcases s.received_cases packet with h | ⟨body, h⟩ <;> simp [h]

@[simp] theorem received_version : (s.received packet).version = s.version := by
  rcases s.received_cases packet with h | ⟨body, h⟩ <;> simp [h]

@[simp] theorem received_random : (s.received packet).random = s.random := by
  rcases s.received_cases packet with h | ⟨body, h⟩ <;> simp [h]

@[simp] theorem received_currentEncryptionKey :
    (s.received packet).currentEncryptionKey = s.currentEncryptionKey := by
  simp only [currentEncryptionKey, received_sessionKey, received_knKey]

end Fields

section Aes

variable (aes : BlockCipher)

/-! ### Sealing and opening -/

/-- The ciphertext of `data` with its checksum and padding. -/
def sealPayload (key iv : Block) (data : List UInt8) : List UInt8 :=
  encryptAesCbc aes key iv (applyPadding (data ++ crc16Ssp data)) (applyPadding_aligned _)

/-- A body that decrypts, block length, padding and checksum included, to `data`. -/
def Opens (key iv : Block) (body data : List UInt8) : Prop :=
  16 ≤ body.length ∧ ∃ plain, decryptAesCbc aes key iv body = .ok plain ∧
    removePadding plain = .ok (data ++ crc16Ssp data)

theorem length_sealPayload (key iv : Block) (data : List UInt8) :
    (sealPayload aes key iv data).length = (applyPadding (data ++ crc16Ssp data)).length :=
  length_encryptAesCbc ..

theorem sealPayload_long (key iv : Block) (data : List UInt8) :
    16 ≤ (sealPayload aes key iv data).length ∧ 16 ∣ (sealPayload aes key iv data).length := by
  rw [length_sealPayload]
  have aligned := applyPadding_aligned (data ++ crc16Ssp data)
  have length := length_applyPadding (data ++ crc16Ssp data)
  exact ⟨Nat.le_of_dvd (by omega) aligned, aligned⟩

theorem opens_sealPayload (key iv : Block) (data : List UInt8) :
    Opens aes key iv (sealPayload aes key iv data) data :=
  ⟨(sealPayload_long aes key iv data).1, _, decryptAesCbc_encryptAesCbc ..,
    removePadding_applyPadding _⟩

theorem Opens.dvd {key iv : Block} {body data : List UInt8} (opens : Opens aes key iv body data) :
    16 ∣ body.length := by
  obtain ⟨_, plain, decrypted, _⟩ := opens
  rw [decryptAesCbc] at decrypted
  split at decrypted
  · assumption
  · cases decrypted

/-- What a body decrypts to is the data it opens to, its checksum and padding. -/
theorem Opens.unpadded {key iv : Block} {body data plain : List UInt8}
    (opens : Opens aes key iv body data) (decrypted : decryptAesCbc aes key iv body = .ok plain) :
    removePadding plain = .ok (data ++ crc16Ssp data) := by
  obtain ⟨_, plain', decrypted', unpadded⟩ := opens
  rw [decrypted, Except.ok.injEq] at decrypted'
  subst decrypted'
  exact unpadded

theorem Opens.unique {key iv : Block} {body data other : List UInt8}
    (first : Opens aes key iv body data) (second : Opens aes key iv body other) :
    data = other := by
  obtain ⟨_, plain, decrypted, unpadded⟩ := first
  have unpadded' := second.unpadded aes decrypted
  rw [unpadded, Except.ok.injEq] at unpadded'
  exact (List.append_inj' unpadded' rfl).1

theorem encryptPayload_eq (s : SecureProtocolManager) (data : List UInt8) :
    s.encryptPayload aes data =
      (s.updateIvFromCiphertext (sealPayload aes s.currentEncryptionKey s.iv data),
        .ok (sealPayload aes s.currentEncryptionKey s.iv data)) := rfl

/-- Decryption moves the IV with every body of whole blocks, and answers what the body opens to. -/
theorem decryptPayload_cases (s : SecureProtocolManager) (body : List UInt8) :
    (∃ e, s.decryptPayload aes body = (s.advance body, .error e) ∧
      e ≠ .authenticationFailed ∧
      ∀ data, ¬Opens aes s.currentEncryptionKey s.iv body data) ∨
    (∃ data, s.decryptPayload aes body = (s.advance body, .ok data) ∧
      Opens aes s.currentEncryptionKey s.iv body data) := by
  rw [decryptPayload]
  split
  next bad =>
    left
    -- refused on its length alone; fewer than sixteen bytes leave the IV even when whole
    refine ⟨_, Prod.ext ?_ rfl, by simp, ?_⟩
    · unfold advance updateIvFromCiphertext
      split
      · rw [dif_neg (by omega)]
      · rfl
    · intro data opens
      rcases bad with short | ragged
      · exact absurd opens.1 (by omega)
      · exact ragged opens.dvd
  next good =>
    have aligned : 16 ∣ body.length := by
      by_contra ragged
      exact good (.inr ragged)
    have long : 16 ≤ body.length := by
      by_contra short
      exact good (.inl (by omega))
    have moved : s.updateIvFromCiphertext body = s.advance body := by
      rw [advance, if_pos aligned]
    cases decrypted : decryptAesCbc aes s.currentEncryptionKey s.iv body with
    -- whole blocks always decrypt
    | error e => simp [decryptAesCbc, aligned] at decrypted
    | ok plain =>
      simp only [moved]
      cases unpadded : removePadding plain with
      -- the padding is wrong: the IV has moved, and nothing opens the body
      | error e =>
        left
        refine ⟨e, rfl, ?_, ?_⟩
        · rw [removePadding_error unpadded]
          simp
        · intro data opens
          rw [opens.unpadded aes decrypted] at unpadded
          cases unpadded
      | ok unpadded_bytes =>
        have same {data : List UInt8} (opens : Opens aes s.currentEncryptionKey s.iv body data) :
            unpadded_bytes = data ++ crc16Ssp data := by
          have whole := opens.unpadded aes decrypted
          rwa [unpadded, Except.ok.injEq] at whole
        dsimp only
        split
        -- no room for a checksum, or one that does not match
        next short =>
          left
          refine ⟨_, rfl, by simp, ?_⟩
          intro data opens
          rw [same opens] at short
          simp at short
        next enough =>
          split
          next wrong =>
            left
            refine ⟨_, rfl, by simp, fun data opens => wrong ?_⟩
            rw [same opens]
            simp
          next right =>
            right
            refine ⟨_, rfl, long, plain, decrypted, ?_⟩
            rw [unpadded, ← not_not.mp right, List.take_append_drop]

theorem decryptPayload_opens {s : SecureProtocolManager} {body data : List UInt8}
    (opens : Opens aes s.currentEncryptionKey s.iv body data) :
    s.decryptPayload aes body = (s.advance body, .ok data) := by
  rcases s.decryptPayload_cases aes body with ⟨_, _, _, closed⟩ | ⟨other, opened, opens'⟩
  · exact absurd opens (closed data)
  · rw [opened, opens'.unique aes opens]

/-- Whether the body opens or not, decrypting it moves the IV as reading it does. -/
theorem decryptPayload_fst (s : SecureProtocolManager) (body : List UInt8) :
    (s.decryptPayload aes body).1 = s.advance body := by
  rcases s.decryptPayload_cases aes body with ⟨_, failed, _⟩ | ⟨_, opened, _⟩
  · rw [failed]
  · rw [opened]

/-- Unwrapping a packet moves the IV with an encrypted body and does nothing else. -/
theorem unwrapData_fst (s : SecureProtocolManager) (c : UInt8) (body : List UInt8) :
    (s.unwrapData aes (c :: body)).1 = if isEncrypted c then s.advance body else s := by
  by_cases encrypted : isEncrypted c = true
  · rw [unwrapData, if_neg (not_not.mpr encrypted), if_pos encrypted, decryptPayload_fst]
  · rw [unwrapData, if_pos encrypted, if_neg encrypted]

theorem wrapData_inSession (s : SecureProtocolManager) (inside : s.state = .inSession)
    (data : List UInt8) :
    s.wrapData aes data =
      (s.updateIvFromCiphertext (sealPayload aes s.currentEncryptionKey s.iv data),
        .ok (0x02 :: sealPayload aes s.currentEncryptionKey s.iv data)) := by
  rw [wrapData, if_neg (not_not.mpr inside), encryptPayload_eq]
  rfl

/-! ### Inversion of `processPacket` -/

/-- What a body means under its control byte: the opened plaintext, or the body itself. -/
def Carries (s : SecureProtocolManager) (c : UInt8) (body payload : List UInt8) : Prop :=
  if isEncrypted c then Opens aes s.currentEncryptionKey s.iv body payload else payload = body

section Carries

variable {aes} {s : SecureProtocolManager} {c : UInt8} {body payload : List UInt8}

theorem carries_of_opens (encrypted : isEncrypted c)
    (opens : Opens aes s.currentEncryptionKey s.iv body payload) :
    s.Carries aes c body payload := by
  rwa [Carries, if_pos encrypted]

theorem carries_of_plain (plain : isEncrypted c = false) : s.Carries aes c body body := by
  rw [Carries, if_neg (by simp [plain])]

theorem Carries.opens (carries : s.Carries aes c body payload) (encrypted : isEncrypted c) :
    Opens aes s.currentEncryptionKey s.iv body payload := by
  rwa [Carries, if_pos encrypted] at carries

theorem Carries.eq (carries : s.Carries aes c body payload) (plain : isEncrypted c = false) :
    payload = body := by
  rwa [Carries, if_neg (by simp [plain])] at carries

end Carries

/-- The RandomB the next accepted OpenSessionStep1 issues. -/
def nextChallenge (s : SecureProtocolManager) : Block := s.random.random16.1

def challengeReply (s : SecureProtocolManager) : List UInt8 :=
  sealPayload aes s.currentEncryptionKey s.iv (0x01 :: s.nextChallenge.toList)

def afterChallenge (s : SecureProtocolManager) : SecureProtocolManager :=
  { ({ s with random := s.random.random16.2,
              randomB := some s.nextChallenge } : SecureProtocolManager).updateIvFromCiphertext
      (s.challengeReply aes) with state := .authStep1 }

/-- The proof of knowing RandomA, under the key and IV in force after reading the packet. -/
def proofReply (s : SecureProtocolManager) (a : Block) : List UInt8 :=
  sealPayload aes s.currentEncryptionKey s.iv (0x02 :: rotateRight a.toList)

def afterProof (s : SecureProtocolManager) (a b : Block) : SecureProtocolManager :=
  { ({ s with randomA := some a } : SecureProtocolManager).updateIvFromCiphertext
      (s.proofReply aes a) with
    sessionKey := some (deriveSessionKey a b), state := .inSession }

/-- The reply to a new key is already under that key. -/
def rekeyReply (s : SecureProtocolManager) (key : Block) : List UInt8 :=
  sealPayload aes key s.iv [0x03]

def afterRekey (s : SecureProtocolManager) (key : Block) : SecureProtocolManager :=
  ({ s with sessionKey := some key } : SecureProtocolManager).updateIvFromCiphertext
    (s.rekeyReply aes key)

/-- The ways `processPacket` can answer, each with its guard and the state it leaves. -/
inductive SspStep (s : SecureProtocolManager) : List UInt8 → Result → Prop
  | rejected {packet : List UInt8} {e : Error} : e ≠ .authenticationFailed →
      SspStep s packet (s.received packet, .error e)
  | mismatch {c : UInt8} {body args : List UInt8} {b : Block} :
      isControl c → isEncrypted c →
      Opens aes s.currentEncryptionKey s.iv body (0x02 :: args) → s.state = .authStep1 →
      s.randomB = some b → (args.drop 16).take 16 ≠ rotateRight b.toList →
      SspStep s (c :: body)
        ({ s.received (c :: body) with state := .ready }, .error .authenticationFailed)
  | challenged {c : UInt8} {args : List UInt8} :
      isControl c → isEncrypted c = false → s.state = .ready →
      SspStep s (c :: 0x01 :: args) (s.afterChallenge aes, .ok (0x03 :: s.challengeReply aes))
  | authenticated {c : UInt8} {body rest : List UInt8} {a b : Block} :
      isControl c → isEncrypted c →
      Opens aes s.currentEncryptionKey s.iv body
        (0x02 :: (a.toList ++ (rotateRight b.toList ++ rest))) →
      s.state = .authStep1 → s.randomB = some b →
      SspStep s (c :: body) ((s.received (c :: body)).afterProof aes a b,
        .ok (0x03 :: (s.received (c :: body)).proofReply aes a))
  | rekeyed {c x : UInt8} {body rest : List UInt8} {key : Block} :
      isControl c → s.Carries aes c body (0x03 :: x :: (key.toList ++ rest)) →
      s.state = .inSession →
      SspStep s (c :: body) ((s.received (c :: body)).afterRekey aes key,
        .ok (0x03 :: (s.received (c :: body)).rekeyReply aes key))
  | version {c : UInt8} {body args : List UInt8} :
      isControl c → s.Carries aes c body (0x04 :: args) →
      SspStep s (c :: body)
        (s.received (c :: body), .ok [0x01, 0x04, s.version.major, s.version.minor])
  | data {c : UInt8} {body payload : List UInt8} :
      isControl c = false → s.Carries aes c body payload → body ≠ [] → s.state = .inSession →
      SspStep s (c :: body) (s.received (c :: body), .ok payload)

/-- A slice in front of a list is its first entries. -/
theorem slice_split (bytes : List UInt8) (start : Nat) (fits : start + 16 ≤ bytes.length) :
    bytes.drop start = (Block.slice bytes start fits).toList ++ bytes.drop (start + 16) := by
  rw [Block.slice, ← List.drop_drop, List.take_append_drop]

/-- A control packet whose payload is known steps as its opcode says. -/
theorem processControlPacket_step (s : SecureProtocolManager) (c : UInt8)
    (body payload : List UInt8) (control : isControl c) (carries : s.Carries aes c body payload) :
    SspStep aes s (c :: body)
      ((s.received (c :: body)).processControlPacket aes payload (isEncrypted c)) := by
  unfold processControlPacket
  split
  · exact .rejected (by simp)
  next byte rest =>
    rw [OpCode.tryFrom]
    split_ifs with h0 h1 h2 h3 h4
    · exact .rejected (by simp)
    · -- OpenSessionStep1: plaintext only, and the body is the payload itself
      subst h1
      dsimp only [handleOpenSessionStep1]
      split_ifs with enc wrong
      · exact .rejected (by simp)
      · exact .rejected (by simp)
      · have plain : isEncrypted c = false := by simpa using enc
        have same : 0x01 :: rest = body := carries.eq plain
        subst same
        have untouched : s.received (c :: 0x01 :: rest) = s := by simp [received, plain]
        rw [untouched] at wrong ⊢
        exact .challenged control plain (not_not.mp wrong)
    · -- OpenSessionStep2: encrypted only, 32 bytes, and the second half has to be the proof
      subst h2
      dsimp only [handleOpenSessionStep2]
      split_ifs with encrypted wrong short
      · exact .rejected (by simp)
      · exact .rejected (by simp)
      · have opens := carries.opens encrypted
        have waiting : s.state = .authStep1 := by simpa using wrong
        split
        next => exact .rejected (by simp)
        next b held =>
          have stored : s.randomB = some b := by rw [← held, received_randomB]
          split_ifs with mismatch
          · -- the one branch that fails with `authenticationFailed`
            exact .mismatch control encrypted opens waiting stored mismatch
          · have front : rest = (Block.slice rest 0 (by omega)).toList ++ rest.drop 16 :=
              slice_split rest 0 (by omega)
            have back := slice_split rest 16 (by omega)
            rw [not_not.mp mismatch] at back
            rw [back] at front
            rw [front] at opens
            exact .authenticated control encrypted opens waiting stored
      · exact .rejected (by simp)
    · -- SetKeyValue: whatever its bit says about encryption, the session has to be open
      subst h3
      dsimp only [handleSetKeyValue]
      split_ifs with wrong short
      · exact .rejected (by simp)
      · exact .rejected (by simp)
      · have inside : s.state = .inSession := by simpa using wrong
        obtain ⟨x, args, rfl⟩ : ∃ x args, rest = x :: args := by
          cases rest with
          | nil => simp at short
          | cons x args => exact ⟨x, args, rfl⟩
        have slice := slice_split (x :: args) 1 (by omega)
        rw [List.drop_succ_cons, List.drop_zero] at slice
        have known : s.Carries aes c body (0x03 :: x ::
            ((Block.slice (x :: args) 1 (by omega)).toList ++ (x :: args).drop 17)) := by
          rw [← slice]
          exact carries
        exact .rekeyed control known inside
    · -- GetVersion needs no state at all
      subst h4
      rw [handleGetVersion, received_version]
      exact .version control carries
    · exact .rejected (by simp)

/-- A packet that means something is dispatched on its control bit. -/
theorem processPacket_carries (s : SecureProtocolManager) {c : UInt8} {body payload : List UInt8}
    (carries : s.Carries aes c body payload) (nonempty : body ≠ []) :
    s.processPacket aes (c :: body) =
      if isControl c then
        (s.received (c :: body)).processControlPacket aes payload (isEncrypted c)
      else (s.received (c :: body)).processDataPacket payload := by
  obtain ⟨b, rest, rfl⟩ := List.exists_cons_of_ne_nil nonempty
  rw [processPacket]
  cases enc : isEncrypted c with
  | false =>
    simp [received, enc, carries.eq enc]
  | true =>
    simp [received, enc, decryptPayload_opens aes (carries.opens enc)]

/-- A body that opens to nothing costs the IV step and no more. -/
theorem processPacket_undeciphered (s : SecureProtocolManager) {c b : UInt8} {rest : List UInt8}
    (encrypted : isEncrypted c)
    (closed : ∀ data, ¬Opens aes s.currentEncryptionKey s.iv (b :: rest) data) :
    ∃ e, e ≠ .authenticationFailed ∧
      s.processPacket aes (c :: b :: rest) = (s.received (c :: b :: rest), .error e) := by
  rcases s.decryptPayload_cases aes (b :: rest) with ⟨e, failed, other, _⟩ | ⟨data, _, opens⟩
  · exact ⟨e, other, by simp [processPacket, received, encrypted, failed]⟩
  · exact absurd opens (closed data)

theorem processPacket_step (s : SecureProtocolManager) (packet : List UInt8) :
    SspStep aes s packet (s.processPacket aes packet) := by
  match packet with
  | [] => exact .rejected (by simp)
  | [c] => exact .rejected (by simp)
  | c :: b :: rest =>
    -- either the body means something under its control byte, or it is
    -- encrypted and opens to nothing
    by_cases meaning : ∃ payload, s.Carries aes c (b :: rest) payload
    · obtain ⟨payload, carries⟩ := meaning
      rw [processPacket_carries aes s carries (by simp)]
      split
      next control => exact processControlPacket_step aes s c _ payload control carries
      next data =>
        rw [processDataPacket]
        split_ifs with wrong
        · exact .rejected (by simp)
        · exact .data (by simpa using data) carries (by simp) (by simpa using wrong)
    · have encrypted : isEncrypted c = true := by
        by_contra plain
        exact meaning ⟨b :: rest, carries_of_plain (by simpa using plain)⟩
      have closed (data : List UInt8) :
          ¬Opens aes s.currentEncryptionKey s.iv (b :: rest) data := fun opens =>
        meaning ⟨data, carries_of_opens encrypted opens⟩
      obtain ⟨e, other, failed⟩ := processPacket_undeciphered aes s encrypted closed
      rw [failed]
      exact .rejected other

theorem processPacket_knKey (s : SecureProtocolManager) (packet : List UInt8) :
    (s.processPacket aes packet).1.knKey = s.knKey := by
  have step := processPacket_step aes s packet
  generalize s.processPacket aes packet = result at step
  cases step with
  | rejected | version | data => exact received_knKey s _
  | mismatch => exact received_knKey s _
  | challenged => simp [afterChallenge]
  | authenticated => simp [afterProof]
  | rekeyed => simp [afterRekey]

/-- A body that moves the IV has its last sixteen bytes behind it. -/
theorem advance_iv (s : SecureProtocolManager) {body : List UInt8} (aligned : 16 ∣ body.length)
    (long : 16 ≤ body.length) : (s.advance body).iv.toList = body.drop (body.length - 16) := by
  rw [advance, if_pos aligned, updateIvFromCiphertext, dif_pos long, Block.slice]
  exact List.take_of_length_le (by rw [List.length_drop]; omega)

theorem drop_last_cons (c : UInt8) {body : List UInt8} (long : 16 ≤ body.length) :
    (c :: body).drop ((c :: body).length - 16) = body.drop (body.length - 16) := by
  have shift : (c :: body).length - 16 = body.length - 16 + 1 := by
    rw [List.length_cons]
    omega
  rw [shift, List.drop_succ_cons]

/-- After an encrypted packet that opens, the chain stands at its last sixteen bytes. -/
theorem received_iv (s : SecureProtocolManager) {c : UInt8} {body data : List UInt8} {key : Block}
    (encrypted : isEncrypted c) (opens : Opens aes key s.iv body data) :
    (s.received (c :: body)).iv.toList = (c :: body).drop ((c :: body).length - 16) := by
  have long := opens.1
  cases body with
  | nil => simp at long
  | cons b rest =>
    rw [received, if_pos encrypted, advance_iv s opens.dvd long, drop_last_cons c long]

/-- Whatever becomes of a packet, reading it leaves the IV or moves it to the packet's end. -/
theorem received_iv_cases (s : SecureProtocolManager) (packet : List UInt8) :
    (s.received packet).iv = s.iv ∨ 16 < packet.length ∧
      (s.received packet).iv.toList = packet.drop (packet.length - 16) := by
  match packet with
  | [] | [_] => exact .inl rfl
  | c :: b :: rest =>
    rw [received]
    split
    · by_cases aligned : 16 ∣ (b :: rest).length
      · have long : 16 ≤ (b :: rest).length := Nat.le_of_dvd (by simp) aligned
        refine .inr ⟨Nat.lt_succ_of_le long, ?_⟩
        rw [advance_iv s aligned long, drop_last_cons c long]
      · -- a body that is no whole number of blocks is refused before it is decrypted
        rw [advance, if_neg aligned]
        exact .inl rfl
    · exact .inl rfl

/-! ### Packets that are obeyed -/

theorem Carries.ne_nil {s : SecureProtocolManager} {c x : UInt8} {body payload : List UInt8}
    (carries : s.Carries aes c body (x :: payload)) : body ≠ [] := by
  rintro rfl
  rw [Carries] at carries
  split at carries
  · exact absurd carries.1 (by simp)
  · cases carries

variable {s : SecureProtocolManager} {c : UInt8} {body : List UInt8}

theorem processPacket_challenged {args : List UInt8} (control : isControl c)
    (plain : isEncrypted c = false) (ready : s.state = .ready) :
    s.processPacket aes (c :: 0x01 :: args) =
      (s.afterChallenge aes, .ok (0x03 :: s.challengeReply aes)) := by
  have carries : s.Carries aes c (0x01 :: args) (0x01 :: args) := carries_of_plain plain
  have untouched : s.received (c :: 0x01 :: args) = s := by simp [received, plain]
  rw [processPacket_carries aes s carries carries.ne_nil, if_pos control, untouched, plain]
  change s.handleOpenSessionStep1 aes args false = _
  rw [handleOpenSessionStep1, if_neg Bool.false_ne_true, if_neg (not_not.mpr ready)]
  rfl

theorem processPacket_authenticated {rest : List UInt8} {a b : Block} (control : isControl c)
    (encrypted : isEncrypted c)
    (opens : Opens aes s.currentEncryptionKey s.iv body
      (0x02 :: (a.toList ++ (rotateRight b.toList ++ rest))))
    (waiting : s.state = .authStep1) (stored : s.randomB = some b) :
    s.processPacket aes (c :: body) = ((s.received (c :: body)).afterProof aes a b,
      .ok (0x03 :: (s.received (c :: body)).proofReply aes a)) := by
  have carries := carries_of_opens encrypted opens
  rw [processPacket_carries aes s carries carries.ne_nil, if_pos control, encrypted]
  have rotated : (rotateRight b.toList).length = 16 := by
    rw [length_rotateRight, b.length_toList]
  have long : ¬(a.toList ++ (rotateRight b.toList ++ rest)).length < 32 := by
    simp only [List.length_append, a.length_toList, rotated]
    omega
  have front : Block.slice (a.toList ++ (rotateRight b.toList ++ rest)) 0 (by omega) = a := by
    ext1
    simp [Block.slice, a.length_toList]
  have back : (Block.slice (a.toList ++ (rotateRight b.toList ++ rest)) 16 (by omega)).toList =
      rotateRight b.toList := by
    simp [Block.slice, a.length_toList, rotated]
  change (s.received (c :: body)).handleOpenSessionStep2 aes
    (a.toList ++ (rotateRight b.toList ++ rest)) true = _
  -- from here on only the state and RandomB of the receiving manager matter
  have waiting : (s.received (c :: body)).state = .authStep1 := by rw [received_state, waiting]
  have stored : (s.received (c :: body)).randomB = some b := by rw [received_randomB, stored]
  generalize s.received (c :: body) = r at waiting stored
  rw [handleOpenSessionStep2, if_neg (by simp), if_neg (not_not.mpr waiting), dif_neg long]
  dsimp only
  split
  next absent => simp [stored] at absent
  next b' held =>
    obtain rfl : b = b' := by simpa [stored] using held
    rw [if_neg (not_not.mpr back), front]
    rfl

theorem processPacket_rekeyed {x : UInt8} {rest : List UInt8} {key : Block}
    (control : isControl c) (carries : s.Carries aes c body (0x03 :: x :: (key.toList ++ rest)))
    (inside : s.state = .inSession) :
    s.processPacket aes (c :: body) = ((s.received (c :: body)).afterRekey aes key,
      .ok (0x03 :: (s.received (c :: body)).rekeyReply aes key)) := by
  rw [processPacket_carries aes s carries carries.ne_nil, if_pos control]
  have long : ¬(x :: (key.toList ++ rest)).length < 17 := by
    simp only [List.length_cons, List.length_append, key.length_toList]
    omega
  have slice : Block.slice (x :: (key.toList ++ rest)) 1 (by omega) = key := by
    ext1
    simp [Block.slice, key.length_toList]
  change (s.received (c :: body)).handleSetKeyValue aes (x :: (key.toList ++ rest)) = _
  have inside : (s.received (c :: body)).state = .inSession := by rw [received_state, inside]
  rw [handleSetKeyValue, if_neg (not_not.mpr inside), dif_neg long, slice]
  rfl

theorem processPacket_version {args : List UInt8} (control : isControl c)
    (carries : s.Carries aes c body (0x04 :: args)) :
    s.processPacket aes (c :: body) =
      (s.received (c :: body), .ok [0x01, 0x04, s.version.major, s.version.minor]) := by
  rw [processPacket_carries aes s carries carries.ne_nil, if_pos control]
  change (s.received (c :: body), (s.received (c :: body)).handleGetVersion) = _
  rw [handleGetVersion, received_version]
  rfl

theorem processPacket_data {payload : List UInt8} (data : isControl c = false)
    (carries : s.Carries aes c body payload) (nonempty : body ≠ [])
    (inside : s.state = .inSession) :
    s.processPacket aes (c :: body) = (s.received (c :: body), .ok payload) := by
  rw [processPacket_carries aes s carries nonempty, if_neg (by simp [data]), processDataPacket,
    if_neg (by simp [inside])]

/-- The control commands that are obeyed, with what each one needs. -/
def Obeys (s : SecureProtocolManager) (encrypted : Bool) : List UInt8 → Prop
  | 0x01 :: _ => encrypted = false ∧ s.state = .ready
  | 0x02 :: args => encrypted ∧ s.state = .authStep1 ∧ 32 ≤ args.length ∧
      ∃ b, s.randomB = some b ∧ (args.drop 16).take 16 = rotateRight b.toList
  | 0x03 :: args => s.state = .inSession ∧ 17 ≤ args.length
  | 0x04 :: _ => True
  | _ => False

theorem Obeys.ne_nil {encrypted : Bool} {payload : List UInt8} (obeys : s.Obeys encrypted payload) :
    payload ≠ [] := by
  rintro rfl
  exact obeys

/-- A control packet is answered exactly when it carries a command that is obeyed. -/
theorem processPacket_control_isOk_iff (control : isControl c) :
    (s.processPacket aes (c :: body)).2.isOk ↔
      ∃ payload, s.Carries aes c body payload ∧ s.Obeys (isEncrypted c) payload := by
  constructor
  · intro answered
    have step := processPacket_step aes s (c :: body)
    generalize s.processPacket aes (c :: body) = result at step answered
    cases step with
    | rejected | mismatch => cases answered
    | challenged _ plain ready => exact ⟨_, carries_of_plain plain, plain, ready⟩
    | @authenticated _ _ rest a b _ encrypted opens waiting stored =>
      refine ⟨_, carries_of_opens encrypted opens, encrypted, waiting, ?_, b, stored, ?_⟩
      · simp only [List.length_append, a.length_toList, length_rotateRight, b.length_toList]
        omega
      · simp [a.length_toList, length_rotateRight, b.length_toList]
    | @rekeyed _ x _ rest key _ carries inside =>
      refine ⟨_, carries, inside, ?_⟩
      simp only [List.length_cons, List.length_append, key.length_toList]
      omega
    | version _ carries => exact ⟨_, carries, trivial⟩
    | data data => simp [data] at control
  · rintro ⟨payload, carries, obeys⟩
    unfold Obeys at obeys
    split at obeys
    next args =>
      obtain ⟨plain, ready⟩ := obeys
      rw [← carries.eq plain, processPacket_challenged aes control plain ready]
      rfl
    -- cut the 32 bytes into RandomA and the rotated RandomB
    next args =>
      obtain ⟨encrypted, waiting, long, b, stored, proof⟩ := obeys
      have front : args = (Block.slice args 0 (by omega)).toList ++ args.drop 16 :=
        slice_split args 0 (by omega)
      have back : args.drop 16 = rotateRight b.toList ++ args.drop 32 := by
        calc args.drop 16
            = (args.drop 16).take 16 ++ (args.drop 16).drop 16 :=
              (List.take_append_drop 16 (args.drop 16)).symm
          _ = rotateRight b.toList ++ args.drop 32 := by rw [proof, List.drop_drop]
      rw [back] at front
      rw [front] at carries
      rw [processPacket_authenticated aes control encrypted (carries.opens encrypted) waiting
        stored]
      rfl
    next args =>
      obtain ⟨inside, long⟩ := obeys
      obtain ⟨x, rest, rfl⟩ : ∃ x rest, args = x :: rest := by
        cases args with
        | nil => simp at long
        | cons x rest => exact ⟨x, rest, rfl⟩
      have slice := slice_split (x :: rest) 1 (by omega)
      rw [List.drop_succ_cons, List.drop_zero] at slice
      rw [slice] at carries
      rw [processPacket_rekeyed aes control carries inside]
      rfl
    next args =>
      rw [processPacket_version aes control carries]
      rfl
    · exact obeys.elim

end Aes

end Mkey.SecureProtocolManager
